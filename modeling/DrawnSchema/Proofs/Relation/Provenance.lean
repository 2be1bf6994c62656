import DrawnSchema.Proofs.Relation.Presence

/-!
# Where the fields of a synthesized model come from

A field of a synthesized model was there before, or an edge demands it of that model. Then the model
lies at one end of the edge, the id of the field is one of those that the edge gives, and its type is
the name of the model at the other end or the type of foreign keys. So no type comes in by synthesis
that is not known from the models, and a model at which no edge ends stays as it is. A run that fails
adds nothing: its error is that of the first edge that does not join two models.
-/

namespace DrawnSchema.Synthesis

variable {edges : List RelationEdge} {models : List Model} {s : Synthesis}

/-- A demand is made of the model at one end of its edge. Its field refers to the model at the other
end, unless it is a foreign key. -/
theorem demandsOf_ends {e : RelationEdge} {d : Demand} (h : d ∈ demandsOf models e) :
    ∃ end_ other, place? models (e.endpoint end_) = some d.place ∧
      modelById? models (e.endpoint end_.opposite) = some other ∧
        (d.field.type = foreignKeyType ∨ d.field.type = other.name) := by
  obtain ⟨source, target, end_, hsource, htarget, himplied, hplace⟩ := demandsOf_implied h
  have htype := RelationEdge.impliedFields_type himplied
  cases end_ with
  | source => exact ⟨.source, target, hplace, htarget, htype⟩
  | target => exact ⟨.target, source, hplace, hsource, htype⟩

theorem demands_type {d : Demand} (h : d ∈ demands edges models) :
    d.field.type = foreignKeyType ∨ d.field.type ∈ models.map (·.name) := by
  obtain ⟨e, -, hd⟩ := List.mem_flatMap.mp h
  obtain ⟨end_, other, -, hother, htype⟩ := demandsOf_ends hd
  refine htype.imp_right fun hname => ?_
  exact List.mem_map.mpr ⟨other, (modelById?_eq_some hother).1, hname.symm⟩

/-- A field that is demanded of a model is derived from an edge that ends at the model. -/
theorem mem_demandedAt_demands {n : Nat} {m : Model} {f : Field} (hm : models[n]? = some m)
    (hf : f ∈ demandedAt n (demands edges models)) :
    ∃ e ∈ edges, ∃ end_ other, m.id = e.endpoint end_ ∧
      modelById? models (e.endpoint end_.opposite) = some other ∧
        (f.type = foreignKeyType ∨ f.type = other.name) ∧
          f.origin = .derived ∧ ∃ id ∈ RelationEdge.derivedIds e.id, f.id = some id := by
  obtain ⟨d, hd, rfl, rfl⟩ := mem_demandedAt_iff.mp hf
  obtain ⟨e, he, hd⟩ := List.mem_flatMap.mp hd
  obtain ⟨end_, other, hplace, hother, htype⟩ := demandsOf_ends hd
  obtain ⟨owner, howner, hid⟩ := place?_eq_some hplace
  obtain rfl := Option.some.inj (howner.symm.trans hm)
  exact ⟨e, he, end_, other, hid, hother, htype, demandsOf_derived hd⟩

/-- A field of a synthesized model was there before, or an edge that ends at the model brings it. -/
theorem mem_fields_synthesizeFields (hrun : synthesizeFields edges models = .ok s) {n : Nat}
    {m m' : Model} {f : Field} (hm : models[n]? = some m) (hm' : s.models[n]? = some m')
    (hf : f ∈ m'.fields) :
    f ∈ m.fields ∨ ∃ e ∈ edges, ∃ end_ other, m.id = e.endpoint end_ ∧
      modelById? models (e.endpoint end_.opposite) = some other ∧
        (f.type = foreignKeyType ∨ f.type = other.name) := by
  obtain ⟨added, hadded, -, hsublist, -⟩ := synthesizeFields_additions hrun hm
  obtain rfl := Option.some.inj (hm'.symm.trans hadded)
  obtain hold | hnew := List.mem_append.mp hf
  · exact .inl hold
  · obtain ⟨e, he, end_, other, hid, hother, htype, -⟩ :=
      mem_demandedAt_demands hm (hsublist.mem hnew)
    exact .inr ⟨e, he, end_, other, hid, hother, htype⟩

/-! ### Runs that fail -/

theorem synthesizeFields_eq_error_iff {error : CompileError} :
    synthesizeFields edges models = .error error ↔
      ∃ before e after, edges = before ++ e :: after ∧
        (∀ e' ∈ before, e'.Joins (models.map (·.id))) ∧
          e.fault? (models.map (·.id)) = some error := by
  have hfault : synthesizeFields edges models = .error error ↔
      firstEdgeFault? edges models = some error := by
    unfold synthesizeFields
    cases firstEdgeFault? edges models <;> simp
  rw [hfault, firstEdgeFault?, List.findSome?_eq_some_iff]
  simp only [RelationEdge.fault?_eq_none_iff, and_comm]

theorem synthesizeFields_fails_iff :
    (∃ error, synthesizeFields edges models = .error error) ↔
      ∃ e ∈ edges, ¬ e.Joins (models.map (·.id)) := by
  have hfails : (∃ e ∈ edges, ¬ e.Joins (models.map (·.id))) ↔
      firstEdgeFault? edges models ≠ none := by
    rw [ne_eq, firstEdgeFault?_eq_none_iff, not_forall₂]
    simp only [exists_prop]
  rw [hfails]
  unfold synthesizeFields
  cases firstEdgeFault? edges models <;> simp

/-- Synthesis leaves models in their places and puts fields behind those that they have: derived
fields, with ids of edges that end at the model, and with names that no other field of the model has.
It fails exactly when some edge does not join two models, with the error of the first such edge. -/
theorem synthesizeFields_additive (edges : List RelationEdge) (models : List Model) :
    (∀ s, synthesizeFields edges models = .ok s →
      s.models.length = models.length ∧
        ∀ (n : Nat) (m : Model), models[n]? = some m →
          ∃ added, s.models[n]? = some (m.withMore added) ∧ m.HasRoomFor added ∧
            (m.HasDistinctFields → (m.withMore added).HasDistinctFields) ∧
            (∀ f ∈ added, f.origin = .derived ∧
              ∃ e ∈ edges, m.id ∈ [e.source, e.target] ∧
                ∃ id ∈ RelationEdge.derivedIds e.id, f.id = some id) ∧
            ((∀ e ∈ edges, m.id ∉ [e.source, e.target]) → m.withMore added = m)) ∧
      ((∃ error, synthesizeFields edges models = .error error) ↔
        ∃ e ∈ edges, ¬ e.Joins (models.map (·.id))) ∧
      ∀ error, synthesizeFields edges models = .error error ↔
        ∃ before e after, edges = before ++ e :: after ∧
          (∀ e' ∈ before, e'.Joins (models.map (·.id))) ∧
            e.fault? (models.map (·.id)) = some error := by
  refine ⟨fun s hrun => ?_, synthesizeFields_fails_iff, fun error => synthesizeFields_eq_error_iff⟩
  refine ⟨(synthesizeFields_grown hrun).1.length_eq, fun n m hm => ?_⟩
  obtain ⟨added, hadded, hroom, hsublist, -⟩ := synthesizeFields_additions hrun hm
  have hderived : ∀ f ∈ added, f.origin = .derived ∧
      ∃ e ∈ edges, m.id ∈ [e.source, e.target] ∧
        ∃ id ∈ RelationEdge.derivedIds e.id, f.id = some id := by
    intro f hf
    obtain ⟨e, he, end_, -, hid, -, -, horigin, hids⟩ :=
      mem_demandedAt_demands hm (hsublist.mem hf)
    refine ⟨horigin, e, he, ?_, hids⟩
    rw [hid]
    cases end_
    · exact List.mem_cons_self
    · exact List.mem_cons_of_mem _ List.mem_cons_self
  refine ⟨added, hadded, hroom, hroom.hasDistinctFields, hderived, fun hfar => ?_⟩
  cases added with
  | nil => exact m.withMore_nil
  | cons f rest =>
      obtain ⟨-, e, he, hend, -⟩ := hderived f List.mem_cons_self
      exact absurd hend (hfar e he)

/-- Posts have a field of their own where the author is to go. The second edge goes from posts to
posts, and takes one name at both ends. -/
theorem synthesizeFields_additive_crowded :
    let edges : List RelationEdge := [{ id := "e", source := "u", target := "p" },
      { id := "f", type := "MANY_TO_MANY", source := "p", target := "p" }]
    let post : Model :=
      { id := "p", name := "Post", fields := [{ name := "user", type := "String" }] }
    ∃ s added, synthesizeFields edges [{ id := "u", name := "User" }, post] = .ok s ∧
      s.models[1]? = some (post.withMore added) ∧ (post.withMore added).HasDistinctFields := by
  intro edges post
  have hrun : synthesizeFields edges [{ id := "u", name := "User" }, post] = .ok _ := rfl
  obtain ⟨-, hadds⟩ := (synthesizeFields_additive edges _).1 _ hrun
  obtain ⟨added, hadded, -, hdistinct, -⟩ := hadds 1 post rfl
  exact ⟨_, added, hrun, hadded, hdistinct (List.nodup_singleton _)⟩

end DrawnSchema.Synthesis
