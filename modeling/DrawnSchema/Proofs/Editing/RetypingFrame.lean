import DrawnSchema.Proofs.Editing.Retyping
import DrawnSchema.Proofs.Editing.Stability
import DrawnSchema.Proofs.Relation.Provenance

/-!
# What a change of the type of a relation leaves alone

The fields of the old type are looked for in all models, by what they show of themselves, and
synthesis hands back the fields of all models. Nothing is lost on the way: no two relations give a
field the same id, and synthesis puts fields behind those that are there. So only fields that show
this relation go, and those that come are at its ends.
-/

namespace DrawnSchema

/-! ### Fields that show a relation -/

/-- A field shows that it was derived from an edge. -/
def Field.IsDerivedFrom (edge : String) (f : Field) : Prop :=
  f.origin = .derived ∧ ∃ id ∈ RelationEdge.derivedIds edge, f.id = some id

instance (edge : String) (f : Field) : Decidable (f.IsDerivedFrom edge) :=
  inferInstanceAs (Decidable (_ ∧ ∃ id ∈ RelationEdge.derivedIds edge, f.id = some id))

/-- A field shows no more than one edge. -/
theorem Field.IsDerivedFrom.edge_eq {f : Field} {edge other : String} (h : f.IsDerivedFrom edge)
    (hother : f.IsDerivedFrom other) : edge = other := by
  obtain ⟨-, id, hid, hf⟩ := h
  obtain ⟨-, id', hid', hf'⟩ := hother
  obtain rfl : id = id' := Option.some.inj (hf.symm.trans hf')
  by_contra hne
  exact RelationEdge.derivedIds_disjoint hne hid hid'

theorem Model.withoutDerived_fields (edge : String) (m : Model) :
    (m.withoutDerived edge).fields = m.fields.filter fun f => ¬f.IsDerivedFrom edge := by
  refine List.filter_congr fun f _ => ?_
  cases hid : f.id with
  | none => simp [Field.IsDerivedFrom, hid]
  | some id => by_cases horigin : f.origin = .derived <;> simp [Field.IsDerivedFrom, hid, horigin]

/-! ### Models and graphs around a relation that is given a type -/

/-- A model has lost the fields that show an edge. All others are in their order, and behind them
are new ones that show the edge, if it ends at the model. -/
def Model.RetypedFor (e : RelationEdge) (m m' : Model) : Prop :=
  ∃ added, m' = { m with fields := (m.fields.filter fun f => ¬f.IsDerivedFrom e.id) ++ added } ∧
    (∀ f ∈ added, f.IsDerivedFrom e.id) ∧ (added ≠ [] → m.id = e.source ∨ m.id = e.target)

/-- Fields of a user stay in such a model, and so do fields that show another edge. -/
theorem Model.RetypedFor.mem_of_other {e : RelationEdge} {m m' : Model} (h : m.RetypedFor e m')
    {f : Field} (hf : f ∈ m.fields)
    (hother : f.origin = .user ∨ ∃ other, other ≠ e.id ∧ f.IsDerivedFrom other) :
    f ∈ m'.fields := by
  obtain ⟨added, rfl, -, -⟩ := h
  refine List.mem_append_left _ (List.mem_filter.mpr ⟨hf, decide_eq_true fun hderived => ?_⟩)
  obtain huser | ⟨other, hne, hother⟩ := hother
  · rw [hderived.1] at huser
    cases huser
  · exact hne (hother.edge_eq hderived)

/-- A graph has another type for a relation, and nothing but the fields that show it has changed. -/
structure Graph.Retyped (g : Graph) (e : RelationEdge) (type : String) (g' : Graph) : Prop where
  models : List.Forall₂ (Model.RetypedFor e) g.models g'.models
  enums : g'.enums = g.enums
  relations : ∃ before after, g.relations = before ++ e :: after ∧
    g'.relations = before ++ { e with type } :: after
  generator : g'.generator = g.generator
  datasource : g'.datasource = g.datasource

namespace Synthesis

/-- Synthesis for one edge puts fields that show it behind those of the models that it ends at. -/
theorem synthesizeFields_singleton_additions {e : RelationEdge} {models : List Model}
    {s : Synthesis} (hrun : synthesizeFields [e] models = .ok s) {n : Nat} {m : Model}
    (hm : models[n]? = some m) :
    ∃ added, s.models[n]? = some (m.withMore added) ∧ (∀ f ∈ added, f.IsDerivedFrom e.id) ∧
      (added ≠ [] → m.id = e.source ∨ m.id = e.target) := by
  obtain ⟨added, hadded, -, hsublist, -⟩ := synthesizeFields_additions hrun hm
  have hdemanded : ∀ f ∈ added, f.IsDerivedFrom e.id ∧ (m.id = e.source ∨ m.id = e.target) := by
    intro f hf
    obtain ⟨e', he', end_, other, hid, -, -, hderived⟩ :=
      mem_demandedAt_demands hm (hsublist.subset hf)
    obtain rfl := List.mem_singleton.mp he'
    refine ⟨hderived, ?_⟩
    cases end_ with
    | source => exact Or.inl hid
    | target => exact Or.inr hid
  refine ⟨added, hadded, fun f hf => (hdemanded f hf).1, fun hne => ?_⟩
  obtain ⟨f, hf⟩ := List.exists_mem_of_ne_nil added hne
  exact (hdemanded f hf).2

end Synthesis

namespace Graph

variable {g : Graph} {e : RelationEdge} {type : String}

theorem synthesizeEdges_retyped (hids : g.modelIds.Nodup) (hfound : g.relation? e.id = some e)
    {done : Graph × List Outcome}
    (hdone : ((g.insertRelation { e with type }).dropDerived e.id).synthesizeEdges
      [{ e with type }] = .ok done) : g.Retyped e type done.1 := by
  have hdropped : ((g.insertRelation { e with type }).dropDerived e.id).models =
      g.models.map (Model.withoutDerived e.id) := by
    rw [← insertRelation_models g { e with type }]
    exact mapModels_models _ _
  have hdroppedIds : ((g.insertRelation { e with type }).dropDerived e.id).modelIds.Nodup := by
    simpa using hids
  have hdroppedEnums : ((g.insertRelation { e with type }).dropDerived e.id).enums = g.enums := by
    refine (mapModels_enums _ _).trans ?_
    rw [enums, insertRelation_nodes]
    rfl
  obtain ⟨before, after, hrelations, hplaced⟩ := placeOrAppend_of_find? { e with type } hfound
  unfold synthesizeEdges at hdone
  split at hdone
  · cases hdone
  · rename_i s hrun
    obtain rfl := Except.ok.inj hdone
    obtain ⟨hgrown, hheadings⟩ := Synthesis.synthesizeFields_grown hrun
    have hmodels := setAllFields_models hdroppedIds hgrown hheadings
    rw [hdropped] at hgrown hrun
    refine ⟨?_, ?_, ⟨before, after, hrelations, ?_⟩, ?_, ?_⟩
    · rw [relinkEnums_models, hmodels]
      have hlength : g.models.length = s.models.length := by
        rw [hgrown.length_eq, List.length_map]
      refine List.forall₂_iff_get.mpr ⟨hlength, fun n hn hn' => ?_⟩
      have hm : (g.models.map (Model.withoutDerived e.id))[n]? =
          some (g.models[n].withoutDerived e.id) := by
        rw [List.getElem?_map, List.getElem?_eq_getElem hn, Option.map_some]
      obtain ⟨added, hadded, hderived, hends⟩ :=
        Synthesis.synthesizeFields_singleton_additions hrun hm
      refine ⟨added, ?_, hderived, hends⟩
      rw [List.getElem?_eq_getElem hn'] at hadded
      rw [← Model.withoutDerived_fields]
      exact Option.some.inj hadded
    · rw [relinkEnums_enums, setAllFields_eq, mapModels_enums, hdroppedEnums]
    · rw [relinkEnums_relations, setAllFields_eq, ← hplaced]
      exact insertRelation_relations g { e with type }
    all_goals
      rw [relinkEnums_eq, setAllFields_eq, insertRelation_eq]
      rfl

end Graph

/-! ### The edit -/

namespace Editing

theorem setType_endsRetyped {s : Session} (hids : s.graph.modelIds.Nodup) (id type : String) :
    Ends (Edit.setType id type).editing s
      (fun r t => ∃ e, s.graph.relation? id = some e ∧ r.answer = .relation { e with type } ∧
        s.graph.Retyped e type t.graph)
      fun _ => True := by
  unfold Edit.editing setType
  refine .ask_bind trivial fun e hfound => .ask_bind trivial fun _ _ => ?_
  refine .change_bind <| .change_bind ?_
  refine synthesizeEdges_endsDone.bind fun outcomes t hdone => .pure ⟨e, ?_, rfl, ?_⟩
  · exact EditError.orNotFound_eq_ok_iff.mp hfound
  · have hfound := EditError.orNotFound_eq_ok_iff.mp hfound
    obtain ⟨-, rfl⟩ := Graph.mem_relations_of_relation? hfound
    exact Graph.synthesizeEdges_retyped hids hfound hdone

end Editing

namespace Session

/-- Whatever was done to an empty graph or to that of a document, with success or not: where a
relation takes another type, the fields derived from it are gone from all models. The others are as
they were, in their order, those of users and those derived from other relations among them, and the
new ones come behind them at the ends of the relation. The relation is in its place with nothing but
its type changed, and the other relations and the enums are as they were. -/
theorem run_setType_spares {s : Session} (hbegins : s.Begins) (edits : List Edit)
    {id type : String} {answer : Answer}
    (haccepted : ((s.run edits).apply (.setType id type)).answer = .ok answer) :
    ∃ e, (s.run edits).graph.relation? id = some e ∧ e.id = id ∧
      answer = .relation { e with type } ∧
      (s.run edits).graph.Retyped e type ((s.run edits).apply (.setType id type)).session.graph ∧
      List.Forall₂ (fun m m' => ∀ f ∈ m.fields,
          (f.origin = .user ∨ ∃ other, other ≠ id ∧ f.IsDerivedFrom other) → f ∈ m'.fields)
        (s.run edits).graph.models
        ((s.run edits).apply (.setType id type)).session.graph.models := by
  have hids : (s.run edits).graph.modelIds.Nodup :=
    ((Graph.ids_perm _).nodup_iff.mpr (hbegins.run_linked edits).keyed.ids).of_append_left
  obtain ⟨r, rfl, e, hfound, hrelation, hretyped⟩ :=
    accepted_of_ends (Editing.setType_endsRetyped hids id type) haccepted
  obtain ⟨-, rfl⟩ := Graph.mem_relations_of_relation? hfound
  refine ⟨e, hfound, rfl, hrelation, hretyped, hretyped.models.imp ?_⟩
  exact fun m m' hm f hf => hm.mem_of_other hf

/-- Posts of users, with a title, and for each user one post to begin with. -/
def openings : List Edit :=
  [.addModel (some "User") (some "u"), .addModel (some "Post") (some "p"),
    .addRelation (.text "u") (.text "p") none (some "e") [],
    .addField "p" [(.text "name", .text "title"), (.text "type", .text "String")],
    .addRelation (.text "u") (.text "p") (some (.text "ONE_TO_ONE")) (some "f") []]

/-- With many users for each post, the title of a post and the first post of a user are still there,
and move up to where posts and users were. -/
theorem run_setType_spares_openings :
    (({} : Session).run openings).graph.models.map (fun m => m.fields.map (·.name)) =
        [["id", "posts", "post", "post_id"], ["id", "user", "user_id", "title"]] ∧
      ((({} : Session).run openings).apply (.setType "e" "MANY_TO_MANY")).session.graph.models.map
          (fun m => m.fields.map (·.name)) =
        [["id", "post", "post_id", "posts"], ["id", "title", "users"]] ∧
      ∃ e, (({} : Session).run openings).graph.relation? "e" = some e ∧
        (({} : Session).run openings).graph.Retyped e "MANY_TO_MANY"
          ((({} : Session).run openings).apply (.setType "e" "MANY_TO_MANY")).session.graph := by
  have hbegins : ({} : Session).Begins := .inl ⟨{}, {}, rfl⟩
  have haccepted : ((({} : Session).run openings).apply (.setType "e" "MANY_TO_MANY")).answer =
      .ok _ := rfl
  obtain ⟨e, hfound, -, -, hretyped, -⟩ := run_setType_spares hbegins openings haccepted
  exact ⟨rfl, rfl, e, hfound, hretyped⟩

end Session

end DrawnSchema
