import DrawnSchema.Proofs.Graph.Sound
import DrawnSchema.Proofs.Relation.Idempotence

/-!
# Fields that are there by their ids

What an edge implies goes by ids, which its type and its own id tell; names may change at any time.
Where models have all fields that edges imply, by these ids and at the ends where they belong,
synthesis adds nothing and warns of nothing. And it leaves its models so unless it warns.
-/

namespace DrawnSchema

theorem Model.hasId_iff {m : Model} {f : Field} :
    m.hasId f = true ↔ f.id ∈ m.fields.map (·.id) := by
  simp [hasId]

namespace RelationEdge

/-- The ids of the fields that an edge implies, each with the end whose model is to own it. -/
def owed (e : RelationEdge) : List (EdgeEnd × String) :=
  match e.relationType? with
  | some .oneToMany =>
    [(.source, sourceFieldId e.id), (.target, targetFieldId e.id), (.target, foreignKeyId e.id)]
  | some .oneToOne => [(.source, sourceFieldId e.id), (.source, foreignKeyId e.id)]
  | some .manyToMany => [(.source, sourceFieldId e.id), (.target, targetFieldId e.id)]
  | none => []

theorem impliedFields_owed (e : RelationEdge) (source target : Model) :
    (e.impliedFields source target).map (fun implied => (implied.1, implied.2.id)) =
      e.owed.map fun o => (o.1, some o.2) := by
  unfold impliedFields owed
  cases e.relationType? with
  | none => rfl
  | some type => cases type <;> rfl

theorem owed_derived {e : RelationEdge} {o : EdgeEnd × String} (h : o ∈ e.owed) :
    o.2 ∈ derivedIds e.id := by
  unfold owed at h
  split at h
  all_goals simp only [List.mem_cons, List.not_mem_nil, or_false] at h
  · obtain rfl | rfl | rfl := h <;> simp [derivedIds]
  · obtain rfl | rfl := h <;> simp [derivedIds]
  · obtain rfl | rfl := h <;> simp [derivedIds]

/-- The models at the ends of an edge have the fields there that it implies. -/
def IsPresentIn (e : RelationEdge) (models : List Model) : Prop :=
  ∀ o ∈ e.owed, ∀ m ∈ models, m.id = e.endpoint o.1 → some o.2 ∈ m.fields.map (·.id)

theorem endpoint_eq (e : RelationEdge) (end_ : EdgeEnd) :
    e.endpoint end_ = e.source ∨ e.endpoint end_ = e.target := by
  cases end_
  · exact Or.inl rfl
  · exact Or.inr rfl

/-- What is there stays there as long as the models at the ends keep their fields of derived ids. -/
theorem IsPresentIn.mono {e : RelationEdge} {models models' : List Model}
    (h : e.IsPresentIn models)
    (hkept : ∀ m' ∈ models', m'.id = e.source ∨ m'.id = e.target →
      ∃ m ∈ models, m.id = m'.id ∧ ∀ id ∈ derivedIds e.id,
        some id ∈ m.fields.map (·.id) → some id ∈ m'.fields.map (·.id)) :
    e.IsPresentIn models' := by
  intro o ho m' hm' hend
  have hends : m'.id = e.source ∨ m'.id = e.target := hend ▸ e.endpoint_eq o.1
  obtain ⟨m, hm, hid, hids⟩ := hkept m' hm' hends
  exact hids _ (owed_derived ho) (h o ho m hm (hid.trans hend))

theorem IsPresentIn.grown {e : RelationEdge} {models models' : List Model}
    (h : e.IsPresentIn models) (hgrown : Synthesis.Grown models models') : e.IsPresentIn models' := by
  refine h.mono fun m' hm' _ => ?_
  obtain ⟨n, hn⟩ := List.mem_iff_getElem?.mp hm'
  obtain ⟨m, added, hm, rfl⟩ := hgrown.of_getElem? hn
  refine ⟨m, List.mem_of_getElem? hm, rfl, fun id _ hid => ?_⟩
  rw [Model.withMore_fields, List.map_append]
  exact List.mem_append_left _ hid

end RelationEdge

namespace Synthesis

variable {models : List Model} {e : RelationEdge}

/-- An edge that joins models makes a demand for each field that it implies, of the model at the end
where the field belongs. -/
theorem demandsOf_of_joins (h : e.Joins (models.map (·.id))) :
    ∃ source target, modelById? models e.source = some source ∧
      modelById? models e.target = some target ∧ ∃ place : EdgeEnd → Nat,
        (∀ end_, place? models (e.endpoint end_) = some (place end_) ∧
          models[place end_]? = some (end_.own source target)) ∧
        demandsOf models e =
          (e.impliedFields source target).map fun implied => ⟨e.id, place implied.1, implied.2⟩ := by
  obtain ⟨-, hsource, htarget⟩ := h
  obtain ⟨source, hsource⟩ := modelById?_isSome hsource
  obtain ⟨target, htarget⟩ := modelById?_isSome htarget
  obtain ⟨n, hn, hown⟩ := place?_of_modelById? hsource
  obtain ⟨n', hn', hown'⟩ := place?_of_modelById? htarget
  have hplace : ∀ end_ : EdgeEnd, place? models (e.endpoint end_) = some (end_.own n n') ∧
      models[end_.own n n']? = some (end_.own source target) := by
    intro end_
    cases end_ with
    | source => exact ⟨hn, hown⟩
    | target => exact ⟨hn', hown'⟩
  refine ⟨source, target, hsource, htarget, EdgeEnd.own n n', hplace, ?_⟩
  simp only [demandsOf, hsource, htarget, hplace, Option.map_some, List.filterMap_eq_map']

/-- The demands of an edge that joins models are for what it is owed, each of the model at the end
where it belongs. -/
theorem demandsOf_owed (h : e.Joins (models.map (·.id))) :
    (demandsOf models e).map (fun d => (some d.place, d.field.id)) =
      e.owed.map fun o => (place? models (e.endpoint o.1), some o.2) := by
  obtain ⟨source, target, -, -, place, hplace, hdemands⟩ := demandsOf_of_joins h
  calc (demandsOf models e).map (fun d => (some d.place, d.field.id))
      = ((e.impliedFields source target).map fun i => (i.1, i.2.id)).map
          fun i => (place? models (e.endpoint i.1), i.2) := by
        simp only [hdemands, List.map_map, Function.comp_def, hplace]
    _ = e.owed.map fun o => (place? models (e.endpoint o.1), some o.2) := by
        rw [RelationEdge.impliedFields_owed, List.map_map]
        rfl

/-- Where ids tell models apart: the fields that an edge implies are there if and only if each of
its demands finds the id that it is for. -/
theorem isPresentIn_iff (hids : (models.map (·.id)).Nodup) (hjoins : e.Joins (models.map (·.id))) :
    e.IsPresentIn models ↔
      ∀ d ∈ demandsOf models e, ∀ owner, models[d.place]? = some owner →
        owner.hasId d.field = true := by
  have howed := demandsOf_owed hjoins
  constructor
  · intro h d hd owner howner
    obtain ⟨o, ho, hsame⟩ := List.mem_map.mp (howed ▸ List.mem_map_of_mem hd)
    obtain ⟨hplace, hid⟩ := Prod.mk.inj hsame
    obtain ⟨m, hm, hmid⟩ := place?_eq_some hplace
    obtain rfl := Option.some.inj (hm.symm.trans howner)
    rw [Model.hasId_iff, ← hid]
    exact h o ho m (List.mem_of_getElem? hm) hmid
  · intro h o ho m hm hend
    obtain ⟨d, hd, hsame⟩ := List.mem_map.mp (howed.symm ▸ List.mem_map_of_mem ho)
    obtain ⟨hplace, hid⟩ := Prod.mk.inj hsame
    obtain ⟨owner, howner, hownerid⟩ := place?_eq_some hplace.symm
    obtain rfl : owner = m :=
      List.inj_on_of_nodup_map hids (List.mem_of_getElem? howner) hm (hownerid.trans hend.symm)
    rw [← hid, ← Model.hasId_iff]
    exact h d hd owner howner

/-- Where ids tell edges apart: a run warns of nothing if and only if all that is demanded is there
by its id in the end. -/
theorem warnings_eq_nil_iff {edges : List RelationEdge} {s : Synthesis}
    (hids : (edges.map (·.id)).Nodup) (hrun : synthesizeFields edges models = .ok s) :
    s.warnings = [] ↔ ∀ d ∈ demands edges models, ∀ owner, s.models[d.place]? = some owner →
      owner.hasId d.field = true := by
  rw [synthesizeFields_warnings hrun hids]
  exact warningsOn_eq_nil_iff (demands_settled hrun)

/-- A run that warns of nothing leaves each edge with the fields that it implies. -/
theorem isPresentIn_of_quiet {s : Synthesis} (hids : (models.map (·.id)).Nodup)
    (hjoins : e.Joins (models.map (·.id))) (hrun : synthesizeFields [e] models = .ok s)
    (hquiet : s.warnings = []) : e.IsPresentIn s.models := by
  have hheadings := (synthesizeFields_grown hrun).2
  have hsame := Model.ids_of_headings hheadings
  have hone : ([e].map (·.id)).Nodup := List.nodup_singleton e.id
  have hthere := (warnings_eq_nil_iff hone hrun).mp hquiet
  refine (isPresentIn_iff (hsame ▸ hids) (hsame ▸ hjoins)).mpr fun d hd => hthere d ?_
  rw [demandsOf_congr hheadings] at hd
  exact List.mem_flatMap.mpr ⟨e, List.mem_singleton_self e, hd⟩

/-- Where all that edges imply is there, synthesis succeeds, changes nothing and warns of
nothing. -/
theorem synthesizeFields_of_present {edges : List RelationEdge} (hids : (models.map (·.id)).Nodup)
    (hjoins : ∀ e ∈ edges, e.Joins (models.map (·.id)))
    (hpresent : ∀ e ∈ edges, e.IsPresentIn models) :
    ∃ s, synthesizeFields edges models = .ok s ∧ s.models = models ∧ s.warnings = [] := by
  have hfault : firstEdgeFault? edges models = none :=
    firstEdgeFault?_eq_none_iff.mpr hjoins
  have hthere : ∀ d ∈ demands edges models, ∀ owner, models[d.place]? = some owner →
      owner.hasId d.field = true := by
    intro d hd
    obtain ⟨e, he, hd⟩ := List.mem_flatMap.mp hd
    exact (isPresentIn_iff hids (hjoins e he)).mp (hpresent e he) d hd
  have hsettled : ∀ d ∈ demands edges models, Settled models d := fun d hd owner howner => by
    simp [Model.blocks, hthere d hd owner howner]
  obtain ⟨hmodels, hwarnings⟩ := foldl_meet_of_settled { models } hsettled
  refine ⟨_, synthesizeFields_eq_ok_iff.mpr ⟨hfault, rfl⟩, hmodels, hwarnings.trans ?_⟩
  exact (warningsOn_eq_nil_iff hsettled).mpr hthere

end Synthesis

end DrawnSchema
