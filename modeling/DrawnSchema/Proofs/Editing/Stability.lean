import DrawnSchema.Proofs.Editing.Reopening
import DrawnSchema.Proofs.Graph.Synthesized

/-!
# Synthesis is stable under edits

Names of implied fields are told by the names of models, which may change. What is kept is that all
implied fields are there by their ids. Edits of fields keep it as long as they leave derived ids
alone, and edits of relations as long as no implied field is left out for its name. So synthesis has
nothing to add at any point of a run.
-/

namespace DrawnSchema

def Edited.warnings (r : Edited) : List String := r.outcomes.filterMap Outcome.warning?

def Graph.fieldAt? (g : Graph) (model field : String) : Option Field :=
  (g.model? model).bind fun m => (Graph.place? m field).map Prod.snd

def Edited.field? (r : Edited) : Option Field :=
  match r.answer with
  | .field f => some f
  | _ => none

namespace Edit

/-- What came of an accepted edit takes nothing from the relations of the graph that it was made in:
if it draws one or gives it a type, it warns of no collision. If it removes a field, that is not one
that goes by a derived id, and if it updates one that does, the field keeps its id. -/
def IsSparing (g : Graph) (r : Edited) : Edit → Prop
  | .addRelation _ _ _ _ _ => r.warnings = []
  | .setType _ _ => r.warnings = []
  | .removeField model field => ∀ old ∈ g.fieldAt? model field, ¬ g.Derives old
  | .updateField model field _ =>
    ∀ old ∈ g.fieldAt? model field, g.Derives old → ∀ new ∈ r.field?, new.id = old.id
  | _ => True

instance (g : Graph) (r : Edited) : (e : Edit) → Decidable (e.IsSparing g r)
  | .addRelation _ _ _ _ _ => inferInstanceAs (Decidable (r.warnings = []))
  | .setType _ _ => inferInstanceAs (Decidable (r.warnings = []))
  | .removeField model field => inferInstanceAs (Decidable (∀ old ∈ g.fieldAt? model field, _))
  | .updateField model field _ => inferInstanceAs (Decidable (∀ old ∈ g.fieldAt? model field, _))
  | .addModel _ _ | .addEnum _ _ _ | .rename _ _ | .delete _ | .addField _ _ | .setValues _ _
  | .removeRelation _ | .synthesize => .isTrue trivial

/-- An edit is refused in a session, or it is sparing there. -/
def Spares (s : Session) (e : Edit) : Prop :=
  ∀ answer ∈ (s.apply e).answer.toOption,
    e.IsSparing s.graph { answer, outcomes := (s.apply e).outcomes }

instance (s : Session) (e : Edit) : Decidable (e.Spares s) :=
  inferInstanceAs (Decidable (∀ answer ∈ (s.apply e).answer.toOption, _))

end Edit

instance Session.decidableAlong (kind : Session → Edit → Prop) [∀ s e, Decidable (kind s e)]
    (s : Session) : (edits : List Edit) → Decidable (s.Along kind edits)
  | [] => .isTrue trivial
  | e :: edits =>
    have := decidableAlong kind (s.apply e).session edits
    inferInstanceAs (Decidable (_ ∧ _))

namespace Graph

variable {g : Graph}

theorem fieldAt?_eq_some {model field : String} {m : Model} {old : Nat × Field}
    (hm : g.modelOrFail model = .ok m) (hold : fieldOrFail m field = .ok old) :
    g.fieldAt? model field = some old.2 := by
  rw [fieldAt?, EditError.orNotFound_eq_ok_iff.mp hm, Option.bind_some,
    EditError.orNotFound_eq_ok_iff.mp hold, Option.map_some]

theorem mem_set_ids {fields : List Field} {place : Nat} {old new f : Field}
    (hold : fields[place]? = some old) (hf : f ∈ fields) (hsame : f = old → new.id = old.id) :
    f.id ∈ (fields.set place new).map (·.id) := by
  obtain ⟨n, hn⟩ := List.mem_iff_getElem?.mp hf
  by_cases hplace : place = n
  · subst hplace
    obtain rfl := Option.some.inj (hold.symm.trans hn)
    have hnew : (fields.set place new)[place]? = some new := by
      rw [List.getElem?_set_self', hold]
      rfl
    exact List.mem_map.mpr ⟨new, List.mem_of_getElem? hnew, hsame rfl⟩
  · refine List.mem_map_of_mem (List.mem_of_getElem? (i := n) ?_)
    rw [List.getElem?_set_ne hplace]
    exact hn

theorem mem_eraseIdx_of_ne {fields : List Field} {place : Nat} {old f : Field}
    (hold : fields[place]? = some old) (hf : f ∈ fields) (hne : f ≠ old) :
    f ∈ fields.eraseIdx place := by
  obtain ⟨n, hn⟩ := List.mem_iff_getElem?.mp hf
  refine List.mem_eraseIdx_iff_getElem?.mpr ⟨n, ?_, hn⟩
  rintro rfl
  exact hne (Option.some.inj (hn.symm.trans hold))

end Graph

namespace Editing

/-- An accepted edit that is sparing leaves a graph that is synthesized. -/
def EndsSynthesized (e : Edit) (s : Session) : Prop :=
  Ends e.editing s (fun r t => e.IsSparing s.graph r → t.graph.IsSynthesized) fun _ => True

theorem synthesizeEdges_endsDone {edges : List RelationEdge} {s : Session} :
    Ends (synthesizeEdges edges) s
      (fun outcomes t => s.graph.synthesizeEdges edges = .ok (t.graph, outcomes))
      fun _ => True := by
  unfold synthesizeEdges
  refine .ask_bind trivial fun done hdone => .change_bind <| .pure ?_
  cases hrun : s.graph.synthesizeEdges edges with
  | error e =>
      rw [hrun] at hdone
      cases hdone
  | ok done' =>
      rw [hrun] at hdone
      obtain rfl := Except.ok.inj hdone
      rfl

section Edits

variable {s : Session} (h : s.graph.IsSynthesized) (horder : s.graph.InOrder)
include h horder

theorem addModel_endsSynthesized {name id : Option String}
    (hfresh : (Edit.addModel name id).IsFresh s) : EndsSynthesized (.addModel name id) s := by
  unfold EndsSynthesized Edit.editing addModel
  refine .ask_bind trivial fun _ hnew => .ask_bind trivial fun _ _ => .idFor_bind fun t ht => ?_
  refine .nextId_bind <| .change_bind <| .change_bind <| .pure fun _ => ?_
  simp only [Session.changing_graph, Session.taking_graph, ht]
  refine (h.insertNode horder.resolves ?_).attachRelations.relinkEnums
  exact hasNode_idFor hnew hfresh

theorem addEnum_endsSynthesized {name : Option String} {values : Option (List String)}
    {id : Option String} (hfresh : (Edit.addEnum name values id).IsFresh s) :
    EndsSynthesized (.addEnum name values id) s := by
  unfold EndsSynthesized Edit.editing addEnum
  refine .ask_bind trivial fun _ hnew => .ask_bind trivial fun _ _ => ?_
  refine .ask_bind trivial fun _ _ => .idFor_bind fun t ht => ?_
  refine .change_bind <| .change_bind <| .pure fun _ => ?_
  simp only [Session.changing_graph, ht]
  refine (h.insertNode horder.resolves ?_).relinkEnums
  exact hasNode_idFor hnew hfresh

theorem rename_endsSynthesized (id name : String) : EndsSynthesized (.rename id name) s := by
  unfold EndsSynthesized Edit.editing rename
  refine .ask_bind trivial fun n _ => .ask_bind trivial fun _ _ => ?_
  refine .change_bind <| .change_bind <| .change_bind <| .pure fun _ => ?_
  have hresolves : ∀ r ∈ s.graph.relations, (s.graph.renameNode id name).Resolves r := by
    intro r hr
    rw [Graph.Resolves, Graph.renameNode_modelIds]
    exact horder.resolves r hr
  exact ((h.renameNode horder.resolves id name).retypeFields hresolves n.name name).relinkEnums

theorem delete_endsSynthesized (id : String) : EndsSynthesized (.delete id) s := by
  unfold EndsSynthesized Edit.editing delete
  refine .ask_bind trivial fun _ _ => ?_
  refine .change_bind <| .change_bind <| .change_bind <| .pure fun _ => ?_
  exact (h.removeNode horder.resolves id).relinkEnums

theorem addField_endsSynthesized (model : String) (data : Entries) :
    EndsSynthesized (.addField model data) s := by
  unfold EndsSynthesized Edit.editing addField
  refine .ask_bind trivial fun m hm => .nextId_bind ?_
  refine .ask_bind trivial fun _ _ => .ask_bind trivial fun _ _ => .ask_bind trivial fun f _ => ?_
  refine .change_bind <| .change_bind <| .pure fun _ => ?_
  refine Graph.IsSynthesized.relinkEnums <| h.setFields horder.resolves horder.anchored.ids
    (EditError.orNotFound_eq_ok_iff.mp hm) fun a ha _ => ?_
  exact List.mem_map_of_mem (List.mem_append_left _ ha)

theorem updateField_endsSynthesized (model field : String) (changes : Entries) :
    EndsSynthesized (.updateField model field changes) s := by
  unfold EndsSynthesized Edit.editing updateField
  refine .ask_bind trivial fun _ _ => .ask_bind trivial fun _ _ => .ask_bind trivial fun m hm => ?_
  refine .ask_bind trivial fun old hold => .ask_bind trivial fun _ _ => ?_
  refine .ask_bind trivial fun f _ => .change_bind <| .change_bind <| .pure fun hspares => ?_
  refine Graph.IsSynthesized.relinkEnums <| h.setFields horder.resolves horder.anchored.ids
    (EditError.orNotFound_eq_ok_iff.mp hm) fun a ha hderived => ?_
  refine Graph.mem_set_ids (Graph.getElem?_of_fieldOrFail hold) ha ?_
  rintro rfl
  exact hspares old.2 (Graph.fieldAt?_eq_some hm hold) hderived f rfl

theorem removeField_endsSynthesized (model field : String) :
    EndsSynthesized (.removeField model field) s := by
  unfold EndsSynthesized Edit.editing removeField
  refine .ask_bind trivial fun m hm => .ask_bind trivial fun old hold => ?_
  refine .change_bind <| .change_bind <| .pure fun hspares => ?_
  refine Graph.IsSynthesized.relinkEnums <| h.setFields horder.resolves horder.anchored.ids
    (EditError.orNotFound_eq_ok_iff.mp hm) fun a ha hderived => ?_
  refine List.mem_map_of_mem (Graph.mem_eraseIdx_of_ne (Graph.getElem?_of_fieldOrFail hold) ha ?_)
  rintro rfl
  exact hspares old.2 (Graph.fieldAt?_eq_some hm hold) hderived

omit horder in
theorem setValues_endsSynthesized (id : String) (values : List String) :
    EndsSynthesized (.setValues id values) s := by
  unfold EndsSynthesized Edit.editing setValues
  refine .ask_bind trivial fun x hx => .ask_bind trivial fun _ _ => .change_bind <| .pure fun _ => ?_
  have hfound := EditError.orNotFound_eq_ok_iff.mp hx
  obtain rfl : x.id = id := (Graph.mem_nodes_of_node? (Graph.node?_of_enum? hfound)).2
  exact h.setValues values hfound

theorem addRelation_endsSynthesized (source target : Value) (type : Option Value)
    (id : Option String) (attributes : Entries) :
    EndsSynthesized (.addRelation source target type id attributes) s := by
  unfold EndsSynthesized Edit.editing addRelation
  refine .ask_bind trivial fun _ _ => .ask_bind trivial fun _ _ => .idFor_bind fun t ht => ?_
  refine .ask_bind trivial fun _ _ => .ask_bind trivial fun e _ => ?_
  refine .ask_bind trivial fun _ hedge => .change_bind ?_
  refine synthesizeEdges_endsDone.bind fun outcomes u hdone => .pure fun hquiet => ?_
  rw [Session.changing_graph, ht] at hdone
  rw [ht] at hedge
  refine (horder.anchored.insertRelation e).isSynthesized_of_quiet ?_ (fun r hr => ?_) hdone hquiet
  · rw [Graph.insertRelation_modelIds]
    exact Graph.checkEdge_eq_ok_iff.mp hedge
  · rw [Graph.insertRelation_models]
    rw [Graph.insertRelation_relations] at hr
    exact (Graph.mem_placeOrAppend hr).imp_right (h r)

omit horder in
theorem removeRelation_endsSynthesized (id : String) : EndsSynthesized (.removeRelation id) s := by
  unfold EndsSynthesized Edit.editing removeRelation
  refine .bind_of_run (EStateM.run_get s) (.change_bind ?_)
  cases s.graph.relation? id with
  | none => exact trivial
  | some r => exact .change_bind <| .pure fun _ => h.undraw id r

theorem setType_endsSynthesized (id type : String) : EndsSynthesized (.setType id type) s := by
  unfold EndsSynthesized Edit.editing setType
  refine .ask_bind trivial fun old hold => .ask_bind trivial fun _ hedge => ?_
  refine .change_bind <| .change_bind ?_
  refine synthesizeEdges_endsDone.bind fun outcomes u hdone => .pure fun hquiet => ?_
  obtain ⟨-, rfl⟩ := Graph.mem_relations_of_relation? (EditError.orNotFound_eq_ok_iff.mp hold)
  have hanchored : ((s.graph.insertRelation { old with type }).dropDerived old.id).Anchored :=
    (horder.anchored.insertRelation _).mapModels fun _ => rfl
  refine hanchored.isSynthesized_of_quiet ?_ (fun r hr => ?_) hdone hquiet
  · rw [Graph.dropDerived_modelIds, Graph.insertRelation_modelIds]
    exact Graph.checkEdge_eq_ok_iff.mp hedge
  · have hplaced : r ∈ (s.graph.insertRelation { old with type }).relations := hr
    rw [Graph.insertRelation_relations,
      Graph.mem_placeOrAppend_iff horder.linked.keyed.relations] at hplaced
    refine hplaced.imp_right fun ⟨hr, hother⟩ => Graph.dropDerived_present ?_ hother
    rw [Graph.insertRelation_models]
    exact h r hr

theorem synthesize_endsSynthesized : EndsSynthesized .synthesize s := by
  unfold EndsSynthesized Edit.editing synthesize
  refine .bind_of_run (EStateM.run_get s) ?_
  refine synthesizeEdges_endsDone.bind fun outcomes u hdone => .pure fun _ => ?_
  exact h.synthesizeEdges horder.anchored hdone

theorem editing_endsSynthesized {e : Edit} (hfresh : e.IsFresh s) : EndsSynthesized e s := by
  cases e with
  | addModel name id => exact addModel_endsSynthesized h horder hfresh
  | addEnum name values id => exact addEnum_endsSynthesized h horder hfresh
  | rename id name => exact rename_endsSynthesized h horder id name
  | delete id => exact delete_endsSynthesized h horder id
  | addField model field => exact addField_endsSynthesized h horder model field
  | updateField model field changes => exact updateField_endsSynthesized h horder model field changes
  | removeField model field => exact removeField_endsSynthesized h horder model field
  | setValues id values => exact setValues_endsSynthesized h id values
  | addRelation source target type id attributes =>
      exact addRelation_endsSynthesized h horder source target type id attributes
  | removeRelation id => exact removeRelation_endsSynthesized h id
  | setType id type => exact setType_endsSynthesized h horder id type
  | synthesize => exact synthesize_endsSynthesized h horder

end Edits

end Editing

/-! ### What a run keeps -/

/-- A graph that is in order and synthesized, with relations of supported types alone. -/
structure Graph.Stable (g : Graph) : Prop where
  order : g.InOrder
  types : ∀ r ∈ g.relations, r.relationType?.isSome = true
  synthesized : g.IsSynthesized

namespace Session

theorem LeadsTo.types {s : Session} {e : Edit} {g : Graph} (hled : s.LeadsTo e g)
    (h : ∀ r ∈ s.graph.relations, r.relationType?.isSome = true) :
    ∀ r ∈ g.relations, r.relationType?.isSome = true := by
  intro r' hr'
  cases hled with
  | model m _ =>
      rw [Graph.relinkEnums_relations, Graph.insertModel, Graph.attachRelations_relations] at hr'
      exact h r' hr'
  | enum x _ =>
      rw [Graph.relinkEnums_relations] at hr'
      exact h r' hr'
  | rework nodes _ =>
      rw [Graph.relinkEnums_relations] at hr'
      exact h r' hr'
  | removal id =>
      rw [Graph.relinkEnums_relations] at hr'
      exact h r' (List.mem_filter.mp hr').1
  | values x values _ => exact h r' hr'
  | relation r nodes _ hjoins _ =>
      rw [Graph.relinkEnums_relations, Graph.insertRelation_relations] at hr'
      obtain rfl | hr' := Graph.mem_placeOrAppend hr'
      · exact hjoins.1
      · exact h r' hr'
  | undrawn id r _ _ => exact h r' (List.mem_filter.mp hr').1

theorem apply_stable {s : Session} {e : Edit} (h : s.graph.Stable) (hfresh : e.IsFresh s)
    (hspares : e.Spares s) : (s.apply e).session.graph.Stable := by
  refine ⟨apply_inOrder h.order hfresh, ?_, ?_⟩
  · obtain hsame | hled := s.apply_cases e
    · rw [hsame]
      exact h.types
    · exact hled.types h.types
  · obtain ⟨r, t, happly, hsynthesized⟩ | ⟨error, t, happly, -⟩ :=
      apply_eq_of_ends (Editing.editing_endsSynthesized h.synthesized h.order hfresh)
    · rw [Edit.Spares, happly] at hspares
      rw [happly]
      exact hsynthesized (hspares r.answer rfl)
    · have herror : (s.apply e).answer = .error error := by rw [happly]
      rw [graph_of_apply_error herror]
      exact h.synthesized

theorem run_stable {s : Session} {edits : List Edit} (h : s.graph.Stable)
    (hfresh : s.IsFreshAlong edits) (hspares : s.Along (fun t e => e.Spares t) edits) :
    (s.run edits).graph.Stable := by
  induction edits generalizing s with
  | nil => exact h
  | cons e edits ih => exact ih (apply_stable h hfresh.1 hspares.1) hfresh.2 hspares.2

theorem Along.of_append {kind : Session → Edit → Prop} {s : Session} {before after : List Edit}
    (h : s.Along kind (before ++ after)) : s.Along kind before := by
  induction before generalizing s with
  | nil => exact trivial
  | cons e before ih => exact ⟨h.1, ih h.2⟩

theorem apply_synthesize_of_stable {s : Session} (h : s.graph.Stable) :
    (s.apply .synthesize).answer = .ok .done ∧
      (s.apply .synthesize).outcomes.filterMap Outcome.warning? = [] ∧
      (s.apply .synthesize).session.graph.toDocument = s.graph.toDocument := by
  have hjoins : ∀ r ∈ s.graph.relations, r.Joins s.graph.modelIds :=
    fun r hr => ⟨h.types r hr, h.order.resolves r hr⟩
  obtain ⟨done, hdone, hquiet, hdocument⟩ :=
    h.synthesized.synthesizeEdges_eq_ok h.order.anchored hjoins
  rw [apply_synthesize, hdone]
  exact ⟨rfl, hquiet, hdocument.trans h.order.toDocument_linked⟩

/-- A run from an empty graph in which no relation is drawn or given a type with a warning, no field
that goes by a derived id is removed, and none is given another id. At each point of it, whatever
was renamed, given a type, added or deleted before, synthesis succeeds, warns of nothing and leaves
the document as it is. -/
theorem run_synthesize_idle {s : Session} {edits : List Edit}
    (hempty : ∃ generator datasource, s.graph = { generator, datasource })
    (hfresh : s.IsFreshAlong edits) (hspares : s.Along (fun t e => e.Spares t) edits)
    {before : List Edit} (hpoint : before <+: edits) :
    ((s.run before).apply .synthesize).answer = .ok .done ∧
      ((s.run before).apply .synthesize).outcomes.filterMap Outcome.warning? = [] ∧
      ((s.run before).apply .synthesize).session.graph.toDocument =
        (s.run before).graph.toDocument := by
  obtain ⟨after, rfl⟩ := hpoint
  obtain ⟨generator, datasource, hgraph⟩ := hempty
  have hstart : s.graph.Stable := by
    rw [hgraph]
    refine ⟨⟨⟨List.nodup_nil, by simp⟩, ⟨⟨List.nodup_nil, List.nodup_nil, List.nodup_nil⟩,
      by simp⟩, by simp, rfl⟩, by simp, ?_⟩
    exact fun _ hr => absurd hr List.not_mem_nil
  have hfreshBefore := isFreshAlong_iff.mpr (isFreshAlong_iff.mp hfresh).of_append
  exact apply_synthesize_of_stable (run_stable hstart hfreshBefore hspares.of_append)

/-- A relation of users and posts, under a new name of its target, with a new type, with another name
of one of its fields, and drawn again under its id. -/
def journal : List Edit :=
  [.addModel (some "User") (some "u"), .addModel (some "Post") (some "p"),
    .addRelation (.text "u") (.text "p") none (some "e") [], .rename "p" "Entry",
    .setType "e" "ONE_TO_ONE",
    .updateField "u" "rel-e-source" [(.text "name", .text "draft")],
    .removeField "p" "field-000000000002", .removeRelation "e",
    .addRelation (.text "u") (.text "p") none (some "e") []]

theorem run_synthesize_idle_journal :
    ({} : Session).IsFreshAlong journal ∧
      ({} : Session).Along (fun t e => e.Spares t) journal ∧
      ((({} : Session).run journal).graph.models.map fun m => (m.name, m.fields.map (·.name))) =
        [("User", ["id", "draft", "entry_id"]), ("Entry", ["user", "user_id"])] ∧
      ((({} : Session).run journal).apply .synthesize).session.graph.toDocument =
        (({} : Session).run journal).graph.toDocument := by
  have hfresh : ({} : Session).IsFreshAlong journal :=
    ⟨fun _ => rfl, fun _ => rfl, trivial, trivial, trivial, trivial, trivial, trivial, trivial,
      trivial⟩
  have hspares : ({} : Session).Along (fun t e => e.Spares t) journal := by decide +kernel
  obtain ⟨-, -, hsame⟩ := run_synthesize_idle ⟨{}, {}, rfl⟩ hfresh hspares
    (List.prefix_refl journal)
  exact ⟨hfresh, hspares, by decide +kernel, hsame⟩

end Session

end DrawnSchema
