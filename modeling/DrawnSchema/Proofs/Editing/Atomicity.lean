import DrawnSchema.Proofs.Editing.Outcome
import DrawnSchema.Proofs.Graph.Frame

/-!
# A refused edit changes nothing

Nothing undoes a change that came before a refusal. What makes an edit all or nothing is the order:
the questions that can be answered by a refusal come first, and what comes after the first change is
sure to be accepted.
-/

namespace DrawnSchema

namespace Editing

def RefusesUnchanged {α : Type} (p : Editing α) (s : Session) : Prop :=
  Ends p s (fun _ _ => True) (·.graph = s.graph)

variable (s : Session)

theorem addModel_refusesUnchanged (name id : Option String) :
    RefusesUnchanged (addModel name id) s := by
  unfold addModel
  refine .ask_bind rfl fun _ _ => .ask_bind rfl fun _ _ => .idFor_bind fun _ _ => .nextId_bind ?_
  exact .change_bind <| .change_bind <| .pure trivial

theorem addEnum_refusesUnchanged (name : Option String) (values : Option (List String))
    (id : Option String) : RefusesUnchanged (addEnum name values id) s := by
  unfold addEnum
  refine .ask_bind rfl fun _ _ => .ask_bind rfl fun _ _ => .ask_bind rfl fun _ _ => ?_
  exact .idFor_bind fun _ _ => .change_bind <| .change_bind <| .pure trivial

theorem rename_refusesUnchanged (id name : String) : RefusesUnchanged (rename id name) s := by
  unfold rename
  refine .ask_bind rfl fun _ _ => .ask_bind rfl fun _ _ => ?_
  exact .change_bind <| .change_bind <| .change_bind <| .pure trivial

theorem delete_refusesUnchanged (id : String) : RefusesUnchanged (delete id) s := by
  unfold delete
  refine .ask_bind rfl fun _ _ => ?_
  exact .change_bind <| .change_bind <| .change_bind <| .pure trivial

theorem addField_refusesUnchanged (model : String) (data : Entries) :
    RefusesUnchanged (addField model data) s := by
  unfold addField
  refine .ask_bind rfl fun _ _ => .nextId_bind ?_
  refine .ask_bind rfl fun _ _ => .ask_bind rfl fun _ _ => .ask_bind rfl fun _ _ => ?_
  exact .change_bind <| .change_bind <| .pure trivial

theorem updateField_refusesUnchanged (model field : String) (changes : Entries) :
    RefusesUnchanged (updateField model field changes) s := by
  unfold updateField
  refine .ask_bind rfl fun _ _ => .ask_bind rfl fun _ _ => .ask_bind rfl fun _ _ => ?_
  refine .ask_bind rfl fun _ _ => .ask_bind rfl fun _ _ => .ask_bind rfl fun _ _ => ?_
  exact .change_bind <| .change_bind <| .pure trivial

theorem removeField_refusesUnchanged (model field : String) :
    RefusesUnchanged (removeField model field) s := by
  unfold removeField
  refine .ask_bind rfl fun _ _ => .ask_bind rfl fun _ _ => ?_
  exact .change_bind <| .change_bind <| .pure trivial

theorem setValues_refusesUnchanged (id : String) (values : List String) :
    RefusesUnchanged (setValues id values) s := by
  unfold setValues
  refine .ask_bind rfl fun _ _ => .ask_bind rfl fun _ _ => ?_
  exact .change_bind <| .pure trivial

theorem fault?_eq_none_of_checkEdge {g : Graph} {e : RelationEdge} (h : g.checkEdge e = .ok ()) :
    e.fault? g.modelIds = none := by
  simpa [Graph.checkEdge] using h

theorem synthesizeEdges_accepted {edges : List RelationEdge} {s : Session}
    {refused : Session → Prop} (hchecked : ∀ e ∈ edges, e.fault? s.graph.modelIds = none) :
    Ends (synthesizeEdges edges) s (fun _ _ => True) refused := by
  have hfault : firstEdgeFault? edges s.graph.models = none :=
    List.findSome?_eq_none_iff.mpr hchecked
  obtain ⟨done, hdone⟩ : ∃ done,
      (s.graph.synthesizeEdges edges).mapError EditError.compile = .ok done := by
    simp [Graph.synthesizeEdges, synthesizeFields, hfault, Except.mapError]
  exact .ask_bind_of_eq hdone <| .change_bind <| .pure trivial

theorem addRelation_refusesUnchanged (source target : Value) (type : Option Value)
    (id : Option String) (attributes : Entries) :
    RefusesUnchanged (addRelation source target type id attributes) s := by
  unfold addRelation
  refine .ask_bind rfl fun _ _ => .ask_bind rfl fun _ _ => .idFor_bind fun t ht => ?_
  refine .ask_bind ht fun _ _ => .ask_bind ht fun e _ => .ask_bind ht fun _ hedge => ?_
  -- The edge is in the graph before its fields are synthesized, but drawing it adds no model.
  refine .change_bind ?_
  refine .bind (synthesizeEdges_accepted fun e' he' => ?_) fun _ _ _ => .pure trivial
  obtain rfl := List.mem_singleton.mp he'
  simpa [Graph.modelIds, Graph.models] using fault?_eq_none_of_checkEdge hedge

theorem popRelation_eq_self {g : Graph} {id : String} (h : g.relation? id = none) :
    g.popRelation id = g := by
  have hne : ∀ r ∈ g.relations, r.id ≠ id := by simpa [Graph.relation?] using h
  have hfilter : g.relations.filter (fun r => r.id ≠ id) = g.relations :=
    List.filter_eq_self.mpr fun r hr => decide_eq_true (hne r hr)
  simp only [Graph.popRelation, hfilter]

theorem removeRelation_refusesUnchanged (id : String) :
    RefusesUnchanged (removeRelation id) s := by
  unfold removeRelation
  refine .bind_of_run (EStateM.run_get s) (.change_bind ?_)
  cases hfound : s.graph.relation? id with
  | none => exact popRelation_eq_self hfound
  | some e => exact .change_bind <| .pure trivial

theorem setType_refusesUnchanged (id type : String) : RefusesUnchanged (setType id type) s := by
  unfold setType
  refine .ask_bind rfl fun old _ => .ask_bind rfl fun _ hedge => .change_bind <| .change_bind ?_
  -- The fields of the old type are gone when the new ones are synthesized, and no model is.
  refine .bind (synthesizeEdges_accepted fun e' he' => ?_) fun _ _ _ => .pure trivial
  obtain rfl := List.mem_singleton.mp he'
  have hids : (s.graph.insertRelation { old with type }).modelIds = s.graph.modelIds := by
    simp [Graph.modelIds, Graph.models]
  simpa [hids] using fault?_eq_none_of_checkEdge hedge

theorem synthesize_refusesUnchanged : RefusesUnchanged synthesize s := by
  unfold synthesize synthesizeEdges
  refine .bind_of_run (EStateM.run_get s) ?_
  simp only [bind_assoc, pure_bind]
  exact .ask_bind rfl fun _ _ => .change_bind <| .pure trivial

theorem editing_refusesUnchanged (e : Edit) : RefusesUnchanged e.editing s := by
  cases e with
  | addModel name id => exact addModel_refusesUnchanged s name id
  | addEnum name values id => exact addEnum_refusesUnchanged s name values id
  | rename id name => exact rename_refusesUnchanged s id name
  | delete id => exact delete_refusesUnchanged s id
  | addField model field => exact addField_refusesUnchanged s model field
  | updateField model field changes => exact updateField_refusesUnchanged s model field changes
  | removeField model field => exact removeField_refusesUnchanged s model field
  | setValues id values => exact setValues_refusesUnchanged s id values
  | addRelation source target type id attributes =>
      exact addRelation_refusesUnchanged s source target type id attributes
  | removeRelation id => exact removeRelation_refusesUnchanged s id
  | setType id type => exact setType_refusesUnchanged s id type
  | synthesize => exact synthesize_refusesUnchanged s

end Editing

namespace Session

theorem graph_of_apply_error {s : Session} {e : Edit} {error : EditError}
    (hrefused : (s.apply e).answer = .error error) : (s.apply e).session.graph = s.graph := by
  obtain ⟨r, haccepted, -⟩ | ⟨-, hgraph⟩ := apply_of_ends (Editing.editing_refusesUnchanged s e)
  · rw [hrefused] at haccepted
    cases haccepted
  · exact hgraph

/-- An edit leaves the graph as it is, or ends as it can when it is accepted. -/
theorem unchanged_or_of_ends {s : Session} {e : Edit} {accepted : Edited → Session → Prop}
    {refused : Session → Prop} (h : Editing.Ends e.editing s accepted refused) :
    (s.apply e).session.graph = s.graph ∨ ∃ r, accepted r (s.apply e).session := by
  obtain ⟨r, -, haccepted⟩ | ⟨⟨error, herror⟩, -⟩ := apply_of_ends h
  · exact Or.inr ⟨r, haccepted⟩
  · exact Or.inl (graph_of_apply_error herror)

/-- An edit that is refused, whatever it is given and however far it has come, leaves what the graph
shows as it was: the document, and the relations of every node. -/
theorem apply_error_graph (s : Session) (e : Edit) (error : EditError)
    (hrefused : (s.apply e).answer = .error error) :
    (s.apply e).session.graph.toDocument = s.graph.toDocument ∧
      ∀ id, (s.apply e).session.graph.relationsOf id = s.graph.relationsOf id := by
  have hgraph := graph_of_apply_error hrefused
  simp only [hgraph, implies_true, and_self]

/-- A user that is related to itself. -/
def selfRelated : Session :=
  { graph := ({ nodes := [.model { id := "u", name := "User" }] } : Graph).insertRelation
      { id := "e", source := "u", target := "u" } }

/-- A type that is not supported is refused, and the relation is still shown at both ends. -/
theorem apply_error_graph_selfRelated :
    (selfRelated.apply (.setType "e" "MANY")).answer =
        .error (.compile (.unsupportedRelationType "e" "MANY")) ∧
      (selfRelated.apply (.setType "e" "MANY")).session.graph.toDocument =
        selfRelated.graph.toDocument ∧
      (selfRelated.apply (.setType "e" "MANY")).session.graph.relationsOf "u" =
        [⟨"e", "ONE_TO_MANY", "User", .outgoing⟩, ⟨"e", "ONE_TO_MANY", "User", .incoming⟩] := by
  have hrefused : (selfRelated.apply (.setType "e" "MANY")).answer =
      .error (.compile (.unsupportedRelationType "e" "MANY")) := rfl
  obtain ⟨hdocument, hrelations⟩ := apply_error_graph _ _ _ hrefused
  exact ⟨hrefused, hdocument, (hrelations "u").trans rfl⟩

end Session

end DrawnSchema
