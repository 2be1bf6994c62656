import DrawnSchema.Proofs.Editing.Invariant
import DrawnSchema.Proofs.Graph.Synthesis

/-!
# What an accepted edit leads to

There are seven ways in which an edit can change a graph, told here once with the guards that were
passed. A refused edit changes nothing, so what all of the seven keep is kept by every run.
-/

namespace DrawnSchema

/-- What connections know of a node. -/
def Node.identity (n : Node) : NodeKind × String := (n.kind, n.id)

/-- The id that a session would generate for a new relation is not in use. -/
def Edit.DrawsFresh (s : Session) : Edit → Prop
  | .addRelation _ _ _ id _ =>
    Session.givesId id = false → s.graph.relation? (s.nextId "edge") = none
  | _ => True

namespace Graph

variable {g g' : Graph}

theorem ids_of_identities {nodes nodes' : List Node}
    (h : nodes'.map Node.identity = nodes.map Node.identity) :
    nodes'.map Node.id = nodes.map Node.id := by
  simpa [Function.comp_def, Node.identity] using congrArg (List.map Prod.snd) h

theorem modelIds_of_identities (h : g'.nodes.map Node.identity = g.nodes.map Node.identity) :
    g'.modelIds = g.modelIds := by
  have hids (l : List Node) : (l.filterMap Node.model?).map (·.id) =
      (l.map Node.identity).filterMap fun i => if i.1 = .model then some i.2 else none := by
    rw [List.filterMap_map, List.map_filterMap]
    refine List.filterMap_congr fun n _ => ?_
    cases n <;> rfl
  simp only [modelIds, models, hids, h]

theorem mapModels_identities {f : Model → Model} (hid : ∀ m, (f m).id = m.id) (g : Graph) :
    (g.mapModels f).nodes.map Node.identity = g.nodes.map Node.identity :=
  mapModels_nodes_map f Node.identity fun m => congrArg (NodeKind.model, ·) (hid m)

theorem renameNode_identities (id name : String) (g : Graph) :
    (g.renameNode id name).nodes.map Node.identity = g.nodes.map Node.identity := by
  simp only [renameNode, List.map_map]
  refine List.map_congr_left fun n _ => ?_
  by_cases hn : n.id = id
  · rw [Function.comp_apply, if_pos hn]
    cases n <;> rfl
  · rw [Function.comp_apply, if_neg hn]

theorem setFields_identities (id : String) (fields : List Field) (g : Graph) :
    (g.setFields id fields).nodes.map Node.identity = g.nodes.map Node.identity := by
  refine mapModels_identities (fun m => ?_) g
  split <;> rfl

theorem dropDerived_identities (edge : String) (g : Graph) :
    (g.dropDerived edge).nodes.map Node.identity = g.nodes.map Node.identity := by
  refine mapModels_identities (fun m => ?_) g
  rfl

theorem setAllFields_identities (models : List Model) (g : Graph) :
    (g.setAllFields models).nodes.map Node.identity = g.nodes.map Node.identity := by
  rw [setAllFields_eq]
  exact mapModels_identities (Model.foldl_receive_id models) g

theorem setAllFields_eq_nodes (models : List Model) (g : Graph) :
    g.setAllFields models = { g with nodes := (g.setAllFields models).nodes } := by
  rw [setAllFields_eq]
  rfl

theorem insertNode_values_identities {x : Enumeration} (values : List String)
    (hfound : g.enum? x.id = some x) :
    (g.insertNode (.enum { x with values })).nodes.map Node.identity =
      g.nodes.map Node.identity := by
  obtain ⟨before, after, hnodes, hplaced⟩ := insertNode_values values hfound
  rw [hplaced, hnodes, List.map_append, List.map_append]
  rfl

theorem synthesizeEdges_eq_ok {edges : List RelationEdge} {done : Graph × List Outcome}
    (h : g.synthesizeEdges edges = .ok done) :
    ∃ models, done.1 = (g.setAllFields models).relinkEnums := by
  unfold synthesizeEdges at h
  split at h
  · cases h
  · obtain rfl := Except.ok.inj h
    exact ⟨_, rfl⟩

theorem mem_relations_of_relation? {id : String} {e : RelationEdge} (h : g.relation? id = some e) :
    e ∈ g.relations ∧ e.id = id :=
  ⟨List.mem_of_find?_eq_some h, by simpa using List.find?_some h⟩

theorem relation?_eq_none_iff {id : String} :
    g.relation? id = none ↔ ∀ e ∈ g.relations, e.id ≠ id := by
  simp [relation?]

end Graph

namespace Session

/-- The graph that an accepted edit can lead to. Where a node or a relation is new, its id is not in
use as long as generated ids are fresh. -/
inductive LeadsTo (s : Session) (e : Edit) : Graph → Prop
  | model (m : Model) (hnew : e.IsFresh s → s.graph.hasNode m.id = false) :
      LeadsTo s e (s.graph.insertModel m).relinkEnums
  | enum (x : Enumeration) (hnew : e.IsFresh s → s.graph.hasNode x.id = false) :
      LeadsTo s e (s.graph.insertEnum x).relinkEnums
  | rework (nodes : List Node)
      (hsame : nodes.map Node.identity = s.graph.nodes.map Node.identity) :
      LeadsTo s e { s.graph with nodes }.relinkEnums
  | removal (id : String) :
      LeadsTo s e ((s.graph.removeNode id).removeRelationsOf id).relinkEnums
  | values (x : Enumeration) (values : List String) (hfound : s.graph.enum? x.id = some x) :
      LeadsTo s e (s.graph.insertNode (.enum { x with values }))
  | relation (r : RelationEdge) (nodes : List Node)
      (hsame : nodes.map Node.identity = s.graph.nodes.map Node.identity)
      (hjoins : r.Joins s.graph.modelIds)
      (hplace : (∃ old, s.graph.relation? r.id = some old ∧
          old.source = r.source ∧ old.target = r.target) ∨
        (e.DrawsFresh s → s.graph.relation? r.id = none)) :
      LeadsTo s e { s.graph.insertRelation r with nodes }.relinkEnums
  | undrawn (id : String) (r : RelationEdge) (hedit : e = .removeRelation id)
      (hfound : s.graph.relation? id = some r) :
      LeadsTo s e ((s.graph.popRelation id).detach r)

end Session

namespace Editing

open Session (LeadsTo)

variable {s : Session}

/-- An accepted edit has led to one of the graphs that it can lead to. -/
def EndsLed (e : Edit) (s : Session) : Prop :=
  Ends e.editing s (fun _ t => s.LeadsTo e t.graph) fun _ => True

theorem addModel_endsLed (name id : Option String) : EndsLed (.addModel name id) s := by
  unfold EndsLed Edit.editing addModel
  refine .ask_bind trivial fun _ hnew => .ask_bind trivial fun _ _ => .idFor_bind fun t ht => ?_
  refine .nextId_bind <| .change_bind <| .change_bind <| .pure ?_
  simp only [Session.changing_graph, Session.taking_graph, ht]
  exact .model _ fun hfresh => hasNode_idFor hnew hfresh

theorem addEnum_endsLed (name : Option String) (values : Option (List String))
    (id : Option String) : EndsLed (.addEnum name values id) s := by
  unfold EndsLed Edit.editing addEnum
  refine .ask_bind trivial fun _ hnew => .ask_bind trivial fun _ _ => ?_
  refine .ask_bind trivial fun _ _ => .idFor_bind fun t ht => ?_
  refine .change_bind <| .change_bind <| .pure ?_
  simp only [Session.changing_graph, ht]
  exact .enum _ fun hfresh => hasNode_idFor hnew hfresh

theorem rename_endsLed (id name : String) : EndsLed (.rename id name) s := by
  unfold EndsLed Edit.editing rename
  refine .ask_bind trivial fun n _ => .ask_bind trivial fun _ _ => ?_
  refine .change_bind <| .change_bind <| .change_bind <| .pure ?_
  have hretyped : ∀ m, (Graph.retypeFields n.name name m).id = m.id := fun _ => rfl
  refine .rework ((s.graph.renameNode id name).mapModels (Graph.retypeFields n.name name)).nodes ?_
  exact (Graph.mapModels_identities hretyped _).trans (Graph.renameNode_identities id name _)

theorem delete_endsLed (id : String) : EndsLed (.delete id) s := by
  unfold EndsLed Edit.editing delete
  refine .ask_bind trivial fun _ _ => ?_
  exact .change_bind <| .change_bind <| .change_bind <| .pure <| .removal id

theorem addField_endsLed (model : String) (data : Entries) : EndsLed (.addField model data) s := by
  unfold EndsLed Edit.editing addField
  refine .ask_bind trivial fun _ _ => .nextId_bind ?_
  refine .ask_bind trivial fun _ _ => .ask_bind trivial fun _ _ => .ask_bind trivial fun _ _ => ?_
  exact .change_bind <| .change_bind <| .pure <| .rework _ (Graph.setFields_identities model _ _)

theorem updateField_endsLed (model field : String) (changes : Entries) :
    EndsLed (.updateField model field changes) s := by
  unfold EndsLed Edit.editing updateField
  refine .ask_bind trivial fun _ _ => .ask_bind trivial fun _ _ => .ask_bind trivial fun _ _ => ?_
  refine .ask_bind trivial fun _ _ => .ask_bind trivial fun _ _ => .ask_bind trivial fun _ _ => ?_
  exact .change_bind <| .change_bind <| .pure <| .rework _ (Graph.setFields_identities model _ _)

theorem removeField_endsLed (model field : String) : EndsLed (.removeField model field) s := by
  unfold EndsLed Edit.editing removeField
  refine .ask_bind trivial fun _ _ => .ask_bind trivial fun _ _ => ?_
  exact .change_bind <| .change_bind <| .pure <| .rework _ (Graph.setFields_identities model _ _)

theorem setValues_endsLed (id : String) (values : List String) :
    EndsLed (.setValues id values) s := by
  unfold EndsLed Edit.editing setValues
  refine .ask_bind trivial fun x hx => .ask_bind trivial fun _ _ => .change_bind <| .pure ?_
  have hfound := EditError.orNotFound_eq_ok_iff.mp hx
  obtain rfl : x.id = id := (Graph.mem_nodes_of_node? (Graph.node?_of_enum? hfound)).2
  exact .values x values hfound

/-- Synthesis changes fields of models and has the enum edges derived anew. -/
theorem synthesizeEdges_ends {edges : List RelationEdge} {t : Session} :
    Ends (synthesizeEdges edges) t
      (fun _ u => ∃ nodes : List Node,
        nodes.map Node.identity = t.graph.nodes.map Node.identity ∧
          u.graph = { t.graph with nodes }.relinkEnums) fun _ => True := by
  unfold synthesizeEdges
  refine .ask_bind trivial fun done hdone => .change_bind <| .pure ?_
  cases hrun : t.graph.synthesizeEdges edges with
  | error e =>
      rw [hrun] at hdone
      cases hdone
  | ok done' =>
      rw [hrun] at hdone
      obtain rfl := Except.ok.inj hdone
      obtain ⟨models, hmodels⟩ := Graph.synthesizeEdges_eq_ok hrun
      refine ⟨_, Graph.setAllFields_identities models t.graph, ?_⟩
      rw [← Graph.setAllFields_eq_nodes]
      exact hmodels

/-- An id for a new relation is not in use: one that is given was checked, and one that is generated
is fresh. -/
theorem relation?_idFor {given : Option String} (hcheck : s.graph.checkNewRelation given = .ok ())
    (hfresh : Session.givesId given = false → s.graph.relation? (s.nextId "edge") = none) :
    s.graph.relation? (s.idFor "edge" given) = none := by
  unfold Session.idFor
  by_cases hgiven : Session.givesId given = true
  · rw [if_pos hgiven]
    cases given with
    | none => cases hgiven
    | some id => simpa [Graph.checkNewRelation] using hcheck
  · rw [if_neg hgiven]
    exact hfresh (by simpa using hgiven)

theorem addRelation_endsLed (source target : Value) (type : Option Value) (id : Option String)
    (attributes : Entries) : EndsLed (.addRelation source target type id attributes) s := by
  unfold EndsLed Edit.editing addRelation
  refine .ask_bind trivial fun _ _ => .ask_bind trivial fun _ hnew => .idFor_bind fun t ht => ?_
  refine .ask_bind trivial fun _ _ => .ask_bind trivial fun r hread => ?_
  refine .ask_bind trivial fun _ hedge => .change_bind ?_
  refine synthesizeEdges_ends.bind fun _ u hdone => .pure ?_
  obtain ⟨nodes, hsame, hgraph⟩ := hdone
  rw [Session.changing_graph, ht] at hsame hgraph
  rw [ht] at hedge
  rw [hgraph]
  have hid : r.id = s.idFor "edge" id :=
    RelationEdge.id_of_readEntries (Reading.orRefuse_eq_ok_iff.mp hread)
  refine .relation r nodes (by simpa using hsame) (Graph.checkEdge_eq_ok_iff.mp hedge) (.inr ?_)
  rw [hid]
  exact relation?_idFor hnew

theorem removeRelation_endsLed (id : String) : EndsLed (.removeRelation id) s := by
  unfold EndsLed Edit.editing removeRelation
  refine .bind_of_run (EStateM.run_get s) (.change_bind ?_)
  cases hfound : s.graph.relation? id with
  | none => exact trivial
  | some r => exact .change_bind <| .pure <| .undrawn id r rfl hfound

theorem setType_endsLed (id type : String) : EndsLed (.setType id type) s := by
  unfold EndsLed Edit.editing setType
  refine .ask_bind trivial fun old hold => .ask_bind trivial fun _ hedge => ?_
  refine .change_bind <| .change_bind ?_
  refine synthesizeEdges_ends.bind fun _ u hdone => .pure ?_
  obtain ⟨nodes, hsame, hgraph⟩ := hdone
  rw [hgraph]
  have hfound := EditError.orNotFound_eq_ok_iff.mp hold
  have hid : old.id = id := (Graph.mem_relations_of_relation? hfound).2
  refine .relation { old with type } nodes ?_ (Graph.checkEdge_eq_ok_iff.mp hedge) (.inl ?_)
  · simpa [Graph.dropDerived_identities] using hsame
  · exact ⟨old, hid ▸ hfound, rfl, rfl⟩

theorem synthesize_endsLed : EndsLed .synthesize s := by
  unfold EndsLed Edit.editing synthesize
  refine .bind_of_run (EStateM.run_get s) (synthesizeEdges_ends.bind fun _ u hdone => .pure ?_)
  obtain ⟨nodes, hsame, hgraph⟩ := hdone
  rw [hgraph]
  exact .rework nodes hsame

theorem editing_endsLed (e : Edit) (s : Session) : EndsLed e s := by
  cases e with
  | addModel name id => exact addModel_endsLed name id
  | addEnum name values id => exact addEnum_endsLed name values id
  | rename id name => exact rename_endsLed id name
  | delete id => exact delete_endsLed id
  | addField model field => exact addField_endsLed model field
  | updateField model field changes => exact updateField_endsLed model field changes
  | removeField model field => exact removeField_endsLed model field
  | setValues id values => exact setValues_endsLed id values
  | addRelation source target type id attributes =>
      exact addRelation_endsLed source target type id attributes
  | removeRelation id => exact removeRelation_endsLed id
  | setType id type => exact setType_endsLed id type
  | synthesize => exact synthesize_endsLed

end Editing

namespace Session

/-- An edit is refused and leaves the graph as it is, or it leads to one of the graphs that it can
lead to. -/
theorem apply_cases (s : Session) (e : Edit) :
    (s.apply e).session.graph = s.graph ∨ s.LeadsTo e (s.apply e).session.graph :=
  (unchanged_or_of_ends (Editing.editing_endsLed e s)).imp_right fun ⟨_, hled⟩ => hled

/-- A session begins with a graph that has nothing in it, or with the graph of a document. -/
def Begins (s : Session) : Prop :=
  (∃ generator datasource, s.graph = { generator, datasource }) ∨ ∃ d, s.graph = Graph.ofDocument d

/-- A graph that has nothing in it is the graph of such a document. -/
theorem Begins.eq_ofDocument {s : Session} (h : s.Begins) : ∃ d, s.graph = Graph.ofDocument d := by
  obtain ⟨generator, datasource, hgraph⟩ | hdocument := h
  · exact ⟨{ generator, datasource }, hgraph⟩
  · exact hdocument

/-- Each of some edits is of a kind, in the session that it is made in. -/
def Along (kind : Session → Edit → Prop) : Session → List Edit → Prop
  | _, [] => True
  | s, e :: edits => kind s e ∧ (s.apply e).session.Along kind edits

theorem isFreshAlong_iff {s : Session} {edits : List Edit} :
    s.IsFreshAlong edits ↔ s.Along (fun t e => e.IsFresh t) edits := by
  induction edits generalizing s with
  | nil => exact Iff.rfl
  | cons e edits ih => exact and_congr_right fun _ => ih

theorem along_of_forall {kind : Session → Edit → Prop} (h : ∀ s e, kind s e) (s : Session)
    (edits : List Edit) : s.Along kind edits := by
  induction edits generalizing s with
  | nil => exact trivial
  | cons e edits ih => exact ⟨h s e, ih _⟩

/-- What every accepted edit of a kind keeps is kept along a run of them. -/
theorem run_keeps (kept : Graph → Prop) (kind : Session → Edit → Prop)
    (hstep : ∀ (s : Session) (e : Edit) (g : Graph),
      kept s.graph → kind s e → s.LeadsTo e g → kept g)
    {s : Session} {edits : List Edit} (h : kept s.graph) (hkind : s.Along kind edits) :
    kept (s.run edits).graph := by
  induction edits generalizing s with
  | nil => exact h
  | cons e edits ih =>
      refine ih (s := (s.apply e).session) ?_ hkind.2
      obtain hsame | hled := s.apply_cases e
      · rw [hsame]
        exact h
      · exact hstep s e _ h hkind.1 hled

end Session

end DrawnSchema
