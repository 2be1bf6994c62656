import DrawnSchema.Proofs.Editing.Stability

/-!
# Names stay distinct

A name is checked or made up where a node is put in, and checked where one is renamed. No other edit
brings a name, so names tell the nodes of a graph apart as long as ids do, whatever is done to it.
-/

namespace DrawnSchema

namespace Graph

variable (g : Graph)

theorem setFields_names (id : String) (fields : List Field) :
    (g.setFields id fields).nodes.map Node.name = g.nodes.map Node.name := by
  refine mapModels_nodes_map _ Node.name fun m => ?_
  by_cases hm : m.id = id <;> simp [hm, Node.name]

theorem setAllFields_names (models : List Model) :
    (g.setAllFields models).nodes.map Node.name = g.nodes.map Node.name := by
  unfold setAllFields
  induction models generalizing g with
  | nil => rfl
  | cons m models ih =>
      exact (ih (g.setFields m.id m.fields)).trans (g.setFields_names m.id m.fields)

theorem dropDerived_names (edge : String) :
    (g.dropDerived edge).nodes.map Node.name = g.nodes.map Node.name :=
  mapModels_nodes_map _ Node.name fun _ => rfl

variable {g}

theorem synthesizeEdges_names {edges : List RelationEdge} {done : Graph × List Outcome}
    (hdone : g.synthesizeEdges edges = .ok done) :
    done.1.nodes.map Node.name = g.nodes.map Node.name := by
  obtain ⟨models, hmodels⟩ := synthesizeEdges_eq_ok hdone
  rw [hmodels, relinkEnums_nodes, setAllFields_names]

theorem insertNode_values_names {x : Enumeration} (values : List String)
    (hfound : g.enum? x.id = some x) :
    (g.insertNode (.enum { x with values })).nodes.map Node.name = g.nodes.map Node.name := by
  obtain ⟨before, after, hnodes, hplaced⟩ := insertNode_values values hfound
  rw [hplaced, hnodes, List.map_append, List.map_append]
  rfl

theorem insertNode_names_nodup {n : Node} (h : (g.nodes.map Node.name).Nodup)
    (hnew : g.hasNode n.id = false) (hname : n.name ∉ g.nodes.map Node.name) :
    ((g.insertNode n).nodes.map Node.name).Nodup := by
  rw [insertNode_nodes_of_new hnew, List.map_append]
  exact List.nodup_append_comm.mp (List.nodup_cons.mpr ⟨hname, h⟩)

end Graph

namespace Editing

variable {s : Session}

/-- An edit that is accepted has left names distinct that were distinct before. -/
def EndsNamed (p : Editing Edited) (s : Session) : Prop :=
  Ends p s (fun _ t => (t.graph.nodes.map Node.name).Nodup) fun _ => True

section Edits

variable (h : (s.graph.nodes.map Node.name).Nodup)
include h

theorem addModel_endsNamed {name id : Option String} (hfresh : (Edit.addModel name id).IsFresh s) :
    EndsNamed (addModel name id) s := by
  unfold EndsNamed addModel
  refine .ask_bind trivial fun _ hnew => .ask_bind trivial fun name hname => ?_
  refine .idFor_bind fun t ht => .nextId_bind <| .change_bind <| .change_bind <| .pure ?_
  simp only [Session.changing_graph, Session.taking_graph, ht]
  rw [Graph.relinkEnums_nodes, Graph.insertModel, Graph.attachRelations_nodes]
  exact Graph.insertNode_names_nodup h (hasNode_idFor hnew hfresh)
    (Graph.name_free_of_newName hname)

theorem addEnum_endsNamed {name : Option String} {values : Option (List String)}
    {id : Option String} (hfresh : (Edit.addEnum name values id).IsFresh s) :
    EndsNamed (addEnum name values id) s := by
  unfold EndsNamed addEnum
  refine .ask_bind trivial fun _ hnew => .ask_bind trivial fun name hname => ?_
  refine .ask_bind trivial fun _ _ => .idFor_bind fun t ht => ?_
  refine .change_bind <| .change_bind <| .pure ?_
  simp only [Session.changing_graph, ht]
  rw [Graph.relinkEnums_nodes, Graph.insertEnum]
  exact Graph.insertNode_names_nodup h (hasNode_idFor hnew hfresh)
    (Graph.name_free_of_newName hname)

theorem rename_endsNamed (hids : (s.graph.nodes.map Node.id).Nodup) (id name : String) :
    EndsNamed (rename id name) s := by
  unfold EndsNamed rename
  refine .ask_bind trivial fun n _ => .ask_bind trivial fun _ hname => ?_
  refine .change_bind <| .change_bind <| .change_bind <| .pure ?_
  have hretyped := Graph.mapModels_nodes_map (g := s.graph.renameNode id name)
    (Graph.retypeFields n.name name) Node.name fun _ => rfl
  simp only [Session.changing_graph]
  rw [Graph.relinkEnums_nodes, hretyped, Graph.renameNode_names]
  exact Document.nodup_renamed hids h (Graph.name_free_of_checkName hname)

theorem delete_endsNamed (id : String) : EndsNamed (delete id) s := by
  unfold EndsNamed delete
  refine .ask_bind trivial fun _ _ => .change_bind <| .change_bind <| .change_bind <| .pure ?_
  simp only [Session.changing_graph]
  rw [Graph.relinkEnums_nodes]
  exact h.sublist (List.filter_sublist.map Node.name)

theorem setFields_endsNamed (id : String) (fields : List Field) {r : Edited} :
    EndsNamed (do change (·.setFields id fields); change (·.relinkEnums); return r) s := by
  refine .change_bind <| .change_bind <| .pure ?_
  simp only [Session.changing_graph]
  rw [Graph.relinkEnums_nodes, Graph.setFields_names]
  exact h

theorem addField_endsNamed (model : String) (data : Entries) :
    EndsNamed (addField model data) s := by
  unfold EndsNamed addField
  refine .ask_bind trivial fun _ _ => .nextId_bind ?_
  refine .ask_bind trivial fun _ _ => .ask_bind trivial fun _ _ => .ask_bind trivial fun _ _ => ?_
  exact setFields_endsNamed (s := s.taking 1) h model _

theorem updateField_endsNamed (model field : String) (changes : Entries) :
    EndsNamed (updateField model field changes) s := by
  unfold EndsNamed updateField
  refine .ask_bind trivial fun _ _ => .ask_bind trivial fun _ _ => .ask_bind trivial fun _ _ => ?_
  refine .ask_bind trivial fun _ _ => .ask_bind trivial fun _ _ => .ask_bind trivial fun _ _ => ?_
  exact setFields_endsNamed h model _

theorem removeField_endsNamed (model field : String) : EndsNamed (removeField model field) s := by
  unfold EndsNamed removeField
  refine .ask_bind trivial fun _ _ => .ask_bind trivial fun _ _ => ?_
  exact setFields_endsNamed h model _

theorem setValues_endsNamed (id : String) (values : List String) :
    EndsNamed (setValues id values) s := by
  unfold EndsNamed setValues
  refine .ask_bind trivial fun x hx => .ask_bind trivial fun _ _ => .change_bind <| .pure ?_
  have hfound := EditError.orNotFound_eq_ok_iff.mp hx
  obtain rfl : x.id = id := (Graph.mem_nodes_of_node? (Graph.node?_of_enum? hfound)).2
  exact (Graph.insertNode_values_names values hfound).symm ▸ h

theorem addRelation_endsNamed (source target : Value) (type : Option Value) (id : Option String)
    (attributes : Entries) : EndsNamed (addRelation source target type id attributes) s := by
  unfold EndsNamed addRelation
  refine .ask_bind trivial fun _ _ => .ask_bind trivial fun _ _ => .idFor_bind fun t ht => ?_
  refine .ask_bind trivial fun _ _ => .ask_bind trivial fun e _ => .ask_bind trivial fun _ _ => ?_
  refine .change_bind <| synthesizeEdges_endsDone.bind fun _ u hdone => .pure ?_
  rw [Graph.synthesizeEdges_names hdone, Session.changing_graph, Graph.insertRelation_nodes, ht]
  exact h

theorem removeRelation_endsNamed (id : String) : EndsNamed (removeRelation id) s := by
  unfold EndsNamed removeRelation
  refine .bind_of_run (EStateM.run_get s) (.change_bind ?_)
  cases s.graph.relation? id with
  | none => exact trivial
  | some r => exact .change_bind <| .pure h

theorem setType_endsNamed (id type : String) : EndsNamed (setType id type) s := by
  unfold EndsNamed setType
  refine .ask_bind trivial fun old _ => .ask_bind trivial fun _ _ => ?_
  refine .change_bind <| .change_bind <| synthesizeEdges_endsDone.bind fun _ u hdone => .pure ?_
  rw [Graph.synthesizeEdges_names hdone]
  simp only [Session.changing_graph]
  rw [Graph.dropDerived_names, Graph.insertRelation_nodes]
  exact h

theorem synthesize_endsNamed : EndsNamed synthesize s := by
  unfold EndsNamed synthesize
  refine .bind_of_run (EStateM.run_get s) <| synthesizeEdges_endsDone.bind fun _ u hdone => .pure ?_
  rw [Graph.synthesizeEdges_names hdone]
  exact h

theorem editing_endsNamed {e : Edit} (hids : (s.graph.nodes.map Node.id).Nodup)
    (hfresh : e.IsFresh s) : EndsNamed e.editing s := by
  cases e with
  | addModel name id => exact addModel_endsNamed h hfresh
  | addEnum name values id => exact addEnum_endsNamed h hfresh
  | rename id name => exact rename_endsNamed h hids id name
  | delete id => exact delete_endsNamed h id
  | addField model field => exact addField_endsNamed h model field
  | updateField model field changes => exact updateField_endsNamed h model field changes
  | removeField model field => exact removeField_endsNamed h model field
  | setValues id values => exact setValues_endsNamed h id values
  | addRelation source target type id attributes =>
      exact addRelation_endsNamed h source target type id attributes
  | removeRelation id => exact removeRelation_endsNamed h id
  | setType id type => exact setType_endsNamed h id type
  | synthesize => exact synthesize_endsNamed h

end Edits

end Editing

namespace Session

variable {s : Session}

theorem apply_names_nodup {e : Edit} (h : (s.graph.nodes.map Node.name).Nodup)
    (hids : (s.graph.nodes.map Node.id).Nodup) (hfresh : e.IsFresh s) :
    ((s.apply e).session.graph.nodes.map Node.name).Nodup := by
  obtain hgraph | ⟨-, hnames⟩ := unchanged_or_of_ends (Editing.editing_endsNamed h hids hfresh)
  · rwa [hgraph]
  · exact hnames

/-- Along every run in which ids tell nodes apart, names tell them apart. -/
theorem run_names_nodup {edits : List Edit} (h : (s.graph.nodes.map Node.name).Nodup)
    (horder : s.graph.InOrder) (hfresh : s.IsFreshAlong edits) :
    ((s.run edits).graph.nodes.map Node.name).Nodup := by
  induction edits generalizing s with
  | nil => exact h
  | cons e edits ih =>
      exact ih (apply_names_nodup h horder.anchored.ids hfresh.1) (apply_inOrder horder hfresh.1)
        hfresh.2

end Session

end DrawnSchema
