import DrawnSchema.Proofs.Editing.DistinctNames
import DrawnSchema.Proofs.Graph.Renaming

/-!
# Renaming under edits

Names tell the nodes of a graph apart that comes of an empty one, so a node that is accepted under
another name takes along the fields that refer to it and no others. The enum edges are told by what
fields refer to, and stay where they are.
-/

namespace DrawnSchema

/-- A field is the same but for its type, which refers to the same node. -/
def Field.RefersAlike (g g' : Graph) (f f' : Field) : Prop :=
  f' = { f with type := f'.type } ∧ g'.resolve? f'.type = g.resolve? f.type

/-- A graph in which the node of an id has a name. Nothing else has changed but the types of fields,
and these refer to the same nodes. -/
structure Graph.HasRenamed (g : Graph) (id name : String) (g' : Graph) : Prop where
  models : List.Forall₂
    (fun m m' => m' = { m with name := if m.id = id then name else m.name, fields := m'.fields } ∧
      List.Forall₂ (Field.RefersAlike g g') m.fields m'.fields)
    g.models g'.models
  enums : g'.enums = g.enums.map (Enumeration.renamed id name)
  relations : g'.relations = g.relations
  enumEdges : g'.enumEdges = g.enumEdges
  generator : g'.generator = g.generator
  datasource : g'.datasource = g.datasource

namespace Graph

variable {g : Graph} {n : Node} {name : String}

theorem exists_mem_nodes_of_namedNodes {x : NamedNode} (hx : x ∈ g.namesDocument.namedNodes) :
    ∃ n ∈ g.nodes, n.id = x.id ∧ n.name = x.name := by
  obtain hx | hx := List.mem_append.mp hx
  · obtain ⟨m, hm, rfl⟩ := List.mem_map.mp hx
    exact ⟨.model m, mem_models.mp hm, rfl, rfl⟩
  · obtain ⟨e, he, rfl⟩ := List.mem_map.mp hx
    exact ⟨.enum e, mem_enums.mp he, rfl, rfl⟩

/-- A node may take a name just if no other node has it. -/
theorem checkName_eq_ok_iff {id : String} :
    g.checkName name (some id) = .ok () ↔ ∀ n ∈ g.nodes, n.name = name → n.id = id := by
  refine ⟨name_free_of_checkName, fun hfree => ?_⟩
  refine EditError.refuseUnless_eq_ok_iff.mpr (Document.nameFree_iff.mpr fun x hx hname => ?_)
  obtain ⟨n, hn, hid, hsame⟩ := exists_mem_nodes_of_namedNodes hx
  rw [← hid, hfree n hn (hsame.trans hname)]

theorem renamed_identities (g : Graph) (id old new : String) :
    (g.renamed id old new).nodes.map Node.identity = g.nodes.map Node.identity :=
  (mapModels_identities (f := retypeFields old new) (fun _ => rfl) _).trans
    (renameNode_identities id new g)

theorem InOrder.renamed (h : g.InOrder) (id old new : String) :
    (g.renamed id old new).relinkEnums.InOrder :=
  h.rework (renamed_identities g id old new)

namespace MayTake

variable (h : g.MayTake n name)
include h

theorem refersAlike {m : Model} (hm : m ∈ g.models) {f : Field} (hf : f ∈ m.fields) :
    Field.RefersAlike g (g.renamed n.id n.name name).relinkEnums f (f.retyped n.name name) := by
  refine ⟨Field.retyped_eq, ?_⟩
  rw [← h.resolve?_renamed (h.unused_type hm hf), resolve?, findByName?, relinkEnums_nodes]
  rfl

theorem hasRenamed (horder : g.InOrder) :
    g.HasRenamed n.id name (g.renamed n.id n.name name).relinkEnums := by
  refine ⟨?_, ?_, relinkEnums_relations _, ?_, relinkEnums_generator _, relinkEnums_datasource _⟩
  · rw [relinkEnums_models, renamed_models, List.forall₂_map_right_iff, List.forall₂_same]
    refine fun m hm => ⟨rfl, ?_⟩
    rw [Model.renamed, List.forall₂_map_right_iff, List.forall₂_same]
    exact fun f hf => h.refersAlike hm hf
  · rw [relinkEnums_enums, renamed_enums]
  · rw [(horder.renamed n.id n.name name).order, horder.order, relinkEnums_models,
      relinkEnums_enums, h.deriveEnumEdges_renamed, renamed_enums, List.flatMap_map]
    rfl

/-- The old name of a node is free once it has a new one. -/
theorem renamed_back (horder : g.InOrder) :
    (g.renamed n.id n.name name).relinkEnums.node? n.id = some (n.renamed n.id n.name name) ∧
      ∀ k ∈ (g.renamed n.id n.name name).relinkEnums.nodes, k.name = n.name → k.id = n.id := by
  constructor
  · refine (find?_key_eq_some_iff (horder.renamed n.id n.name name).anchored.ids).mpr ⟨?_, ?_⟩
    · rw [relinkEnums_nodes, renamed_nodes]
      exact List.mem_map_of_mem h.mem
    · exact Node.renamed_id n.id n.name name n
  · rw [relinkEnums_nodes]
    exact fun k hk => h.name_free_of_renamed hk

/-- Renamed back, a graph shows what it showed before. -/
theorem renamed_back_twin (horder : g.InOrder) :
    g.Twin ((g.renamed n.id n.name name).relinkEnums.renamed n.id name n.name).relinkEnums := by
  have hback := (horder.renamed n.id n.name name).renamed n.id name n.name
  refine ⟨h.ids, hback.anchored.ids, ?_, ?_, ?_, ?_, ?_⟩
  · rw [relinkEnums_models, renamed_models, relinkEnums_models, ← renamed_models,
      h.renamed_back_models]
  · rw [relinkEnums_enums, renamed_enums, relinkEnums_enums, ← renamed_enums _ n.id name n.name,
      h.renamed_back_enums]
  · exact (relinkEnums_relations _).trans (relinkEnums_relations _)
  · exact (relinkEnums_generator _).trans (relinkEnums_generator _)
  · exact (relinkEnums_datasource _).trans (relinkEnums_datasource _)

end MayTake

end Graph

namespace Editing

variable {s : Session}

theorem rename_ends (id name : String) :
    Ends (Edit.rename id name).editing s
      (fun _ _ => ∃ n, s.graph.node? id = some n ∧ ∀ k ∈ s.graph.nodes, k.name = name → k.id = id)
      fun _ => True := by
  unfold Edit.editing rename
  refine .ask_bind trivial fun n hn => .ask_bind trivial fun _ hname => ?_
  refine .change_bind <| .change_bind <| .change_bind <| .pure ⟨n, ?_, ?_⟩
  · exact EditError.orNotFound_eq_ok_iff.mp hn
  · exact Graph.checkName_eq_ok_iff.mp hname

end Editing

namespace Session

variable {s : Session} {n : Node} {id name : String}

theorem apply_rename (hn : s.graph.node? id = some n)
    (hfree : ∀ k ∈ s.graph.nodes, k.name = name → k.id = id) :
    (s.apply (.rename id name)).answer = .ok .done ∧
      (s.apply (.rename id name)).session.graph =
        (s.graph.renamed id n.name name).relinkEnums := by
  have hends : Editing.Ends (Edit.rename id name).editing s
      (fun r t => r.answer = .done ∧ t.graph = (s.graph.renamed id n.name name).relinkEnums)
      fun _ => False := by
    unfold Edit.editing Editing.rename
    refine .ask_bind_of_eq (EditError.orNotFound_eq_ok_iff.mpr hn) ?_
    refine .ask_bind_of_eq (Graph.checkName_eq_ok_iff.mpr hfree) ?_
    exact .change_bind <| .change_bind <| .change_bind <| .pure ⟨rfl, rfl⟩
  obtain ⟨r, hanswer, hdone, hgraph⟩ := apply_of_ends_accepted hends
  exact ⟨hanswer.trans (congrArg Except.ok hdone), hgraph⟩

/-- Whatever was done to an empty graph, with success or not: where a node is renamed, to the name
that it has or to one that is no type of fields, every field refers to the node that it referred to
before, and is the same in all but its type. The other nodes have their names, and the relations and
the enum edges are as they were. The node can be given its old name again, and then the document is
that of before. -/
theorem run_rename_refersAlike {s : Session} {edits : List Edit}
    (hempty : ∃ generator datasource, s.graph = { generator, datasource })
    (hfresh : s.IsFreshAlong edits) {answer : Answer}
    (haccepted : ((s.run edits).apply (.rename id name)).answer = .ok answer)
    (hunused : ((s.run edits).graph.node? id).map Node.name = some name ∨
      ∀ m ∈ (s.run edits).graph.models, ∀ f ∈ m.fields, f.type ≠ name) :
    ∃ n, (s.run edits).graph.node? id = some n ∧
      (s.run edits).graph.HasRenamed id name
        ((s.run edits).apply (.rename id name)).session.graph ∧
      (((s.run edits).apply (.rename id name)).session.apply (.rename id n.name)).answer =
        .ok .done ∧
      (((s.run edits).apply (.rename id name)).session.apply
          (.rename id n.name)).session.graph.toDocument = (s.run edits).graph.toDocument := by
  have horder := run_inOrder_of_empty hempty hfresh
  have hnames : ((s.run edits).graph.nodes.map Node.name).Nodup := by
    obtain ⟨generator, datasource, hgraph⟩ := hempty
    refine run_names_nodup ?_ (hgraph ▸ .empty generator datasource) hfresh
    rw [hgraph]
    exact List.nodup_nil
  generalize s.run edits = before at haccepted hunused horder hnames ⊢
  obtain ⟨-, -, n, hn, hfree⟩ := accepted_of_ends (Editing.rename_ends id name) haccepted
  obtain ⟨hmem, rfl⟩ := Graph.mem_nodes_of_node? hn
  have hmay : before.graph.MayTake n name :=
    ⟨horder.anchored.ids, hnames, hmem, hfree, by simpa [hn] using hunused⟩
  obtain ⟨-, hgraph⟩ := apply_rename hn hfree
  generalize (before.apply (.rename n.id name)).session = after at hgraph ⊢
  obtain ⟨hn', hfree'⟩ := hmay.renamed_back horder
  rw [← hgraph] at hn' hfree'
  obtain ⟨hanswer, hback⟩ := apply_rename hn' hfree'
  refine ⟨n, hn, hgraph ▸ hmay.hasRenamed horder, hanswer, ?_⟩
  rw [hback, hgraph, Node.renamed_name, if_pos rfl]
  exact (hmay.renamed_back_twin horder).toDocument_eq horder
    ((horder.renamed n.id n.name name).renamed n.id name n.name)

/-- Users with a role, and their posts. -/
def members : List Edit :=
  [.addEnum (some "Role") none (some "r"), .addModel (some "User") (some "u"),
    .addField "u" [(.text "name", .text "role"), (.text "type", .text "Role")],
    .addModel (some "Post") (some "p"), .addRelation (.text "u") (.text "p") none (some "e") []]

/-- The role of a user is of the enum that was renamed, and it is again when that is taken back. -/
theorem run_rename_refersAlike_members :
    ({} : Session).IsFreshAlong members ∧
      ((({} : Session).run members).apply (.rename "r" "Rank")).answer = .ok .done ∧
      (({} : Session).run members).graph.models.map (fun m => m.fields.map (·.type)) =
        [["Int", "Role", "Post"], ["Int", "User", "String"]] ∧
      ((({} : Session).run members).apply (.rename "r" "Rank")).session.graph.models.map
          (fun m => m.fields.map (·.type)) =
        [["Int", "Rank", "Post"], ["Int", "User", "String"]] ∧
      (({} : Session).run members).graph.HasRenamed "r" "Rank"
        ((({} : Session).run members).apply (.rename "r" "Rank")).session.graph ∧
      (((({} : Session).run members).apply (.rename "r" "Rank")).session.apply
          (.rename "r" "Role")).session.graph.toDocument =
        (({} : Session).run members).graph.toDocument := by
  have hfresh : ({} : Session).IsFreshAlong members :=
    ⟨fun _ => rfl, fun _ => rfl, trivial, fun _ => rfl, trivial, trivial⟩
  have haccepted : ((({} : Session).run members).apply (.rename "r" "Rank")).answer = .ok .done :=
    rfl
  have hunused : ∀ m ∈ (({} : Session).run members).graph.models, ∀ f ∈ m.fields,
      f.type ≠ "Rank" := by decide
  obtain ⟨n, hn, hrenamed, -, hback⟩ :=
    run_rename_refersAlike ⟨{}, {}, rfl⟩ hfresh haccepted (.inr hunused)
  have hname : n.name = "Role" := by
    have hfound : (({} : Session).run members).graph.node? "r" =
      some (.enum { id := "r", name := "Role", values := ["VALUE1", "VALUE2"] }) := rfl
    obtain rfl := Option.some.inj (hn.symm.trans hfound)
    rfl
  rw [hname] at hback
  exact ⟨hfresh, haccepted, rfl, rfl, hrenamed, hback⟩

end Session

end DrawnSchema
