import DrawnSchema.Proofs.Editing.Reopening

/-!
# Withdrawing a new node

A node that is put in may be of a name that fields of other models had as their type all along. So
it may change what is shown of models that no edit touches. It still leaves no trace when it is
taken out again: no relation is drawn to it meanwhile, all other nodes stay where they are, and the
enum edges are told by them.
-/

namespace DrawnSchema

/-- What an edit that puts in a node answers. -/
def Node.answer : Node → Answer
  | .model m => .model m
  | .enum x => .enum x

theorem Node.answer_injective : Function.Injective Node.answer := by
  intro n n' h
  cases n <;> cases n' <;> simp_all [Node.answer]

namespace Edit

def PutsInNode : Edit → Prop
  | .addModel _ _ => True
  | .addEnum _ _ _ => True
  | _ => False

/-- An edit is about fields of the model, or about the values of the enum, that goes by an id. -/
def Tends (id : String) : Edit → Prop
  | .addField model _ => model = id
  | .updateField model _ _ => model = id
  | .removeField model _ => model = id
  | .setValues enum _ => enum = id
  | _ => False

theorem Tends.isFresh {id : String} {e : Edit} (h : e.Tends id) (s : Session) : e.IsFresh s := by
  cases e with
  | addModel name id => exact h.elim
  | addEnum name values id => exact h.elim
  | _ => exact trivial

end Edit

namespace Graph

variable {g g' g'' : Graph} {id : String}

/-! ### Graphs that differ in one node -/

/-- A graph has what another one has, in the same order, with another node or none for one id. -/
structure AgreesBeside (id : String) (g g' : Graph) : Prop where
  nodes : g'.nodes.filter (·.id ≠ id) = g.nodes.filter (·.id ≠ id)
  relations : g'.relations = g.relations
  generator : g'.generator = g.generator
  datasource : g'.datasource = g.datasource

namespace AgreesBeside

theorem refl (id : String) (g : Graph) : g.AgreesBeside id g := ⟨rfl, rfl, rfl, rfl⟩

theorem trans (h : g.AgreesBeside id g') (h' : g'.AgreesBeside id g'') : g.AgreesBeside id g'' :=
  ⟨h'.nodes.trans h.nodes, h'.relations.trans h.relations, h'.generator.trans h.generator,
    h'.datasource.trans h.datasource⟩

theorem withArcs (h : g.AgreesBeside id g') (arcs : List Arc) :
    g.AgreesBeside id { g' with arcs } :=
  ⟨h.nodes, h.relations, h.generator, h.datasource⟩

theorem relinkEnums (h : g.AgreesBeside id g') : g.AgreesBeside id g'.relinkEnums := by
  rw [relinkEnums_eq]
  exact h.withArcs _

theorem attachRelations (h : g.AgreesBeside id g') : g.AgreesBeside id g'.attachRelations := by
  rw [attachRelations_eq]
  exact h.withArcs _

end AgreesBeside

theorem insertNode_agreesBeside (n : Node) (g : Graph) : g.AgreesBeside n.id (g.insertNode n) := by
  refine ⟨?_, rfl, rfl, rfl⟩
  have hplaced : ∀ m : Node, decide (m.id = n.id) = true →
      decide (m.id ≠ n.id) = decide (n.id ≠ n.id) :=
    fun m hm => by simp [of_decide_eq_true hm]
  refine (filter_placeOrAppend hplaced g.nodes).trans ?_
  rw [if_neg (by simp)]

theorem setFields_agreesBeside (id : String) (fields : List Field) (g : Graph) :
    g.AgreesBeside id (g.setFields id fields) := by
  refine ⟨?_, rfl, rfl, rfl⟩
  simp only [setFields, mapModels]
  induction g.nodes with
  | nil => rfl
  | cons n nodes ih =>
      rw [List.map_cons, List.filter_cons, List.filter_cons, ih]
      cases n with
      | enum x => rfl
      | model m => by_cases hm : m.id = id <;> simp [Node.mapModel, Node.id, hm]

/-- A node that a graph does not have leaves no trace, in a graph that agrees with it beside that
node, once it is removed. -/
theorem AgreesBeside.removeNode_twin (h : g.AgreesBeside id g') (hg : g.InOrder)
    (hnew : g.hasNode id = false) :
    g.Twin ((g'.removeNode id).removeRelationsOf id).relinkEnums := by
  have habsent : id ∉ g.nodes.map Node.id := hasNode_eq_false_iff.mp hnew
  have hnodes : g'.nodes.filter (·.id ≠ id) = g.nodes := by
    refine h.nodes.trans (List.filter_eq_self.mpr fun n hn => decide_eq_true fun hid => ?_)
    exact habsent (hid ▸ List.mem_map_of_mem hn)
  have hmodel : id ∉ g.modelIds := fun hmem => by
    obtain ⟨m, hm, hid⟩ := mem_modelIds.mp hmem
    exact habsent (List.mem_map.mpr ⟨.model m, hm, hid⟩)
  -- Every relation joins models, so the relations are those of before: none is at the node.
  have hrelations : g'.relations.filter (fun r => r.source ≠ id && r.target ≠ id) =
      g.relations := by
    rw [h.relations]
    refine List.filter_eq_self.mpr fun r hr => ?_
    obtain ⟨hsource, htarget⟩ := hg.resolves r hr
    have hne : r.source ≠ id ∧ r.target ≠ id :=
      ⟨ne_of_mem_of_not_mem hsource hmodel, ne_of_mem_of_not_mem htarget hmodel⟩
    simp [hne]
  have hids : (g'.nodes.filter (·.id ≠ id)).map Node.id = g.nodes.map Node.id :=
    congrArg (List.map Node.id) hnodes
  rw [relinkEnums_eq]
  exact ⟨hg.anchored.ids, hids ▸ hg.anchored.ids, congrArg (List.filterMap Node.model?) hnodes,
    congrArg (List.filterMap Node.enum?) hnodes, hrelations, h.generator, h.datasource⟩

end Graph

/-! ### A node put in, tended and removed -/

namespace Editing

variable {s : Session} {id : String}

/-- An edit that is accepted has put in the node that it answers, and nothing else. -/
def EndsPutIn (p : Editing Edited) (s : Session) : Prop :=
  Ends p s
    (fun r t => ∃ n : Node, r.answer = n.answer ∧ s.graph.hasNode n.id = false ∧
      n.id ∈ t.graph.nodes.map Node.id ∧ s.graph.AgreesBeside n.id t.graph)
    fun _ => True

theorem addModel_endsPutIn {name id : Option String}
    (hfresh : (Edit.addModel name id).IsFresh s) : EndsPutIn (addModel name id) s := by
  unfold EndsPutIn addModel
  refine .ask_bind trivial fun _ hcheck => .ask_bind trivial fun name _ => ?_
  refine .idFor_bind fun t ht => .nextId_bind <| .change_bind <| .change_bind <| .pure ?_
  simp only [Session.changing_graph, Session.taking_graph, ht]
  have hnew := hasNode_idFor hcheck hfresh
  refine ⟨.model _, rfl, hnew, ?_, ?_⟩
  · rw [Graph.relinkEnums_nodes, Graph.insertModel, Graph.attachRelations_nodes,
      Graph.insertNode_nodes_of_new hnew]
    simp
  · exact (Graph.insertNode_agreesBeside (.model _) _).attachRelations.relinkEnums

theorem addEnum_endsPutIn {name : Option String} {values : Option (List String)}
    {id : Option String} (hfresh : (Edit.addEnum name values id).IsFresh s) :
    EndsPutIn (addEnum name values id) s := by
  unfold EndsPutIn addEnum
  refine .ask_bind trivial fun _ hcheck => .ask_bind trivial fun name _ => ?_
  refine .ask_bind trivial fun _ _ => .idFor_bind fun t ht => ?_
  refine .change_bind <| .change_bind <| .pure ?_
  simp only [Session.changing_graph, ht]
  have hnew := hasNode_idFor hcheck hfresh
  refine ⟨.enum _, rfl, hnew, ?_, ?_⟩
  · rw [Graph.relinkEnums_nodes, Graph.insertEnum, Graph.insertNode_nodes_of_new hnew]
    simp
  · exact (Graph.insertNode_agreesBeside (.enum _) _).relinkEnums

/-- An edit that is accepted has changed nothing beside one node, and that node is still there. -/
def EndsTended (id : String) (p : Editing Edited) (s : Session) : Prop :=
  Ends p s
    (fun _ t => t.graph.nodes.map Node.id = s.graph.nodes.map Node.id ∧
      s.graph.AgreesBeside id t.graph)
    fun _ => True

theorem setFields_endsTended (fields : List Field) {r : Edited} :
    EndsTended id
      (do change (·.setFields id fields); change (·.relinkEnums); return r) s := by
  refine .change_bind <| .change_bind <| .pure ⟨?_, ?_⟩
  · simpa using Graph.ids_of_identities (Graph.setFields_identities id fields s.graph)
  · exact (Graph.setFields_agreesBeside id fields s.graph).relinkEnums

theorem addField_endsTended (data : Entries) : EndsTended id (addField id data) s := by
  unfold EndsTended addField
  refine .ask_bind trivial fun _ _ => .nextId_bind ?_
  refine .ask_bind trivial fun _ _ => .ask_bind trivial fun _ _ => .ask_bind trivial fun _ _ => ?_
  exact setFields_endsTended _

theorem updateField_endsTended (field : String) (changes : Entries) :
    EndsTended id (updateField id field changes) s := by
  unfold EndsTended updateField
  refine .ask_bind trivial fun _ _ => .ask_bind trivial fun _ _ => .ask_bind trivial fun _ _ => ?_
  refine .ask_bind trivial fun _ _ => .ask_bind trivial fun _ _ => .ask_bind trivial fun _ _ => ?_
  exact setFields_endsTended _

theorem removeField_endsTended (field : String) : EndsTended id (removeField id field) s := by
  unfold EndsTended removeField
  refine .ask_bind trivial fun _ _ => .ask_bind trivial fun _ _ => ?_
  exact setFields_endsTended _

theorem setValues_endsTended (values : List String) : EndsTended id (setValues id values) s := by
  unfold EndsTended setValues
  refine .ask_bind trivial fun x hx => .ask_bind trivial fun _ _ => .change_bind <| .pure ?_
  have hfound := EditError.orNotFound_eq_ok_iff.mp hx
  obtain rfl : x.id = id := (Graph.mem_nodes_of_node? (Graph.node?_of_enum? hfound)).2
  refine ⟨?_, Graph.insertNode_agreesBeside (.enum { x with values }) s.graph⟩
  exact Graph.ids_of_identities (Graph.insertNode_values_identities values hfound)

theorem delete_endsRemoved (hfound : id ∈ s.graph.nodes.map Node.id) {refused : Session → Prop} :
    Ends (delete id) s
      (fun r t => r.answer = .done ∧
        t.graph = ((s.graph.removeNode id).removeRelationsOf id).relinkEnums)
      refused := by
  have hhas : s.graph.hasNode id = true := by
    rwa [← Bool.not_eq_false, Graph.hasNode_eq_false_iff, not_not]
  obtain ⟨n, hn⟩ := Option.isSome_iff_exists.mp hhas
  unfold delete
  refine .ask_bind_of_eq (EditError.orNotFound_eq_ok_iff.mpr hn) ?_
  exact .change_bind <| .change_bind <| .change_bind <| .pure ⟨rfl, rfl⟩

end Editing

namespace Session

variable {s : Session} {id : String}

theorem apply_putIn {e : Edit} {n : Node} (hkind : e.PutsInNode) (hfresh : e.IsFresh s)
    (haccepted : (s.apply e).answer = .ok n.answer) :
    s.graph.hasNode n.id = false ∧ n.id ∈ (s.apply e).session.graph.nodes.map Node.id ∧
      s.graph.AgreesBeside n.id (s.apply e).session.graph := by
  have hends : Editing.EndsPutIn e.editing s := by
    cases e with
    | addModel name id => exact Editing.addModel_endsPutIn hfresh
    | addEnum name values id => exact Editing.addEnum_endsPutIn hfresh
    | _ => exact hkind.elim
  obtain ⟨r, hanswer, n', hn', hput⟩ := accepted_of_ends hends haccepted
  obtain rfl : n' = n := Node.answer_injective (hn'.symm.trans hanswer)
  exact hput

theorem apply_tended {e : Edit} (htends : e.Tends id) :
    (s.apply e).session.graph.nodes.map Node.id = s.graph.nodes.map Node.id ∧
      s.graph.AgreesBeside id (s.apply e).session.graph := by
  have hends : Editing.EndsTended id e.editing s := by
    cases e with
    | addField model field => obtain rfl := htends; exact Editing.addField_endsTended field
    | updateField model field changes =>
        obtain rfl := htends
        exact Editing.updateField_endsTended field changes
    | removeField model field => obtain rfl := htends; exact Editing.removeField_endsTended field
    | setValues enum values => obtain rfl := htends; exact Editing.setValues_endsTended values
    | _ => exact htends.elim
  obtain hgraph | ⟨-, htended⟩ := unchanged_or_of_ends hends
  · rw [hgraph]
    exact ⟨rfl, .refl id s.graph⟩
  · exact htended

theorem run_tended {edits : List Edit} (htends : ∀ e ∈ edits, e.Tends id) :
    (s.run edits).graph.nodes.map Node.id = s.graph.nodes.map Node.id ∧
      s.graph.AgreesBeside id (s.run edits).graph := by
  induction edits generalizing s with
  | nil => exact ⟨rfl, .refl id s.graph⟩
  | cons e edits ih =>
      obtain ⟨hids, hagrees⟩ := apply_tended (s := s) (htends e List.mem_cons_self)
      obtain ⟨hids', hagrees'⟩ :=
        ih (s := (s.apply e).session) fun e' he' => htends e' (List.mem_cons_of_mem e he')
      exact ⟨hids'.trans hids, hagrees.trans hagrees'⟩

theorem isFreshAlong_of_tends {edits : List Edit} (htends : ∀ e ∈ edits, e.Tends id) :
    s.IsFreshAlong edits := by
  induction edits generalizing s with
  | nil => exact trivial
  | cons e edits ih =>
      exact ⟨(htends e List.mem_cons_self).isFresh s,
        ih fun e' he' => htends e' (List.mem_cons_of_mem e he')⟩

theorem apply_delete_done (hfound : id ∈ s.graph.nodes.map Node.id) :
    (s.apply (.delete id)).answer = .ok .done ∧
      (s.apply (.delete id)).session.graph =
        ((s.graph.removeNode id).removeRelationsOf id).relinkEnums := by
  have hends : Editing.Ends (Edit.delete id).editing s _ fun _ => False :=
    Editing.delete_endsRemoved hfound
  obtain ⟨r, hanswer, hdone, hgraph⟩ := apply_of_ends_accepted hends
  exact ⟨hanswer.trans (congrArg Except.ok hdone), hgraph⟩

/-- Whatever was done to an empty graph, with success or not: a model or an enum that is put in and
whose fields or values are then edited, with success or not, can be deleted, and the document is
again that of before. -/
theorem run_withdrawn {s : Session} {edits tending : List Edit} {e : Edit} {n : Node}
    (hempty : ∃ generator datasource, s.graph = { generator, datasource })
    (hfresh : s.IsFreshAlong edits) (hkind : e.PutsInNode) (hnew : e.IsFresh (s.run edits))
    (hput : ((s.run edits).apply e).answer = .ok n.answer)
    (htends : ∀ e' ∈ tending, e'.Tends n.id) :
    ((((s.run edits).apply e).session.run tending).apply (.delete n.id)).answer = .ok .done ∧
      ((((s.run edits).apply e).session.run tending).apply
          (.delete n.id)).session.graph.toDocument =
        (s.run edits).graph.toDocument := by
  have horder := run_inOrder_of_empty hempty hfresh
  generalize s.run edits = before at horder hnew hput ⊢
  obtain ⟨habsent, hpresent, hagrees⟩ := apply_putIn hkind hnew hput
  obtain ⟨hids, htended⟩ := run_tended (s := (before.apply e).session) htends
  have horder' := run_inOrder (apply_inOrder horder hnew) (isFreshAlong_of_tends htends)
  generalize (before.apply e).session.run tending = after at hids htended horder' ⊢
  obtain ⟨hanswer, hgraph⟩ := apply_delete_done (hids ▸ hpresent)
  refine ⟨hanswer, ?_⟩
  rw [hgraph]
  exact ((hagrees.trans htended).removeNode_twin horder habsent).toDocument_eq horder
    (horder'.removeNode n.id)

/-- A post of a kind that nothing is known of. -/
def posts : List Edit :=
  [.addModel (some "Post") (some "p"),
    .addField "p" [(.text "name", .text "kind"), (.text "type", .text "Kind")]]

/-- An enum that becomes the kind of the post, and refuses to have a value twice, is deleted. -/
theorem run_withdrawn_posts :
    ({} : Session).IsFreshAlong posts ∧
      ((({} : Session).run posts).apply (.addEnum (some "Kind") none (some "k"))).answer =
        .ok (Node.enum { id := "k", name := "Kind", values := ["VALUE1", "VALUE2"] }).answer ∧
      ((({} : Session).run posts).course [.addEnum (some "Kind") none (some "k"),
        .setValues "k" ["LONG", "LONG"], .setValues "k" ["LONG"], .delete "k"]).map
          (fun shown => (shown.1.toOption.isSome, shown.2.2.enumEdges.map (·.fieldId))) =
        [(true, ["field-000000000002"]), (false, ["field-000000000002"]),
          (true, ["field-000000000002"]), (true, [])] ∧
      ((((({} : Session).run posts).apply (.addEnum (some "Kind") none (some "k"))).session.run
          [.setValues "k" ["LONG", "LONG"], .setValues "k" ["LONG"]]).apply
            (.delete "k")).session.graph.toDocument =
        (({} : Session).run posts).graph.toDocument := by
  have hfresh : ({} : Session).IsFreshAlong posts := ⟨fun _ => rfl, trivial, trivial⟩
  have hkind : (Edit.addEnum (some "Kind") none (some "k")).PutsInNode := trivial
  have hnew : (Edit.addEnum (some "Kind") none (some "k")).IsFresh (({} : Session).run posts) :=
    fun _ => rfl
  have htends : ∀ e ∈ [Edit.setValues "k" ["LONG", "LONG"], .setValues "k" ["LONG"]],
      e.Tends "k" := by simp [Edit.Tends]
  have hdocument := (run_withdrawn (n := .enum _) ⟨{}, {}, rfl⟩ hfresh hkind hnew rfl htends).2
  exact ⟨hfresh, rfl, rfl, hdocument⟩

end Session

end DrawnSchema
