import DrawnSchema.Proofs.Editing.EnumIndex

/-!
# The order of enum edges under edits

What a graph shows after its enum edges were derived anew is told by its models and its enums, as
long as it has been kept in order: ids tell its nodes apart, and arcs of relations start from
models. Where relations join models, that is so after any edit. The two edits that do not derive
enum edges anew leave them in their order.
-/

namespace DrawnSchema

namespace Graph

variable {g : Graph}

/-! ### Arcs of relations start from models -/

namespace Anchored

variable (h : g.Anchored)
include h

theorem withNodes {nodes : List Node}
    (hsame : nodes.map Node.identity = g.nodes.map Node.identity) :
    ({ g with nodes } : Graph).Anchored := by
  have hids : ({ g with nodes } : Graph).modelIds = g.modelIds := modelIds_of_identities hsame
  refine ⟨(ids_of_identities hsame).symm ▸ h.ids, fun a ha hnone => ?_⟩
  rw [hids]
  exact h.sources a ha hnone

theorem insertNode {n : Node} (hnew : g.hasNode n.id = false) : (g.insertNode n).Anchored := by
  refine ⟨placeOrAppend_nodup n h.ids, fun a ha hnone => ?_⟩
  exact mem_insertNode_modelIds hnew (h.sources a ha hnone)

theorem removeNode (id : String) : ((g.removeNode id).removeRelationsOf id).Anchored := by
  refine ⟨h.ids.sublist (List.filter_sublist.map _), fun a ha hnone => ?_⟩
  obtain ⟨ha, hends⟩ := List.mem_filter.mp ha
  simp only [Bool.and_eq_true, decide_eq_true_eq] at hends
  exact mem_removeNode_modelIds.mpr ⟨h.sources a ha hnone, hends.1⟩

theorem undraw (id : String) (e : RelationEdge) : ((g.popRelation id).detach e).Anchored :=
  ⟨h.ids, fun a ha => h.sources a (List.mem_filter.mp ha).1⟩

end Anchored

theorem detach_orderedArcs (g : Graph) (e : RelationEdge) :
    (g.detach e).orderedArcs = g.orderedArcs.filter fun a => a.place ≠ e.arc.place := by
  simp only [orderedArcs, detach_arcs, List.filter_flatMap]
  refine List.flatMap_congr fun n _ => ?_
  exact List.filter_comm _ _ _

/-! ### Graphs that are kept in order -/

/-- Relations join models, and enum edges are shown enum by enum as they are derived. -/
structure InOrder (g : Graph) : Prop where
  anchored : g.Anchored
  linked : g.Linked
  resolves : ∀ r ∈ g.relations, g.Resolves r
  order : g.enumEdges = g.enums.flatMap fun e =>
    (deriveEnumEdges g.models g.enums).filter (·.enumId = e.id)

namespace InOrder

theorem of_relinkEnums (hanchored : g.Anchored) (hkeyed : g.Keyed)
    (hresolves : ∀ r ∈ g.relations, g.Resolves r) : g.relinkEnums.InOrder := by
  refine ⟨hanchored.relinkEnums, hkeyed.relinkEnums_linked.1, fun r hr => ?_, ?_⟩
  · rw [relinkEnums_relations] at hr
    rw [Resolves, relinkEnums_modelIds]
    exact hresolves r hr
  · rw [hanchored.relinkEnums_enumEdges, relinkEnums_models, relinkEnums_enums]

theorem empty (generator : Generator) (datasource : Datasource) :
    ({ generator, datasource } : Graph).InOrder :=
  ⟨⟨List.nodup_nil, by simp⟩, ⟨⟨List.nodup_nil, List.nodup_nil, List.nodup_nil⟩, by simp⟩, by simp,
    rfl⟩

variable (h : g.InOrder)
include h

theorem toDocument_linked : g.toDocument.linked = g.toDocument :=
  congrArg (fun enumEdges => { g.toDocument with enumEdges }) h.order.symm

theorem insertModel {m : Model} (hnew : g.hasNode m.id = false) :
    (g.insertModel m).relinkEnums.InOrder := by
  refine of_relinkEnums (Anchored.foldl_attach _ (h.anchored.insertNode hnew))
    (h.linked.keyed.insertNode _).attachRelations fun r hr => ?_
  rw [Graph.insertModel, attachRelations_relations] at hr
  rw [Graph.insertModel, Resolves, attachRelations_modelIds]
  exact (h.resolves r hr).mono fun _ => mem_insertNode_modelIds hnew

theorem insertEnum {x : Enumeration} (hnew : g.hasNode x.id = false) :
    (g.insertEnum x).relinkEnums.InOrder := by
  refine of_relinkEnums (h.anchored.insertNode hnew) (h.linked.keyed.insertNode _) fun r hr => ?_
  exact (h.resolves r hr).mono fun _ => mem_insertNode_modelIds (n := .enum x) hnew

theorem rework {nodes : List Node}
    (hsame : nodes.map Node.identity = g.nodes.map Node.identity) :
    ({ g with nodes } : Graph).relinkEnums.InOrder := by
  have hids : ({ g with nodes } : Graph).modelIds = g.modelIds := modelIds_of_identities hsame
  refine of_relinkEnums (h.anchored.withNodes hsame)
    (h.linked.keyed.withNodes (ids_of_identities hsame)) fun r hr => ?_
  rw [Resolves, hids]
  exact h.resolves r hr

theorem removeNode (id : String) :
    ((g.removeNode id).removeRelationsOf id).relinkEnums.InOrder := by
  refine of_relinkEnums (h.anchored.removeNode id) (h.linked.keyed.removeNode id) fun r hr => ?_
  obtain ⟨hr, hends⟩ := List.mem_filter.mp hr
  simp only [Bool.and_eq_true, decide_eq_true_eq] at hends
  obtain ⟨hsource, htarget⟩ := h.resolves r hr
  exact ⟨mem_removeNode_modelIds.mpr ⟨hsource, hends.1⟩,
    mem_removeNode_modelIds.mpr ⟨htarget, hends.2⟩⟩

theorem drawRelation {r : RelationEdge} {nodes : List Node}
    (hsame : nodes.map Node.identity = g.nodes.map Node.identity) (hjoins : r.Joins g.modelIds) :
    ({ g.insertRelation r with nodes } : Graph).relinkEnums.InOrder := by
  have hnodes : nodes.map Node.identity = (g.insertRelation r).nodes.map Node.identity := by
    rwa [insertRelation_nodes]
  have hids : ({ g.insertRelation r with nodes } : Graph).modelIds = g.modelIds :=
    modelIds_of_identities hsame
  refine of_relinkEnums ((h.anchored.insertRelation r).withNodes hnodes)
    ((h.linked.keyed.insertRelation r).withNodes (ids_of_identities hnodes)) fun r' hr' => ?_
  rw [Resolves, hids]
  rw [insertRelation_relations] at hr'
  obtain rfl | hr' := mem_placeOrAppend hr'
  · exact hjoins.2
  · exact h.resolves r' hr'

theorem insertValues {x : Enumeration} (values : List String) (hfound : g.enum? x.id = some x) :
    (g.insertNode (.enum { x with values })).InOrder := by
  have hsame := insertNode_values_identities values hfound
  have hids : (g.insertNode (.enum { x with values })).modelIds = g.modelIds :=
    modelIds_of_identities hsame
  refine ⟨h.anchored.withNodes hsame, h.linked.insertValues values hfound, fun r hr => ?_, ?_⟩
  · rw [Resolves, hids]
    exact h.resolves r hr
  · have hedges : (g.insertNode (.enum { x with values })).enumEdges = g.enumEdges := by
      rw [enumEdges, orderedArcs_congr (ids_of_identities hsame) rfl]
      rfl
    obtain ⟨before, after, hnodes, hplaced⟩ := insertNode_values values hfound
    rw [hedges, h.order, deriveEnumEdges_insertNode values hfound]
    generalize deriveEnumEdges g.models g.enums = edges
    simp [enums, hplaced, hnodes, Node.enum?]

/-- The arc of a relation between models is not that of an enum edge. -/
theorem detach_enumEdges {e : RelationEdge} (he : e ∈ g.relations) :
    (g.detach e).enumEdges = g.enumEdges := by
  rw [enumEdges, detach_orderedArcs, List.filterMap_filter]
  refine List.filterMap_congr fun a ha => ?_
  cases hx : a.content.enumEdge? with
  | none => simp
  | some x =>
      obtain ⟨rfl, hderived⟩ := h.linked.derived a (mem_orderedArcs.mp ha).1 x hx
      have hplace : x.arc.place ≠ e.arc.place := by
        intro hsame
        have hsource : x.enumId = e.source := congrArg Prod.fst hsame
        have henum := (deriveEnumEdges_ends hderived).2
        rw [hsource] at henum
        exact h.anchored.id_not_mem_modelIds henum (h.resolves e he).1
      rw [if_pos (decide_eq_true hplace)]

theorem undraw {id : String} {e : RelationEdge} (hfound : g.relation? id = some e) :
    ((g.popRelation id).detach e).InOrder := by
  obtain ⟨he, rfl⟩ := mem_relations_of_relation? hfound
  refine ⟨h.anchored.undraw e.id e, h.linked.undraw e.id e, fun r hr => ?_, ?_⟩
  · exact h.resolves r (List.mem_filter.mp hr).1
  · exact (h.detach_enumEdges he).trans h.order

end InOrder

end Graph

namespace Session

theorem LeadsTo.anchored {s : Session} {e : Edit} {g : Graph} (hled : s.LeadsTo e g)
    (hfresh : e.IsFresh s) (h : s.graph.Anchored) : g.Anchored := by
  cases hled with
  | model m hnew =>
      exact (Graph.Anchored.foldl_attach _ (h.insertNode (n := .model m) (hnew hfresh))).relinkEnums
  | enum x hnew => exact (h.insertNode (n := .enum x) (hnew hfresh)).relinkEnums
  | rework nodes hsame => exact (h.withNodes hsame).relinkEnums
  | removal id => exact (h.removeNode id).relinkEnums
  | values x values hfound => exact h.withNodes (Graph.insertNode_values_identities values hfound)
  | relation r nodes hsame _ _ =>
      refine ((h.insertRelation r).withNodes ?_).relinkEnums
      rwa [Graph.insertRelation_nodes]
  | undrawn id r _ hfound => exact h.undraw id r

theorem LeadsTo.inOrder {s : Session} {e : Edit} {g : Graph} (hled : s.LeadsTo e g)
    (hfresh : e.IsFresh s) (h : s.graph.InOrder) : g.InOrder := by
  cases hled with
  | model m hnew => exact h.insertModel (hnew hfresh)
  | enum x hnew => exact h.insertEnum (hnew hfresh)
  | rework nodes hsame => exact h.rework hsame
  | removal id => exact h.removeNode id
  | values x values hfound => exact h.insertValues values hfound
  | relation r nodes hsame hjoins _ => exact h.drawRelation hsame hjoins
  | undrawn id r _ hfound => exact h.undraw hfound

end Session

end DrawnSchema
