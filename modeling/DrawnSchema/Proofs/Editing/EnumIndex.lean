import DrawnSchema.Proofs.Editing.Synthesis
import DrawnSchema.Proofs.Editing.Transitions
import DrawnSchema.Proofs.Graph.Arcs

/-!
# Enum edges are up to date

All edits but two have the enum edges derived anew. The two are the change of the values of an enum,
on which no edge depends, and the removal of a relation. This one takes away the arc that has the
ends and the id of the relation, be it the arc of the relation or not. Where it never is that of an
enum edge, the enum edges of a graph are at all times those that its models and its enums give.
-/

namespace DrawnSchema

/-- Of enums, nothing but ids and names counts for the edges to them. -/
theorem deriveEnumEdges_congr {models : List Model} {enums enums' : List Enumeration}
    (h : enums'.map (fun e => (e.id, e.name)) = enums.map fun e => (e.id, e.name)) :
    deriveEnumEdges models enums' = deriveEnumEdges models enums := by
  have hid (enums : List Enumeration) (type : String) :
      (enums.find? (·.name = type)).map (·.id) =
        ((enums.map fun e => (e.id, e.name)).find? (·.2 = type)).map (·.1) := by
    rw [List.find?_map, Option.map_map]
    rfl
  have hedge (m : Model) (f : Field) : enumEdge? enums' m f = enumEdge? enums m f := by
    have hfirst : (enums'.find? (·.name = f.type)).map (·.id) =
        (enums.find? (·.name = f.type)).map (·.id) := by rw [hid, hid, h]
    have hmap (enums : List Enumeration) : enumEdge? enums m f =
        ((enums.find? (·.name = f.type)).map (·.id)).map fun id =>
          { id := enumEdgeId m.id f.key id, enumId := id, modelId := m.id, fieldId := f.key
            fieldName := f.name } := by
      rw [Option.map_map]
      rfl
    rw [hmap, hmap, hfirst]
  unfold deriveEnumEdges
  exact congrArg (dropSeen [] <| models.flatMap ·) <|
    funext fun m => List.filterMap_congr fun f _ => hedge m f

namespace Graph

/-- A graph shows no enum edge that is not derived from its models and its enums. -/
structure Linked (g : Graph) : Prop where
  keyed : g.Keyed
  derived : ∀ a ∈ g.arcs, ∀ x, a.content.enumEdge? = some x →
    a = x.arc ∧ x ∈ deriveEnumEdges g.models g.enums

/-- A graph shows all of the enum edges that are derived from its models and its enums. -/
def ShowsEnums (g : Graph) : Prop := ∀ x ∈ deriveEnumEdges g.models g.enums, x.arc ∈ g.arcs

variable {g : Graph}

/-! ### What a linked graph shows -/

/-- Of nodes with distinct ids, no more than one has a given id. -/
theorem flatMap_ite_id {α : Type} {nodes : List Node} (h : (nodes.map Node.id).Nodup) (id : String)
    (l : List α) :
    (nodes.flatMap fun n => if n.id = id then l else []) =
      if id ∈ nodes.map Node.id then l else [] := by
  induction nodes with
  | nil => rfl
  | cons n nodes ih =>
      obtain ⟨hfresh, hrest⟩ := List.nodup_cons.mp h
      simp only [List.flatMap_cons, ih hrest, List.map_cons, List.mem_cons]
      by_cases hid : n.id = id
      · subst hid
        simp [hfresh]
      · simp [hid, Ne.symm hid]

theorem filter_orderedArcs (h : (g.nodes.map Node.id).Nodup) (id : String) :
    g.orderedArcs.filter (·.source = id) =
      if g.hasNode id then g.arcs.filter (·.source = id) else [] := by
  have hnode (n : Node) : (g.arcs.filter (·.source = n.id)).filter (·.source = id) =
      if n.id = id then g.arcs.filter (·.source = id) else [] := by
    by_cases hid : n.id = id
    · rw [if_pos hid, hid, List.filter_filter]
      simp
    · rw [if_neg hid, List.filter_filter, List.filter_eq_nil_iff]
      intro a _ ha
      simp only [Bool.and_eq_true, decide_eq_true_eq] at ha
      exact hid (ha.2.symm.trans ha.1)
  have hfound : id ∈ g.nodes.map Node.id ↔ g.hasNode id = true := by
    rw [← not_iff_not, Bool.not_eq_true, hasNode_eq_false_iff]
  rw [orderedArcs, List.filter_flatMap]
  simp only [hnode, flatMap_ite_id h, hfound]

theorem mem_orderedArcs {a : Arc} :
    a ∈ g.orderedArcs ↔ a ∈ g.arcs ∧ a.source ∈ g.nodes.map Node.id := by
  simp only [orderedArcs, List.mem_flatMap, List.mem_filter, decide_eq_true_eq, List.mem_map]
  constructor
  · rintro ⟨n, hn, ha, hsource⟩
    exact ⟨ha, n, hn, hsource.symm⟩
  · rintro ⟨ha, n, hn, hsource⟩
    exact ⟨n, hn, ha, hsource.symm⟩

theorem orderedArcs_congr {g' : Graph} (hids : g'.nodes.map Node.id = g.nodes.map Node.id)
    (harcs : g'.arcs = g.arcs) : g'.orderedArcs = g.orderedArcs := by
  have hmap (g : Graph) : g.orderedArcs =
      (g.nodes.map Node.id).flatMap fun id => g.arcs.filter (·.source = id) := by
    rw [List.flatMap_map]
    rfl
  rw [hmap, hmap, hids, harcs]

namespace Linked

variable (h : g.Linked)
include h

theorem mem_enumEdges_iff {x : EnumEdge} : x ∈ g.enumEdges ↔ x.arc ∈ g.arcs := by
  simp only [enumEdges, List.mem_filterMap, mem_orderedArcs]
  constructor
  · rintro ⟨a, ⟨ha, -⟩, hx⟩
    obtain ⟨rfl, -⟩ := h.derived a ha x hx
    exact ha
  · intro hx
    have henum := (deriveEnumEdges_ends (h.derived x.arc hx x rfl).2).2
    obtain ⟨e, he, hid⟩ := List.mem_map.mp henum
    exact ⟨x.arc, ⟨hx, List.mem_map.mpr ⟨_, mem_enums.mp he, hid⟩⟩, rfl⟩

theorem enumEdges_nodup : g.enumEdges.Nodup := by
  have hordered : g.orderedArcs.Nodup := by
    have harcs : g.arcs.Nodup := List.Nodup.of_map _ h.keyed.places
    refine List.nodup_flatMap.mpr ⟨fun n _ => harcs.sublist List.filter_sublist, ?_⟩
    refine (List.pairwise_map.mp h.keyed.ids).imp fun {n n'} hids a ha ha' => hids ?_
    have hsource := of_decide_eq_true (List.mem_filter.mp ha).2
    exact hsource.symm.trans (of_decide_eq_true (List.mem_filter.mp ha').2)
  refine List.pairwise_filterMap.mpr (hordered.imp_of_mem ?_)
  rintro a a' ha ha' hne x hx x' hx' rfl
  obtain ⟨rfl, -⟩ := h.derived a (mem_orderedArcs.mp ha).1 x hx
  exact hne (h.derived a' (mem_orderedArcs.mp ha').1 x hx').1.symm

/-- The usages of an enum are the enum edges that start from it. -/
theorem enumUsages_eq (id : String) : g.enumUsages id = g.enumEdges.filter (·.enumId = id) := by
  have hedges : g.enumEdges.filter (·.enumId = id) =
      (g.orderedArcs.filter (·.source = id)).filterMap (·.content.enumEdge?) := by
    rw [enumEdges, List.filter_filterMap, List.filterMap_filter]
    refine List.filterMap_congr fun a ha => ?_
    cases hx : a.content.enumEdge? with
    | none => simp
    | some x =>
        obtain ⟨rfl, -⟩ := h.derived a (mem_orderedArcs.mp ha).1 x hx
        by_cases hid : x.enumId = id <;> simp [EnumEdge.arc, Option.filter, hid]
  rw [hedges, filter_orderedArcs h.keyed.ids, enumUsages]
  split <;> rfl

theorem enumEdges_subperm : g.enumEdges.Subperm (deriveEnumEdges g.models g.enums) :=
  h.enumEdges_nodup.subperm fun x hx => (h.derived x.arc (h.mem_enumEdges_iff.mp hx) x rfl).2

theorem enumEdges_perm (hshown : g.ShowsEnums) :
    g.enumEdges.Perm (deriveEnumEdges g.models g.enums) := by
  have hderived : (deriveEnumEdges g.models g.enums).Nodup :=
    List.Nodup.of_map _ (dropSeen_ids [] _).1
  refine (List.perm_ext_iff_of_nodup h.enumEdges_nodup hderived).mpr fun x => ?_
  rw [h.mem_enumEdges_iff]
  exact ⟨fun hx => (h.derived x.arc hx x rfl).2, hshown x⟩

end Linked

/-! ### Changes -/

theorem Keyed.relinkEnums_linked (h : g.Keyed) :
    g.relinkEnums.Linked ∧ g.relinkEnums.ShowsEnums := by
  refine ⟨⟨h.relinkEnums, fun a ha x hx => ?_⟩, fun x hx => ?_⟩
  · rw [relinkEnums_models, relinkEnums_enums]
    obtain ⟨y, hy, rfl⟩ | ⟨-, hnone, -⟩ := h.mem_relinkEnums_arcs.mp ha
    · obtain rfl : y = x := Option.some.inj hx
      exact ⟨rfl, hy⟩
    · rw [hnone] at hx
      cases hx
  · rw [relinkEnums_models, relinkEnums_enums] at hx
    exact h.mem_relinkEnums_arcs.mpr (.inl ⟨x, hx, rfl⟩)

/-- No enum edge depends on the values of an enum. -/
theorem deriveEnumEdges_insertNode {x : Enumeration} (values : List String)
    (hfound : g.enum? x.id = some x) :
    deriveEnumEdges (g.insertNode (.enum { x with values })).models
        (g.insertNode (.enum { x with values })).enums =
      deriveEnumEdges g.models g.enums := by
  obtain ⟨before, after, hnodes, hplaced⟩ := insertNode_values values hfound
  have hmodels : (g.insertNode (.enum { x with values })).models = g.models := by
    simp [models, hplaced, hnodes, List.filterMap_cons, Node.model?]
  rw [hmodels]
  refine deriveEnumEdges_congr ?_
  simp [enums, hplaced, hnodes, Node.enum?]

theorem Linked.insertValues (h : g.Linked) {x : Enumeration} (values : List String)
    (hfound : g.enum? x.id = some x) : (g.insertNode (.enum { x with values })).Linked := by
  refine ⟨h.keyed.insertNode _, fun a ha y hy => ?_⟩
  rw [deriveEnumEdges_insertNode values hfound]
  exact h.derived a ha y hy

theorem Linked.undraw (h : g.Linked) (id : String) (e : RelationEdge) :
    ((g.popRelation id).detach e).Linked :=
  ⟨h.keyed.undraw id e, fun a ha => h.derived a (List.mem_filter.mp ha).1⟩

end Graph

namespace Edit

/-- An edit does not remove a relation that has the ends and the id of an enum edge. -/
def SparesEnumEdges (s : Session) : Edit → Prop
  | .removeRelation id => ∀ r, s.graph.relation? id = some r →
      ∀ x ∈ s.graph.enumEdges, x.arc.place ≠ r.arc.place
  | _ => True

end Edit

namespace Session

theorem Begins.linked {s : Session} (h : s.Begins) : s.graph.Linked ∧ s.graph.ShowsEnums := by
  obtain ⟨d, hgraph⟩ := h.eq_ofDocument
  rw [hgraph, Graph.ofDocument_eq_relinkEnums]
  exact (Graph.drawn_keyed d).relinkEnums_linked

theorem LeadsTo.linked {s : Session} {e : Edit} {g : Graph} (hled : s.LeadsTo e g)
    (h : s.graph.Linked) :
    g.Linked ∧ (s.graph.ShowsEnums → e.SparesEnumEdges s → g.ShowsEnums) := by
  have hrelinked {g : Graph} (hkeyed : g.Keyed) : g.relinkEnums.Linked ∧
      (s.graph.ShowsEnums → e.SparesEnumEdges s → g.relinkEnums.ShowsEnums) :=
    hkeyed.relinkEnums_linked.imp_right fun hshown _ _ => hshown
  cases hled with
  | model m _ => exact hrelinked (h.keyed.insertNode _).attachRelations
  | enum x _ => exact hrelinked (h.keyed.insertNode _)
  | rework nodes hsame =>
      exact hrelinked (h.keyed.withNodes (Graph.ids_of_identities hsame))
  | removal id => exact hrelinked (h.keyed.removeNode id)
  | values x values hfound =>
      refine ⟨h.insertValues values hfound, fun hshown _ y hy => ?_⟩
      rw [Graph.deriveEnumEdges_insertNode values hfound] at hy
      exact hshown y hy
  | relation r nodes hsame _ _ =>
      refine hrelinked ((h.keyed.insertRelation r).withNodes ?_)
      rw [Graph.insertRelation_nodes]
      exact Graph.ids_of_identities hsame
  | undrawn id r hedit hfound =>
      refine ⟨h.undraw id r, fun hshown hspares y hy => ?_⟩
      subst hedit
      have hplace := hspares r hfound y (h.mem_enumEdges_iff.mpr (hshown y hy))
      rw [Graph.detach_arcs]
      exact List.mem_filter.mpr ⟨hshown y hy, decide_eq_true hplace⟩

theorem Begins.run_linked {s : Session} (h : s.Begins) (edits : List Edit) :
    (s.run edits).graph.Linked :=
  run_keeps Graph.Linked (fun _ _ => True) (fun _ _ _ h _ hled => (hled.linked h).1) h.linked.1
    (along_of_forall (fun _ _ => trivial) s edits)

/-- Whatever is done to a graph, with success or not: each enum edge that it shows is derived from
its models and its enums, and none is shown twice; the usages of an enum are the enum edges that
start from it. If no relation was removed that had the ends and the id of an enum edge, all that are
derived are shown. -/
theorem run_enumEdges_derived {s : Session} (hbegins : s.Begins) (edits : List Edit) :
    (s.run edits).graph.enumEdges.Subperm
        (deriveEnumEdges (s.run edits).graph.models (s.run edits).graph.enums) ∧
      (∀ id, (s.run edits).graph.enumUsages id =
        (s.run edits).graph.enumEdges.filter (·.enumId = id)) ∧
      (s.Along (fun t e => e.SparesEnumEdges t) edits →
        (s.run edits).graph.enumEdges.Perm
          (deriveEnumEdges (s.run edits).graph.models (s.run edits).graph.enums)) := by
  have hlinked : (s.run edits).graph.Linked :=
    run_keeps Graph.Linked (fun _ _ => True) (fun _ _ _ h _ hled => (hled.linked h).1)
      hbegins.linked.1 (along_of_forall (fun _ _ => trivial) s edits)
  refine ⟨hlinked.enumEdges_subperm, hlinked.enumUsages_eq, fun hspares => ?_⟩
  refine hlinked.enumEdges_perm (run_keeps (fun g => g.Linked ∧ g.ShowsEnums) _ ?_
    hbegins.linked hspares).2
  exact fun t e g h he hled => (hled.linked h.1).imp_right fun hshows => hshows h.2 he

/-- The enum of roles is renamed, and a relation is removed that has nothing to do with it. -/
theorem run_enumEdges_derived_roles :
    (({} : Session).opening roles).Begins ∧
      (({} : Session).opening roles).Along (fun t e => e.SparesEnumEdges t)
        [.rename "r" "Kind", .removeRelation "e"] ∧
      ((({} : Session).opening roles).run
          [.rename "r" "Kind", .removeRelation "e"]).graph.enumEdges =
        [{ id := "enum-edge-u-role-r", enumId := "r", modelId := "u", fieldId := "role"
           fieldName := "role" }] ∧
      ((({} : Session).opening roles).run
          [.rename "r" "Kind", .removeRelation "e"]).graph.enumUsages "r" =
        [{ id := "enum-edge-u-role-r", enumId := "r", modelId := "u", fieldId := "role"
           fieldName := "role" }] := by
  have hbegins : (({} : Session).opening roles).Begins := .inr ⟨roles, rfl⟩
  have hspares : (({} : Session).opening roles).Along (fun t e => e.SparesEnumEdges t)
      [.rename "r" "Kind", .removeRelation "e"] := by
    refine ⟨trivial, fun r hr => ?_, trivial⟩
    obtain rfl := Option.some.inj hr
    decide
  obtain ⟨-, husages, hperm⟩ :=
    run_enumEdges_derived hbegins [.rename "r" "Kind", .removeRelation "e"]
  have hedges := List.perm_singleton.mp (hperm hspares)
  exact ⟨hbegins, hspares, hedges, (husages "r").trans (by rw [hedges]; rfl)⟩

/-- A relation whose source is the enum of an account, with the id of the edge between them. -/
def shadowing : Document :=
  { models := [{ id := "m", name := "Account", fields := [
      { id := some "f", name := "role", type := "Role", content := .enum {} }] }]
    enums := [{ id := "e", name := "Role", values := ["READER"] }]
    relationEdges := [{ id := "enum-edge-m-f-e", source := "e", target := "m" }] }

/-- When that relation is removed, the enum edge goes in its stead. -/
theorem run_removeRelation_shadowing :
    ¬ ∀ (d : Document) (edits : List Edit),
      ((({} : Session).opening d).run edits).graph.enumEdges.Perm
        (deriveEnumEdges ((({} : Session).opening d).run edits).graph.models
          ((({} : Session).opening d).run edits).graph.enums) := by
  intro hall
  have hperm := (hall shadowing [.removeRelation "enum-edge-m-f-e"]).length_eq
  revert hperm
  decide

end Session

end DrawnSchema
