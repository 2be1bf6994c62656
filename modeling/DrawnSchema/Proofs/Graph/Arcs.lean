import DrawnSchema.Proofs.Graph.EnumEdges

/-!
# Arcs as a table

An arc has a place, which is told by its ends and its key, and takes that of the arc that was there
before it. So the arcs of a graph are a table with one entry for each place. What is in the table
after some arcs were put in one by one is said here without regard to their order.
-/

namespace DrawnSchema

/-- What tells an arc from all others. -/
def Arc.place (a : Arc) : String × String × String := (a.source, a.target, a.key)

theorem Arc.same_iff {a b : Arc} : a.same b = true ↔ a.place = b.place := by
  simp [same, parallel, place, and_assoc]

/-- The arc that stands for a relation. -/
def RelationEdge.arc (e : RelationEdge) : Arc := ⟨e.source, e.target, e.id, .relation e⟩

namespace Graph

/-! ### Keys that tell items apart -/

section Keys

variable {α κ : Type} [DecidableEq κ] {key : α → κ} {l : List α}

theorem placeOrAppend_perm (h : (l.map key).Nodup) (new : α) :
    (placeOrAppend (fun a => key a = key new) new l).Perm
      (new :: l.filter fun a => key a ≠ key new) := by
  cases hfind : l.find? (fun a => key a = key new) with
  | none =>
      have hnone : ∀ a ∈ l, key a ≠ key new := by simpa using hfind
      rw [placeOrAppend_of_none fun a ha => decide_eq_false (hnone a ha),
        List.filter_eq_self.mpr fun a ha => decide_eq_true (hnone a ha)]
      exact List.perm_append_singleton new l
  | some b =>
      have hb : key b = key new := of_decide_eq_true (List.find?_some hfind :)
      obtain ⟨before, after, rfl, hplaced⟩ := placeOrAppend_of_find? new hfind
      -- No other item has the key that the two share.
      have hothers : ∀ a ∈ before ++ after, key a ≠ key new := by
        rw [List.map_append, List.map_cons, List.nodup_middle, List.nodup_cons,
          ← List.map_append] at h
        exact fun a ha hsame => h.1 (List.mem_map.mpr ⟨a, ha, hsame.trans hb.symm⟩)
      have hfilter : (before ++ b :: after).filter (fun a => key a ≠ key new) =
          before ++ after := by
        rw [List.filter_append, List.filter_cons, if_neg (by simp [hb]), ← List.filter_append]
        exact List.filter_eq_self.mpr fun a ha => decide_eq_true (hothers a ha)
      rw [hplaced, hfilter]
      exact List.perm_middle

theorem mem_placeOrAppend_iff (h : (l.map key).Nodup) {new a : α} :
    a ∈ placeOrAppend (fun b => key b = key new) new l ↔ a = new ∨ (a ∈ l ∧ key a ≠ key new) := by
  rw [(placeOrAppend_perm h new).mem_iff]
  simp

end Keys

/-! ### Putting in arcs -/

section Table

variable {arcs news : List Arc} {new a : Arc}

theorem insertParallel_perm (new : Arc) (arcs : List Arc) :
    (insertParallel new arcs).Perm (new :: arcs) := by
  induction arcs with
  | nil => exact .refl _
  | cons a arcs ih =>
      rw [insertParallel]
      split
      · exact .swap new a arcs
      · exact (ih.cons a).trans (.swap new a arcs)

theorem insertArc_perm (h : (arcs.map Arc.place).Nodup) (new : Arc) :
    (insertArc arcs new).Perm (new :: arcs.filter fun a => a.place ≠ new.place) := by
  have hsame : (fun a : Arc => a.same new) = fun a => decide (a.place = new.place) :=
    funext fun a => Bool.eq_iff_iff.mpr (Arc.same_iff.trans decide_eq_true_iff.symm)
  unfold insertArc
  rw [hsame]
  split
  · exact placeOrAppend_perm h new
  · rename_i hnone
    have hothers : ∀ a ∈ arcs, a.place ≠ new.place := by simpa using hnone
    rw [List.filter_eq_self.mpr fun a ha => decide_eq_true (hothers a ha)]
    exact insertParallel_perm new arcs

theorem insertArc_places (h : (arcs.map Arc.place).Nodup) (new : Arc) :
    ((insertArc arcs new).map Arc.place).Nodup := by
  rw [((insertArc_perm h new).map Arc.place).nodup_iff, List.map_cons, List.nodup_cons]
  refine ⟨fun hmem => ?_, h.sublist (List.filter_sublist.map _)⟩
  obtain ⟨a, ha, hsame⟩ := List.mem_map.mp hmem
  exact of_decide_eq_true (List.mem_filter.mp ha).2 hsame

theorem mem_insertArc_iff (h : (arcs.map Arc.place).Nodup) :
    a ∈ insertArc arcs new ↔ a = new ∨ (a ∈ arcs ∧ a.place ≠ new.place) := by
  rw [(insertArc_perm h new).mem_iff]
  simp

theorem foldl_insertArc_places (h : (arcs.map Arc.place).Nodup) (news : List Arc) :
    ((news.foldl insertArc arcs).map Arc.place).Nodup := by
  induction news generalizing arcs with
  | nil => exact h
  | cons new news ih => exact ih (insertArc_places h new)

/-- Arcs at different places are all found in the table that they are put in, and of those before
them the ones at other places. -/
theorem mem_foldl_insertArc_iff (h : (arcs.map Arc.place).Nodup)
    (hnews : (news.map Arc.place).Nodup) :
    a ∈ news.foldl insertArc arcs ↔ a ∈ news ∨ (a ∈ arcs ∧ a.place ∉ news.map Arc.place) := by
  induction news generalizing arcs with
  | nil => simp
  | cons new news ih =>
      obtain ⟨hfresh, hrest⟩ := List.nodup_cons.mp hnews
      rw [List.foldl_cons, ih (insertArc_places h new) hrest, mem_insertArc_iff h]
      have hnew : a = new → a.place ∉ news.map Arc.place := by
        rintro rfl
        exact hfresh
      rw [List.map_cons, List.mem_cons, List.mem_cons]
      tauto

end Table

/-! ### Graphs whose keys are distinct -/

/-- Ids tell nodes apart and relations apart, and places tell arcs apart. -/
structure Keyed (g : Graph) : Prop where
  ids : (g.nodes.map Node.id).Nodup
  relations : (g.relations.map (·.id)).Nodup
  places : (g.arcs.map Arc.place).Nodup

/-- Both ends of a relation are models. -/
def Resolves (g : Graph) (e : RelationEdge) : Prop := e.source ∈ g.modelIds ∧ e.target ∈ g.modelIds

instance (g : Graph) (e : RelationEdge) : Decidable (g.Resolves e) :=
  inferInstanceAs (Decidable (_ ∧ _))

variable {g : Graph}

theorem Resolves.mono {g' : Graph} {e : RelationEdge} (h : g.Resolves e)
    (hids : ∀ id ∈ g.modelIds, id ∈ g'.modelIds) : g'.Resolves e :=
  ⟨hids _ h.1, hids _ h.2⟩

theorem insertRelation_resolves (g : Graph) (e : RelationEdge) :
    (g.insertRelation e).Resolves = g.Resolves := by
  funext r
  simp only [Resolves, insertRelation_modelIds]

theorem model?_eq_some_iff (h : (g.nodes.map Node.id).Nodup) {id : String} {m : Model} :
    g.model? id = some m ↔ m ∈ g.models ∧ m.id = id := by
  rw [mem_models]
  constructor
  · exact fun hm => mem_nodes_of_node? (node?_of_model? hm)
  · rintro ⟨hm, hid⟩
    have hnode : g.node? id = some (.model m) := (find?_key_eq_some_iff h).mpr ⟨hm, hid⟩
    rw [model?, hnode]
    rfl

theorem model?_isSome_iff (h : (g.nodes.map Node.id).Nodup) {id : String} :
    (g.model? id).isSome = true ↔ id ∈ g.modelIds := by
  simp [Option.isSome_iff_exists, model?_eq_some_iff h, modelIds]

theorem attach_arcs (h : (g.nodes.map Node.id).Nodup) (e : RelationEdge) :
    (g.attach e).arcs = if g.Resolves e then insertArc g.arcs e.arc else g.arcs := by
  have hends : ((g.model? e.source).isSome && (g.model? e.target).isSome) = true ↔
      g.Resolves e := by
    rw [Bool.and_eq_true, model?_isSome_iff h, model?_isSome_iff h]
    rfl
  unfold attach
  by_cases he : g.Resolves e
  · rw [if_pos (hends.mpr he), if_pos he]
    rfl
  · rw [if_neg (mt hends.mp he), if_neg he]

theorem attach_nodes (g : Graph) (e : RelationEdge) : (g.attach e).nodes = g.nodes := by
  rw [attach_eq]

theorem foldl_attach_arcs (edges : List RelationEdge) (h : (g.nodes.map Node.id).Nodup) :
    (edges.foldl attach g).arcs =
      ((edges.filter g.Resolves).map RelationEdge.arc).foldl insertArc g.arcs := by
  induction edges generalizing g with
  | nil => rfl
  | cons e edges ih =>
      have hresolves : (g.attach e).Resolves = g.Resolves := by
        funext r
        simp only [Resolves, modelIds, models, attach_nodes]
      rw [List.foldl_cons, ih (by rwa [attach_nodes]), attach_arcs h, List.filter_cons]
      simp only [hresolves]
      by_cases he : g.Resolves e
      · rw [if_pos he, if_pos (decide_eq_true he)]
        rfl
      · rw [if_neg he, if_neg (by simpa using he)]

/-- A relation that is detached takes away the arc at its place, whatever it stands for. -/
theorem detach_arcs (g : Graph) (e : RelationEdge) :
    (g.detach e).arcs = g.arcs.filter fun a => a.place ≠ e.arc.place := by
  refine List.filter_congr fun a _ => ?_
  simp [Arc.place, RelationEdge.arc, Bool.and_assoc]

theorem derived_places (g : Graph) :
    (((deriveEnumEdges g.models g.enums).map EnumEdge.arc).map Arc.place).Nodup := by
  refine List.Nodup.of_map (fun p => p.2.2) ?_
  rw [List.map_map, List.map_map]
  exact (dropSeen_ids [] _).1

namespace Keyed

variable (h : g.Keyed)
include h

theorem attachRelations_arcs : g.attachRelations.arcs =
    ((g.relations.filter g.Resolves).map RelationEdge.arc).foldl insertArc g.arcs :=
  foldl_attach_arcs g.relations h.ids

theorem relation_places :
    (((g.relations.filter g.Resolves).map RelationEdge.arc).map Arc.place).Nodup := by
  refine List.Nodup.of_map (fun p => p.2.2) ?_
  rw [List.map_map, List.map_map]
  exact h.relations.sublist (List.filter_sublist.map _)

/-- Attaching puts in the arcs of the relations that join models. -/
theorem mem_attachRelations_arcs {a : Arc} : a ∈ g.attachRelations.arcs ↔
    (∃ r ∈ g.relations, g.Resolves r ∧ a = r.arc) ∨
      (a ∈ g.arcs ∧ ∀ r ∈ g.relations, g.Resolves r → r.arc.place ≠ a.place) := by
  rw [h.attachRelations_arcs, mem_foldl_insertArc_iff h.places h.relation_places]
  simp [and_assoc, eq_comm (a := a)]

theorem attachRelations : g.attachRelations.Keyed := by
  refine ⟨by simpa using h.ids, by simpa using h.relations, ?_⟩
  rw [h.attachRelations_arcs]
  exact foldl_insertArc_places h.places _

/-- Relinking puts the arcs of the derived edges in the place of those that were there. -/
theorem mem_relinkEnums_arcs {a : Arc} : a ∈ g.relinkEnums.arcs ↔
    (∃ e ∈ deriveEnumEdges g.models g.enums, a = e.arc) ∨
      (a ∈ g.arcs ∧ a.content.enumEdge? = none ∧
        ∀ e ∈ deriveEnumEdges g.models g.enums, e.arc.place ≠ a.place) := by
  rw [relinkEnums_arcs, mem_foldl_insertArc_iff (h.places.sublist (List.filter_sublist.map _))
    (derived_places g)]
  simp [and_assoc, eq_comm (a := a)]

/-- The arc of a relation starts from a model, so no enum edge takes its place. -/
theorem mem_relinkEnums_of_mem {a : Arc} (ha : a ∈ g.arcs)
    (hnone : a.content.enumEdge? = none) (hsource : a.source ∈ g.modelIds) :
    a ∈ g.relinkEnums.arcs := by
  refine h.mem_relinkEnums_arcs.mpr (.inr ⟨ha, hnone, fun x hx hplace => ?_⟩)
  have henum : a.source ∈ g.enums.map (·.id) := by
    rw [← show x.enumId = a.source from congrArg Prod.fst hplace]
    exact (deriveEnumEdges_ends hx).2
  exact List.disjoint_of_nodup_append ((ids_perm g.nodes).nodup_iff.mpr h.ids) hsource henum

theorem relinkEnums : g.relinkEnums.Keyed := by
  refine ⟨by simpa using h.ids, by simpa using h.relations, ?_⟩
  rw [relinkEnums_arcs]
  exact foldl_insertArc_places (h.places.sublist (List.filter_sublist.map _)) _

theorem insertNode (n : Node) : (g.insertNode n).Keyed :=
  ⟨placeOrAppend_nodup n h.ids, h.relations, h.places⟩

theorem insertRelation (e : RelationEdge) : (g.insertRelation e).Keyed :=
  Keyed.attachRelations ⟨h.ids, placeOrAppend_nodup e h.relations, h.places⟩

theorem withNodes {nodes : List Node} (hids : nodes.map Node.id = g.nodes.map Node.id) :
    ({ g with nodes } : Graph).Keyed :=
  ⟨hids.symm ▸ h.ids, h.relations, h.places⟩

theorem removeNode (id : String) : ((g.removeNode id).removeRelationsOf id).Keyed :=
  ⟨h.ids.sublist (List.filter_sublist.map _), h.relations.sublist (List.filter_sublist.map _),
    h.places.sublist (List.filter_sublist.map _)⟩

theorem undraw (id : String) (e : RelationEdge) : ((g.popRelation id).detach e).Keyed :=
  ⟨h.ids, h.relations.sublist (List.filter_sublist.map _),
    h.places.sublist (List.filter_sublist.map _)⟩

end Keyed

theorem drawn_keyed (d : Document) : (drawn d).Keyed := by
  have hnodes : (ofNodes d).Keyed := ⟨ofNodes_ids d, List.nodup_nil, List.nodup_nil⟩
  unfold drawn
  generalize ofNodes d = g at hnodes
  induction d.relationEdges generalizing g with
  | nil => exact hnodes
  | cons e edges ih => exact ih _ (hnodes.insertRelation e)

end Graph

end DrawnSchema
