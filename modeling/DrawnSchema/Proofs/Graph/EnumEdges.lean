import DrawnSchema.Proofs.Graph.Hydration
import DrawnSchema.Proofs.Relation.EnumEdges

/-!
# The order of enum edges

A graph shows its enum edges node by node, and for each node in the order of its arcs. Arcs go next
to the ones that are parallel to them, which might part that order from the order of derivation. It
does not: edges are derived model by model, so those between an enum and a model come one after the
other anyway. What a graph shows after relinking is told by its models and its enums alone.
-/

namespace DrawnSchema

/-! ### Arcs that start from one node -/

def EnumEdge.arc (e : EnumEdge) : Arc := ⟨e.enumId, e.modelId, e.id, .enumEdge e⟩

namespace Graph

section Insertion

variable {α : Type} {p q same : α → Bool} {keep : Arc → Bool} {new : Arc}

theorem any_filter_of_imp {l : List α} (h : ∀ a, q a = true → p a = true) :
    (l.filter p).any q = l.any q := by
  rw [List.any_filter]
  refine congrArg (l.any ·) (funext fun a => ?_)
  cases hq : q a with
  | false => rw [Bool.and_false]
  | true => rw [h a hq, Bool.and_true]

theorem filter_placeOrAppend {new : α} (h : ∀ a, same a = true → p a = p new) (l : List α) :
    (placeOrAppend same new l).filter p =
      if p new = true then placeOrAppend same new (l.filter p) else l.filter p := by
  induction l with
  | nil => cases hnew : p new <;> simp [placeOrAppend, hnew]
  | cons a l ih =>
      rw [placeOrAppend]
      by_cases ha : same a = true
      · have hpa : p a = p new := h a ha
        cases hnew : p new <;> simp [placeOrAppend, ha, hpa, hnew]
      · rw [if_neg ha, List.filter_cons, ih, List.filter_cons]
        cases hpa : p a <;> cases hnew : p new <;> simp [placeOrAppend, ha]

theorem filter_insertParallel (h : ∀ a, a.parallel new = true → keep a = keep new)
    (arcs : List Arc) :
    (insertParallel new arcs).filter keep =
      if keep new = true then insertParallel new (arcs.filter keep) else arcs.filter keep := by
  induction arcs with
  | nil => cases hnew : keep new <;> simp [insertParallel, hnew]
  | cons a arcs ih =>
      rw [insertParallel, List.filter_cons]
      -- Where the new arc goes is told by the arcs parallel to it, which are all kept if it is.
      cases hnew : keep new with
      | false =>
          simp only [hnew, Bool.false_eq_true, if_false] at ih ⊢
          split
          · rw [List.filter_cons, List.filter_cons, hnew, if_neg Bool.false_ne_true]
          · rw [List.filter_cons, ih]
      | true =>
          have hparallel : ∀ b, b.parallel new = true → keep b = true :=
            fun b hb => (h b hb).trans hnew
          have hrest : (arcs.filter keep).any (·.parallel new) = arcs.any (·.parallel new) :=
            any_filter_of_imp hparallel
          simp only [hnew, if_true] at ih ⊢
          by_cases ha : a.parallel new = true
          · rw [hparallel a ha, if_pos rfl, insertParallel, hrest]
            split
            · rw [List.filter_cons, List.filter_cons, hparallel a ha, hnew, if_pos rfl, if_pos rfl]
            · rw [List.filter_cons, ih, hparallel a ha, if_pos rfl]
          · rw [if_neg (by simp [ha]), List.filter_cons, ih]
            split
            · rw [insertParallel, if_neg (by simp [ha])]
            · rfl

theorem filter_insertArc (h : ∀ a, a.parallel new = true → keep a = keep new) (arcs : List Arc) :
    (insertArc arcs new).filter keep =
      if keep new = true then insertArc (arcs.filter keep) new else arcs.filter keep := by
  have hsame : ∀ a, a.same new = true → keep a = keep new := fun a ha =>
    h a (Bool.and_eq_true_iff.mp ha).1
  unfold insertArc
  cases hnew : keep new with
  | false =>
      rw [if_neg Bool.false_ne_true]
      split
      · rw [filter_placeOrAppend hsame, hnew, if_neg Bool.false_ne_true]
      · rw [filter_insertParallel h, hnew, if_neg Bool.false_ne_true]
  | true =>
      have hany : (arcs.filter keep).any (·.same new) = arcs.any (·.same new) :=
        any_filter_of_imp fun a ha => (hsame a ha).trans hnew
      rw [if_pos rfl, hany]
      split
      · rw [filter_placeOrAppend hsame, hnew, if_pos rfl]
      · rw [filter_insertParallel h, hnew, if_pos rfl]

/-- Among the arcs from one node, those from other nodes make no difference. -/
theorem filter_foldl_insertArc (arcs news : List Arc) (id : String) :
    (news.foldl insertArc arcs).filter (·.source = id) =
      (news.filter (·.source = id)).foldl insertArc (arcs.filter (·.source = id)) := by
  induction news generalizing arcs with
  | nil => rfl
  | cons new news ih =>
      have hsource : ∀ a : Arc, a.parallel new = true →
          decide (a.source = id) = decide (new.source = id) := by
        intro a ha
        have heq : a.source = new.source := by
          simpa using (Bool.and_eq_true_iff.mp ha).1
        rw [heq]
      rw [List.foldl_cons, ih, filter_insertArc hsource, List.filter_cons]
      split
      · rw [List.foldl_cons]
      · rfl

theorem mem_insertArc {arcs : List Arc} {a : Arc} (h : a ∈ insertArc arcs new) :
    a = new ∨ a ∈ arcs := by
  unfold insertArc at h
  split at h
  · exact mem_placeOrAppend h
  · clear * - h
    induction arcs with
    | nil => exact Or.inl (List.mem_singleton.mp h)
    | cons b arcs ih =>
        rw [insertParallel] at h
        split at h
        · simp only [List.mem_cons] at h ⊢
          tauto
        · obtain rfl | h := List.mem_cons.mp h
          · exact Or.inr List.mem_cons_self
          · exact (ih h).imp_right (List.mem_cons_of_mem b)

theorem mem_foldl_insertArc {arcs news : List Arc} {a : Arc} (h : a ∈ news.foldl insertArc arcs) :
    a ∈ news ∨ a ∈ arcs := by
  induction news generalizing arcs with
  | nil => exact Or.inr h
  | cons new news ih =>
      obtain hrest | hfirst := ih h
      · exact Or.inl (List.mem_cons_of_mem new hrest)
      · obtain rfl | hold := mem_insertArc hfirst
        · exact Or.inl List.mem_cons_self
        · exact Or.inr hold

/-- A new arc goes to the end if nothing follows the arcs that are parallel to it. -/
theorem insertParallel_eq_append {arcs : List Arc}
    (h : arcs.Pairwise fun a b => a.parallel new = true → b.parallel new = true) :
    insertParallel new arcs = arcs ++ [new] := by
  induction arcs with
  | nil => rfl
  | cons a arcs ih =>
      obtain ⟨hfirst, hrest⟩ := List.pairwise_cons.mp h
      rw [insertParallel, ih hrest]
      split
      · rename_i hlast
        obtain ⟨ha, hnone⟩ := Bool.and_eq_true_iff.mp hlast
        have hnil : arcs = [] := by
          refine List.eq_nil_iff_forall_not_mem.mpr fun b hb => ?_
          have hany : arcs.any (·.parallel new) = true :=
            List.any_eq_true.mpr ⟨b, hb, hfirst b hb ha⟩
          rw [hany] at hnone
          cases hnone
        rw [hnil]
        rfl
      · rfl

/-- Arcs that come sorted, the parallel ones at one place and each with a key of its own, stay in
their order. -/
theorem foldl_insertArc_of_sorted (place : Arc → Nat) {arcs news : List Arc}
    (hkeys : ((arcs ++ news).map (·.key)).Nodup)
    (hsorted : (arcs ++ news).Pairwise fun a b => place a ≤ place b)
    (hplace : ∀ a ∈ arcs ++ news, ∀ b ∈ arcs ++ news, a.parallel b = true ↔ place a = place b) :
    news.foldl insertArc arcs = arcs ++ news := by
  induction news generalizing arcs with
  | nil => exact (List.append_nil arcs).symm
  | cons new news ih =>
      -- By the order of places, nothing but parallel arcs follows one that is parallel to `new`.
      have hstep : insertArc arcs new = arcs ++ [new] := by
        have hfresh : arcs.any (·.same new) = false := by
          refine List.any_eq_false.mpr fun a ha hsame => ?_
          rw [List.map_append, List.nodup_append] at hkeys
          refine hkeys.2.2 _ (List.mem_map_of_mem ha) new.key (by simp) ?_
          simpa using (Bool.and_eq_true_iff.mp hsame).2
        obtain ⟨harcs, -, hbefore⟩ := List.pairwise_append.mp hsorted
        have hgroup : arcs.Pairwise fun a b => a.parallel new = true → b.parallel new = true := by
          refine harcs.imp_of_mem fun {a b} ha hb hab hparallel => ?_
          have hnew : new ∈ arcs ++ new :: news := by simp
          have hplaceA := (hplace a (List.mem_append_left _ ha) new hnew).mp hparallel
          have hplaceB := hbefore b hb new List.mem_cons_self
          exact (hplace b (List.mem_append_left _ hb) new hnew).mpr (by omega)
        rw [insertArc, hfresh, if_neg Bool.false_ne_true, insertParallel_eq_append hgroup]
      rw [List.append_cons] at hkeys hsorted hplace ⊢
      rw [List.foldl_cons, hstep, ih hkeys hsorted hplace]

end Insertion

/-! ### Graphs with relations between models -/

/-- Ids tell nodes apart, and arcs that stand for relations start from models. -/
structure Anchored (g : Graph) : Prop where
  ids : (g.nodes.map Node.id).Nodup
  sources : ∀ a ∈ g.arcs, a.content.enumEdge? = none → a.source ∈ g.modelIds

variable {g : Graph}

theorem foldl_link_arcs (edges : List EnumEdge) (g : Graph) :
    (edges.foldl link g).arcs = (edges.map EnumEdge.arc).foldl insertArc g.arcs := by
  induction edges generalizing g with
  | nil => rfl
  | cons e edges ih => exact ih (g.link e)

theorem relinkEnums_arcs (g : Graph) :
    g.relinkEnums.arcs = ((deriveEnumEdges g.models g.enums).map EnumEdge.arc).foldl insertArc
      (g.arcs.filter fun a => a.content.enumEdge?.isNone) :=
  foldl_link_arcs _ _

theorem Anchored.nodup (h : g.Anchored) :
    (g.modelIds ++ g.enums.map (·.id)).Nodup :=
  (ids_perm g.nodes).nodup_iff.mpr h.ids

theorem Anchored.modelIds_nodup (h : g.Anchored) : g.modelIds.Nodup :=
  h.nodup.of_append_left

theorem Anchored.id_not_mem_modelIds (h : g.Anchored) {id : String}
    (hid : id ∈ g.enums.map (·.id)) : id ∉ g.modelIds :=
  fun hmodel => List.disjoint_of_nodup_append h.nodup hmodel hid

theorem mem_relinkEnums_arcs {a : Arc} (h : a ∈ g.relinkEnums.arcs) :
    (a.content.enumEdge? = none ∧ a ∈ g.arcs) ∨
      ∃ e ∈ deriveEnumEdges g.models g.enums, a = e.arc := by
  rw [relinkEnums_arcs] at h
  obtain hnew | hkept := mem_foldl_insertArc h
  · obtain ⟨e, he, rfl⟩ := List.mem_map.mp hnew
    exact Or.inr ⟨e, he, rfl⟩
  · obtain ⟨ha, hnone⟩ := List.mem_filter.mp hkept
    exact Or.inl ⟨by simpa using hnone, ha⟩

theorem Anchored.relinkEnums (h : g.Anchored) : g.relinkEnums.Anchored := by
  refine ⟨by simpa using h.ids, fun a ha hnone => ?_⟩
  rw [relinkEnums_modelIds]
  obtain ⟨-, ha⟩ | ⟨e, -, rfl⟩ := mem_relinkEnums_arcs ha
  · exact h.sources a ha hnone
  · cases hnone

/-- A model is the source of no enum edge. -/
theorem Anchored.enumEdges_of_model (h : g.Anchored) {m : Model} (hm : m ∈ g.models) :
    (g.relinkEnums.arcs.filter (·.source = m.id)).filterMap (·.content.enumEdge?) = [] := by
  refine List.filterMap_eq_nil_iff.mpr fun a ha => ?_
  obtain ⟨ha, hsource⟩ := List.mem_filter.mp ha
  obtain ⟨hnone, -⟩ | ⟨e, he, rfl⟩ := mem_relinkEnums_arcs ha
  · exact hnone
  · have hid : e.enumId = m.id := of_decide_eq_true hsource
    have henum : m.id ∈ g.enums.map (·.id) := hid ▸ (deriveEnumEdges_ends he).2
    exact absurd (List.mem_map_of_mem hm) (h.id_not_mem_modelIds henum)

/-- The edges of an enum are shown as they are derived. -/
theorem Anchored.enumEdges_of_enum (h : g.Anchored) {e : Enumeration} (he : e ∈ g.enums) :
    (g.relinkEnums.arcs.filter (·.source = e.id)).filterMap (·.content.enumEdge?) =
      (deriveEnumEdges g.models g.enums).filter (·.enumId = e.id) := by
  have hkept : (g.arcs.filter fun a => a.content.enumEdge?.isNone).filter (·.source = e.id) =
      [] := by
    refine List.filter_eq_nil_iff.mpr fun a ha hsource => ?_
    obtain ⟨ha, hnone⟩ := List.mem_filter.mp ha
    have hmodel : a.source ∈ g.modelIds := h.sources a ha (by simpa using hnone)
    rw [of_decide_eq_true hsource] at hmodel
    exact h.id_not_mem_modelIds (List.mem_map_of_mem he) hmodel
  have hnews : ((deriveEnumEdges g.models g.enums).map EnumEdge.arc).filter (·.source = e.id) =
      ((deriveEnumEdges g.models g.enums).filter (·.enumId = e.id)).map EnumEdge.arc :=
    List.filter_map
  have hsublist : ((deriveEnumEdges g.models g.enums).filter (·.enumId = e.id)).Sublist
      (deriveEnumEdges g.models g.enums) := List.filter_sublist
  have hinserted : (((deriveEnumEdges g.models g.enums).filter (·.enumId = e.id)).map
      EnumEdge.arc).foldl insertArc [] =
        ((deriveEnumEdges g.models g.enums).filter (·.enumId = e.id)).map EnumEdge.arc := by
    refine foldl_insertArc_of_sorted (fun a => g.modelIds.idxOf a.target) ?_ ?_ ?_
    · rw [List.nil_append, List.map_map]
      exact (dropSeen_ids [] _).1.sublist (hsublist.map _)
    · rw [List.nil_append]
      have hsorted := (deriveEnumEdges_sorted h.modelIds_nodup g.enums).sublist hsublist
      exact List.pairwise_map.mpr hsorted
    · rw [List.nil_append]
      intro a ha b hb
      obtain ⟨first, hfirst, rfl⟩ := List.mem_map.mp ha
      obtain ⟨second, hsecond, rfl⟩ := List.mem_map.mp hb
      obtain ⟨hderived, hfirstEnum⟩ := List.mem_filter.mp hfirst
      obtain ⟨-, hsecondEnum⟩ := List.mem_filter.mp hsecond
      have hsource : first.enumId = second.enumId :=
        (of_decide_eq_true hfirstEnum).trans (of_decide_eq_true hsecondEnum).symm
      have htarget : g.modelIds.idxOf first.modelId = g.modelIds.idxOf second.modelId ↔
          first.modelId = second.modelId := List.idxOf_inj (deriveEnumEdges_ends hderived).1
      simp [EnumEdge.arc, Arc.parallel, hsource, htarget]
  calc (g.relinkEnums.arcs.filter (·.source = e.id)).filterMap (·.content.enumEdge?)
      = (((deriveEnumEdges g.models g.enums).filter (·.enumId = e.id)).map
          EnumEdge.arc).filterMap (·.content.enumEdge?) := by
        rw [relinkEnums_arcs, filter_foldl_insertArc, hkept, hnews, hinserted]
    _ = ((deriveEnumEdges g.models g.enums).filter (·.enumId = e.id)).filterMap some :=
        List.filterMap_map
    _ = (deriveEnumEdges g.models g.enums).filter (·.enumId = e.id) := List.filterMap_some

/-- Relinked, a graph shows the edges that are derived from its models and its enums, enum by
enum. -/
theorem Anchored.relinkEnums_enumEdges (h : g.Anchored) :
    g.relinkEnums.enumEdges = g.enums.flatMap fun e =>
      (deriveEnumEdges g.models g.enums).filter (·.enumId = e.id) := by
  have hnodes (nodes : List Node) (hnodes : ∀ n ∈ nodes, n ∈ g.nodes) :
      (nodes.flatMap fun n => g.relinkEnums.arcs.filter (·.source = n.id)).filterMap
          (·.content.enumEdge?) =
        (nodes.filterMap Node.enum?).flatMap fun e =>
          (deriveEnumEdges g.models g.enums).filter (·.enumId = e.id) := by
    induction nodes with
    | nil => rfl
    | cons n nodes ih =>
        have hrest := ih fun n' hn' => hnodes n' (List.mem_cons_of_mem n hn')
        rw [List.flatMap_cons, List.filterMap_append, hrest]
        cases n with
        | model m =>
            have hm : m ∈ g.models := mem_models.mpr (hnodes _ List.mem_cons_self)
            exact congrArg (· ++ _) (h.enumEdges_of_model hm)
        | enum e =>
            have he : e ∈ g.enums := mem_enums.mpr (hnodes _ List.mem_cons_self)
            exact congrArg (· ++ _) (h.enumEdges_of_enum he)
  rw [enumEdges, orderedArcs, relinkEnums_nodes]
  exact hnodes g.nodes fun _ hn => hn

end Graph

/-- A document with the enum edges that its models and its enums give, enum by enum. -/
def Document.linked (d : Document) : Document :=
  { d with
    enumEdges := d.enums.flatMap fun e =>
      (deriveEnumEdges d.models d.enums).filter (·.enumId = e.id) }

namespace Graph

variable {g : Graph}

theorem Anchored.relinkEnums_toDocument (h : g.Anchored) :
    g.relinkEnums.toDocument = g.toDocument.linked := by
  rw [toDocument, h.relinkEnums_enumEdges, relinkEnums_eq]
  rfl

/-! ### The graph of a document -/

theorem mem_modelIds_of_model? {id : String} (h : (g.model? id).isSome = true) :
    id ∈ g.modelIds := by
  obtain ⟨m, hm⟩ := Option.isSome_iff_exists.mp h
  obtain ⟨hnode, hid⟩ := mem_nodes_of_node? (node?_of_model? hm)
  exact mem_modelIds.mpr ⟨m, hnode, hid⟩

theorem Anchored.attach (h : g.Anchored) (e : RelationEdge) : (g.attach e).Anchored := by
  unfold Graph.attach
  split
  · rename_i hends
    refine ⟨h.ids, fun a ha hnone => ?_⟩
    obtain rfl | ha := mem_insertArc ha
    · exact mem_modelIds_of_model? (Bool.and_eq_true_iff.mp hends).1
    · exact h.sources a ha hnone
  · exact h

theorem Anchored.foldl_attach (edges : List RelationEdge) (h : g.Anchored) :
    (edges.foldl Graph.attach g).Anchored := by
  induction edges generalizing g with
  | nil => exact h
  | cons e edges ih => exact ih (h.attach e)

theorem Anchored.insertRelation (h : g.Anchored) (e : RelationEdge) :
    (g.insertRelation e).Anchored :=
  Anchored.foldl_attach _ ⟨h.ids, h.sources⟩

theorem drawn_anchored (d : Document) : (drawn d).Anchored := by
  have hnodes : (ofNodes d).Anchored := ⟨ofNodes_ids d, fun a ha => by cases ha⟩
  unfold drawn
  generalize ofNodes d = g at hnodes
  induction d.relationEdges generalizing g with
  | nil => exact hnodes
  | cons e edges ih => exact ih _ (hnodes.insertRelation e)

theorem ofDocument_anchored (d : Document) : (ofDocument d).Anchored := by
  rw [ofDocument_eq_relinkEnums]
  exact (drawn_anchored d).relinkEnums

theorem ofDocument_linked (d : Document) :
    (ofDocument d).toDocument.linked = (ofDocument d).toDocument := by
  rw [ofDocument_eq_relinkEnums, (drawn_anchored d).relinkEnums_toDocument]
  rfl

end Graph

/-- Where ids are distinct, the graph of a document shows it with its enum edges derived anew. -/
theorem Document.HasDistinctIds.ofDocument_toDocument {d : Document} (h : d.HasDistinctIds) :
    (Graph.ofDocument d).toDocument = d.linked := by
  rw [← Graph.ofDocument_linked]
  simp only [Graph.toDocument, linked, h.ofDocument_models, h.ofDocument_enums,
    h.ofDocument_relations]
  rw [Graph.ofDocument_eq]
  rfl

end DrawnSchema
