import DrawnSchema.Proofs.Editing.Synthesis
import DrawnSchema.Proofs.Editing.Transitions
import DrawnSchema.Proofs.Graph.Arcs

/-!
# The relations of a model

Relations are kept in a list, with those among them whose ends are not models. A question for the
relations of a model is answered from the arcs. The two agree at all times: an arc that stands for a
relation is that of one in the list that joins models, and each such relation has its arc.
-/

namespace DrawnSchema

theorem ArcContent.relation?_eq_none_iff {c : ArcContent} :
    c.relation? = none ↔ c.enumEdge? ≠ none := by
  cases c <;> simp [relation?, enumEdge?]

namespace RelationEdge

/-- The end of a relation from which it is seen in a direction. -/
def nearEnd (direction : Graph.Direction) (e : RelationEdge) : String :=
  match direction with
  | .outgoing => e.source
  | .incoming => e.target

def farEnd (direction : Graph.Direction) (e : RelationEdge) : String :=
  match direction with
  | .outgoing => e.target
  | .incoming => e.source

end RelationEdge

namespace Graph

/-- The arcs that stand for relations are those of the relations that join models. -/
structure Indexed (g : Graph) : Prop where
  keyed : g.Keyed
  arcs : ∀ a, (a ∈ g.arcs ∧ a.content.enumEdge? = none) ↔
    ∃ r ∈ g.relations, g.Resolves r ∧ a = r.arc

/-- What a model has to show of its relations of a direction: one view for each relation in the list
whose far end is a model too. -/
def relationViews (g : Graph) (direction : Direction) (id : String) : List RelationView :=
  (g.relations.filter (·.nearEnd direction = id)).filterMap fun r =>
    (g.model? (r.farEnd direction)).map fun m =>
      { id := r.id, type := r.type, other := m.name, direction }

variable {g : Graph}

theorem resolves_iff {r : RelationEdge} (direction : Direction) :
    g.Resolves r ↔ r.nearEnd direction ∈ g.modelIds ∧ r.farEnd direction ∈ g.modelIds := by
  cases direction with
  | outgoing => exact Iff.rfl
  | incoming => exact and_comm

theorem relationView?_eq_none (direction : Direction) {a : Arc} (ha : a.content.enumEdge? ≠ none) :
    g.relationView? direction a = none := by
  unfold relationView?
  rw [ArcContent.relation?_eq_none_iff.mpr ha]
  rfl

theorem relationView?_arc {r : RelationEdge} {direction : Direction} {m : Model}
    (hm : g.model? (r.farEnd direction) = some m) :
    g.relationView? direction r.arc =
      some { id := r.id, type := r.type, other := m.name, direction } := by
  cases direction with
  | outgoing =>
      have hnode : g.node? r.target = some (.model m) := node?_of_model? hm
      simp [relationView?, RelationEdge.arc, ArcContent.relation?, hnode, Node.name]
  | incoming =>
      have hnode : g.node? r.source = some (.model m) := node?_of_model? hm
      simp [relationView?, RelationEdge.arc, ArcContent.relation?, hnode, Node.name]

theorem relationView?_direction {direction : Direction} {a : Arc} {v : RelationView}
    (hv : g.relationView? direction a = some v) : v.direction = direction := by
  obtain ⟨r, -, rfl⟩ := Option.map_eq_some_iff.mp hv
  rfl

theorem filter_views (arcs : List Arc) (direction direction' : Direction) :
    (arcs.filterMap (g.relationView? direction)).filter (·.direction = direction') =
      if direction = direction' then arcs.filterMap (g.relationView? direction) else [] := by
  have hdirection : ∀ v ∈ arcs.filterMap (g.relationView? direction), v.direction = direction := by
    intro v hv
    obtain ⟨a, -, ha⟩ := List.mem_filterMap.mp hv
    exact relationView?_direction ha
  split
  · rename_i hsame
    exact List.filter_eq_self.mpr fun v hv => decide_eq_true ((hdirection v hv).trans hsame)
  · rename_i hother
    refine List.filter_eq_nil_iff.mpr fun v hv hsame => hother ?_
    exact (hdirection v hv).symm.trans (of_decide_eq_true hsame)

theorem mem_relationViews {direction : Direction} {id : String} {v : RelationView} :
    v ∈ g.relationViews direction id ↔
      ∃ r ∈ g.relations, r.nearEnd direction = id ∧ ∃ m, g.model? (r.farEnd direction) = some m ∧
        v = { id := r.id, type := r.type, other := m.name, direction } := by
  simp only [relationViews, List.mem_filterMap, List.mem_filter, decide_eq_true_eq,
    Option.map_eq_some_iff, and_assoc, eq_comm (a := v)]

/-! ### What an indexed graph shows -/

namespace Indexed

variable (h : g.Indexed)
include h

theorem arcs_perm : (g.arcs.filter fun a => a.content.enumEdge?.isNone).Perm
    ((g.relations.filter g.Resolves).map RelationEdge.arc) := by
  have harcs : (g.arcs.filter fun a => a.content.enumEdge?.isNone).Nodup :=
    (List.Nodup.of_map _ h.keyed.places).sublist List.filter_sublist
  have hrelations : ((g.relations.filter g.Resolves).map RelationEdge.arc).Nodup :=
    List.Nodup.of_map _ h.keyed.relation_places
  refine (List.perm_ext_iff_of_nodup harcs hrelations).mpr fun a => ?_
  have hmem := h.arcs a
  simp only [List.mem_filter, Option.isNone_iff_eq_none, hmem, List.mem_map, decide_eq_true_eq]
  constructor
  · rintro ⟨r, hr, hresolves, rfl⟩
    exact ⟨r, ⟨hr, hresolves⟩, rfl⟩
  · rintro ⟨r, ⟨hr, hresolves⟩, rfl⟩
    exact ⟨r, hr, hresolves, rfl⟩

/-- What is read from the arcs for relations can be read from the relations that join models. -/
theorem filterMap_perm {β : Type} {p : Arc → Bool} {f : Arc → Option β}
    (hf : ∀ a, a.content.enumEdge? ≠ none → f a = none) :
    ((g.arcs.filter p).filterMap f).Perm
      (((g.relations.filter g.Resolves).filter (p ·.arc)).filterMap (f ·.arc)) := by
  have hkept (arcs : List Arc) :
      (arcs.filter fun a => a.content.enumEdge?.isNone).filterMap f = arcs.filterMap f := by
    rw [List.filterMap_filter]
    refine List.filterMap_congr fun a _ => ?_
    by_cases hnone : a.content.enumEdge? = none
    · simp [hnone]
    · simp [hnone, hf a hnone]
  rw [← hkept, List.filter_comm]
  refine ((h.arcs_perm.filter p).filterMap f).trans ?_
  rw [List.filter_map, List.filterMap_map]
  rfl

/-- The arcs at a model give its views of a direction. -/
theorem views_perm {direction : Direction} {id : String} {near : Arc → Bool}
    (hnear : ∀ r : RelationEdge, near r.arc = decide (r.nearEnd direction = id))
    (hid : id ∈ g.modelIds) :
    ((g.arcs.filter near).filterMap (g.relationView? direction)).Perm
      (g.relationViews direction id) := by
  refine (h.filterMap_perm fun a ha => relationView?_eq_none direction ha).trans (.of_eq ?_)
  simp only [hnear]
  rw [List.filter_comm, List.filterMap_filter, relationViews]
  refine List.filterMap_congr fun r hr => ?_
  have hend : r.nearEnd direction = id := of_decide_eq_true (List.mem_filter.mp hr).2
  have hresolves : g.Resolves r ↔ (g.model? (r.farEnd direction)).isSome = true := by
    rw [resolves_iff direction, hend, model?_isSome_iff h.keyed.ids, and_iff_right hid]
  cases hm : g.model? (r.farEnd direction) with
  | none => simp [hresolves, hm]
  | some m => simp [hresolves, hm, relationView?_arc hm]

theorem relationsOf_eq_nil {id : String} (hid : id ∉ g.modelIds) : g.relationsOf id = [] := by
  have hviews (direction : Direction) (near : Arc → Bool)
      (hnear : ∀ r : RelationEdge, near r.arc = true → r.nearEnd direction = id) :
      (g.arcs.filter near).filterMap (g.relationView? direction) = [] := by
    refine List.filterMap_eq_nil_iff.mpr fun a ha => relationView?_eq_none direction fun hnone => ?_
    obtain ⟨ha, hend⟩ := List.mem_filter.mp ha
    obtain ⟨r, -, hresolves, rfl⟩ := (h.arcs a).mp ⟨ha, hnone⟩
    exact hid (hnear r hend ▸ ((resolves_iff direction).mp hresolves).1)
  have houtgoing := hviews .outgoing (·.source = id) fun r hr => of_decide_eq_true hr
  have hincoming := hviews .incoming (·.target = id) fun r hr => of_decide_eq_true hr
  rw [relationsOf, houtgoing, hincoming]
  split <;> rfl

theorem relationsOf_perm (direction : Direction) {id : String} (hid : id ∈ g.modelIds) :
    ((g.relationsOf id).filter (·.direction = direction)).Perm (g.relationViews direction id) := by
  have hnode : g.hasNode id = true := by
    obtain ⟨m, hm, rfl⟩ := mem_modelIds.mp hid
    rw [← Bool.not_eq_false, hasNode_eq_false_iff, not_not]
    exact List.mem_map_of_mem hm
  rw [relationsOf, if_pos hnode, List.filter_append, filter_views, filter_views]
  cases direction with
  | outgoing =>
      rw [if_pos rfl, if_neg (by decide), List.append_nil]
      exact h.views_perm (fun _ => rfl) hid
  | incoming =>
      rw [if_neg (by decide), if_pos rfl, List.nil_append]
      exact h.views_perm (fun _ => rfl) hid

theorem hasRelations_iff {id : String} :
    g.hasRelations id = true ↔
      ∃ r ∈ g.relations, g.Resolves r ∧ (r.source = id ∨ r.target = id) := by
  have hsome : g.hasRelations id = true ↔ ∃ v, v ∈ g.relationsOf id := by
    rw [hasRelations, Bool.not_eq_true', List.isEmpty_eq_false_iff_exists_mem]
  rw [hsome]
  constructor
  · rintro ⟨v, hv⟩
    have hid : id ∈ g.modelIds := by
      by_contra hid
      rw [h.relationsOf_eq_nil hid] at hv
      cases hv
    have hview : v ∈ g.relationViews v.direction id :=
      (h.relationsOf_perm v.direction hid).mem_iff.mp
        (List.mem_filter.mpr ⟨hv, decide_eq_true rfl⟩)
    obtain ⟨r, hr, hnear, m, hm, -⟩ := mem_relationViews.mp hview
    have hfar := mem_modelIds_of_model? (Option.isSome_iff_exists.mpr ⟨m, hm⟩)
    refine ⟨r, hr, (resolves_iff v.direction).mpr ⟨hnear ▸ hid, hfar⟩, ?_⟩
    cases hdirection : v.direction with
    | outgoing => exact .inl (hdirection ▸ hnear :)
    | incoming => exact .inr (hdirection ▸ hnear :)
  · rintro ⟨r, hr, hresolves, hend⟩
    obtain ⟨direction, hnear⟩ : ∃ direction, r.nearEnd direction = id :=
      hend.elim (fun hsource => ⟨.outgoing, hsource⟩) fun htarget => ⟨.incoming, htarget⟩
    obtain ⟨hid, hfar⟩ := (resolves_iff direction).mp hresolves
    rw [hnear] at hid
    obtain ⟨m, hm⟩ := Option.isSome_iff_exists.mp ((model?_isSome_iff h.keyed.ids).mpr hfar)
    have hview := (h.relationsOf_perm direction hid).mem_iff.mpr
      (mem_relationViews.mpr ⟨r, hr, hnear, m, hm, rfl⟩)
    exact ⟨_, (List.mem_filter.mp hview).1⟩

end Indexed

/-! ### Changes -/

/-- If relations that join models have the places of all arcs that stand for relations, attaching
brings the arcs up to date. -/
theorem Keyed.attachRelations_indexed (h : g.Keyed)
    (hplaces : ∀ a ∈ g.arcs, a.content.enumEdge? = none →
      ∃ r ∈ g.relations, g.Resolves r ∧ r.arc.place = a.place) :
    g.attachRelations.Indexed := by
  have hresolves : g.attachRelations.Resolves = g.Resolves := by
    funext r
    simp only [Resolves, modelIds, models, attachRelations_nodes]
  refine ⟨h.attachRelations, fun a => ?_⟩
  rw [attachRelations_relations, hresolves, h.mem_attachRelations_arcs]
  constructor
  · rintro ⟨hnew | ⟨ha, hothers⟩, hnone⟩
    · exact hnew
    · obtain ⟨r, hr, hresolves, hplace⟩ := hplaces a ha hnone
      exact absurd hplace (hothers r hr hresolves)
  · rintro ⟨r, hr, hresolves, rfl⟩
    exact ⟨.inl ⟨r, hr, hresolves, rfl⟩, rfl⟩

namespace Indexed

variable (h : g.Indexed)
include h

/-- The arcs of enum edges start from enums, so they are at other places than those of relations. -/
theorem relinkEnums : g.relinkEnums.Indexed := by
  refine ⟨h.keyed.relinkEnums, fun a => ?_⟩
  simp only [relinkEnums_relations, Resolves, relinkEnums_modelIds]
  rw [h.keyed.mem_relinkEnums_arcs]
  constructor
  · rintro ⟨⟨x, -, rfl⟩ | ⟨ha, -, -⟩, hnone⟩
    · cases hnone
    · exact (h.arcs a).mp ⟨ha, hnone⟩
  · rintro ⟨r, hr, hresolves, rfl⟩
    obtain ⟨ha, hnone⟩ := (h.arcs r.arc).mpr ⟨r, hr, hresolves, rfl⟩
    have hkept := h.keyed.mem_relinkEnums_of_mem ha hnone hresolves.1
    exact ⟨h.keyed.mem_relinkEnums_arcs.mp hkept, hnone⟩

theorem congr {g' : Graph} (hkeyed : g'.Keyed) (hids : g'.modelIds = g.modelIds)
    (hrelations : g'.relations = g.relations) (harcs : g'.arcs = g.arcs) : g'.Indexed := by
  refine ⟨hkeyed, fun a => ?_⟩
  simp only [Resolves, hids, hrelations, harcs]
  exact h.arcs a

theorem withNodes {nodes : List Node}
    (hsame : nodes.map Node.identity = g.nodes.map Node.identity) :
    ({ g with nodes } : Graph).Indexed := by
  have hids : ({ g with nodes } : Graph).modelIds = g.modelIds := modelIds_of_identities hsame
  exact h.congr (h.keyed.withNodes (ids_of_identities hsame)) hids rfl rfl

/-- A new model may be what a relation was missing. -/
theorem insertModel {m : Model} (hnew : g.hasNode m.id = false) : (g.insertModel m).Indexed := by
  refine Keyed.attachRelations_indexed (h.keyed.insertNode _) fun a ha hnone => ?_
  obtain ⟨r, hr, hresolves, rfl⟩ := (h.arcs a).mp ⟨ha, hnone⟩
  exact ⟨r, hr, hresolves.mono fun _ => mem_insertNode_modelIds hnew, rfl⟩

theorem insertEnum {x : Enumeration} (hnew : g.hasNode x.id = false) :
    (g.insertEnum x).Indexed := by
  refine h.congr (h.keyed.insertNode _) ?_ rfl rfl
  exact (insertNode_modelIds_of_new (n := .enum x) hnew).trans (List.append_nil _)

/-- A relation takes the place of one with its id, if that has the same ends. -/
theorem insertRelation {e : RelationEdge}
    (hends : ∀ r ∈ g.relations, r.id = e.id → r.source = e.source ∧ r.target = e.target) :
    (g.insertRelation e).Indexed := by
  have hkeyed : ({ g with
      relations := placeOrAppend (fun r => r.id = e.id) e g.relations } : Graph).Keyed :=
    ⟨h.keyed.ids, placeOrAppend_nodup e h.keyed.relations, h.keyed.places⟩
  refine hkeyed.attachRelations_indexed fun a ha hnone => ?_
  obtain ⟨r, hr, hresolves, rfl⟩ := (h.arcs a).mp ⟨ha, hnone⟩
  by_cases hid : r.id = e.id
  · obtain ⟨hsource, htarget⟩ := hends r hr hid
    refine ⟨e, (mem_placeOrAppend_iff h.keyed.relations).mpr (.inl rfl), ?_, ?_⟩
    · rwa [Resolves, ← hsource, ← htarget]
    · simp [Arc.place, RelationEdge.arc, hsource, htarget, hid]
  · exact ⟨r, (mem_placeOrAppend_iff h.keyed.relations).mpr (.inr ⟨hr, hid⟩), hresolves, rfl⟩

theorem removeNode (id : String) : ((g.removeNode id).removeRelationsOf id).Indexed := by
  refine ⟨h.keyed.removeNode id, fun a => ?_⟩
  have hresolves (r : RelationEdge) :
      ((g.removeNode id).removeRelationsOf id).Resolves r ↔
        g.Resolves r ∧ r.source ≠ id ∧ r.target ≠ id := by
    have hids (id' : String) : id' ∈ ((g.removeNode id).removeRelationsOf id).modelIds ↔
        id' ∈ g.modelIds ∧ id' ≠ id := mem_removeNode_modelIds
    simp only [Resolves, hids]
    tauto
  have harcs : a ∈ ((g.removeNode id).removeRelationsOf id).arcs ↔
      a ∈ g.arcs ∧ a.source ≠ id ∧ a.target ≠ id := by
    simp [Graph.removeNode, removeRelationsOf]
  have hrelations (r : RelationEdge) : r ∈ ((g.removeNode id).removeRelationsOf id).relations ↔
      r ∈ g.relations ∧ r.source ≠ id ∧ r.target ≠ id := by
    simp [Graph.removeNode, removeRelationsOf]
  simp only [harcs, hrelations, hresolves]
  constructor
  · rintro ⟨⟨ha, hends⟩, hnone⟩
    obtain ⟨r, hr, hjoined, rfl⟩ := (h.arcs a).mp ⟨ha, hnone⟩
    exact ⟨r, ⟨hr, hends⟩, ⟨hjoined, hends⟩, rfl⟩
  · rintro ⟨r, ⟨hr, hends⟩, ⟨hjoined, -⟩, rfl⟩
    obtain ⟨ha, hnone⟩ := (h.arcs r.arc).mpr ⟨r, hr, hjoined, rfl⟩
    exact ⟨⟨ha, hends⟩, hnone⟩

theorem undraw {id : String} {e : RelationEdge} (hfound : g.relation? id = some e) :
    ((g.popRelation id).detach e).Indexed := by
  obtain ⟨he, rfl⟩ := mem_relations_of_relation? hfound
  refine ⟨h.keyed.undraw e.id e, fun a => ?_⟩
  rw [detach_arcs]
  simp only [popRelation, detach, List.mem_filter, decide_eq_true_eq]
  constructor
  · rintro ⟨⟨ha, hplace⟩, hnone⟩
    obtain ⟨r, hr, hresolves, rfl⟩ := (h.arcs a).mp ⟨ha, hnone⟩
    refine ⟨r, ⟨hr, fun hid => hplace ?_⟩, hresolves, rfl⟩
    rw [List.inj_on_of_nodup_map h.keyed.relations hr he hid]
  · rintro ⟨r, ⟨hr, hid⟩, hresolves, rfl⟩
    obtain ⟨ha, hnone⟩ := (h.arcs r.arc).mpr ⟨r, hr, hresolves, rfl⟩
    exact ⟨⟨ha, fun hplace => hid (congrArg (·.2.2) hplace)⟩, hnone⟩

end Indexed

theorem drawn_indexed {d : Document} (h : (d.relationEdges.map (·.id)).Nodup) :
    (drawn d).Indexed := by
  have hfold (edges : List RelationEdge) (g : Graph) (hg : g.Indexed)
      (hids : ((g.relations ++ edges).map (·.id)).Nodup) :
      (edges.foldl Graph.insertRelation g).Indexed := by
    induction edges generalizing g with
    | nil => exact hg
    | cons e edges ih =>
        have hnew : ∀ r ∈ g.relations, r.id ≠ e.id := by
          rw [List.map_append, List.nodup_append] at hids
          exact fun r hr => hids.2.2 _ (List.mem_map_of_mem hr) _ (by simp)
        refine ih _ (hg.insertRelation fun r hr hid => absurd hid (hnew r hr)) ?_
        rw [insertRelation_relations,
          placeOrAppend_of_none fun r hr => decide_eq_false (hnew r hr), ← List.append_cons]
        exact hids
  have hnodes : (ofNodes d).Indexed := by
    refine ⟨⟨ofNodes_ids d, List.nodup_nil, List.nodup_nil⟩, fun a => ?_⟩
    simp [ofNodes]
  exact hfold d.relationEdges (ofNodes d) hnodes h

end Graph

namespace Session

theorem LeadsTo.indexed {s : Session} {e : Edit} {g : Graph} (hled : s.LeadsTo e g)
    (hnode : e.IsFresh s) (hrelation : e.DrawsFresh s) (h : s.graph.Indexed) : g.Indexed := by
  cases hled with
  | model m hnew => exact (h.insertModel (hnew hnode)).relinkEnums
  | enum x hnew => exact (h.insertEnum (hnew hnode)).relinkEnums
  | rework nodes hsame => exact (h.withNodes hsame).relinkEnums
  | removal id => exact (h.removeNode id).relinkEnums
  | values x values hfound => exact h.withNodes (Graph.insertNode_values_identities values hfound)
  | relation r nodes hsame _ hplace =>
      have hends : ∀ r' ∈ s.graph.relations, r'.id = r.id →
          r'.source = r.source ∧ r'.target = r.target := by
        intro r' hr' hid
        obtain ⟨old, hold, hsource, htarget⟩ | hnone := hplace
        · have hsame := (find?_key_eq_some_iff h.keyed.relations).mpr ⟨hr', hid⟩
          obtain rfl : old = r' := Option.some.inj (hold.symm.trans hsame)
          exact ⟨hsource, htarget⟩
        · exact absurd hid (Graph.relation?_eq_none_iff.mp (hnone hrelation) r' hr')
      refine ((h.insertRelation hends).withNodes ?_).relinkEnums
      rwa [Graph.insertRelation_nodes]
  | undrawn id r _ hfound => exact h.undraw hfound

/-- Whatever is done to a graph, with success or not, as long as generated ids are fresh: the
relations of a model are those in the list of relations that join it to a model, each with its id,
its type and the name of the other model as they are now, and one from a model to itself is seen in
both directions. What is not a model has none. -/
theorem run_relationsOf_agrees {s : Session} {edits : List Edit}
    (hbegins : (∃ generator datasource, s.graph = { generator, datasource }) ∨
      ∃ d, (d.relationEdges.map (·.id)).Nodup ∧ s.graph = Graph.ofDocument d)
    (hfresh : s.Along (fun t e => e.IsFresh t ∧ e.DrawsFresh t) edits) (id : String) :
    (id ∈ (s.run edits).graph.modelIds → ∀ direction,
        (((s.run edits).graph.relationsOf id).filter (·.direction = direction)).Perm
          ((s.run edits).graph.relationViews direction id)) ∧
      (id ∉ (s.run edits).graph.modelIds → (s.run edits).graph.relationsOf id = []) ∧
      ((s.run edits).graph.hasRelations id = true ↔
        ∃ r ∈ (s.run edits).graph.relations, (s.run edits).graph.Resolves r ∧
          (r.source = id ∨ r.target = id)) := by
  have hstart : s.graph.Indexed := by
    obtain ⟨d, hids, hgraph⟩ :
        ∃ d, (d.relationEdges.map (·.id)).Nodup ∧ s.graph = Graph.ofDocument d := by
      obtain ⟨generator, datasource, hgraph⟩ | hdocument := hbegins
      · exact ⟨{ generator, datasource }, List.nodup_nil, hgraph⟩
      · exact hdocument
    rw [hgraph, Graph.ofDocument_eq_relinkEnums]
    exact (Graph.drawn_indexed hids).relinkEnums
  have hrun : (s.run edits).graph.Indexed :=
    run_keeps Graph.Indexed _ (fun _ _ _ h hfresh hled => hled.indexed hfresh.1 hfresh.2 h) hstart
      hfresh
  exact ⟨fun hid direction => hrun.relationsOf_perm direction hid, hrun.relationsOf_eq_nil,
    hrun.hasRelations_iff⟩

/-- A user who is related to others, and to posts that are not drawn yet. -/
def postless : Document :=
  { models := [{ id := "u", name := "User" }]
    relationEdges := [{ id := "e", source := "u", target := "p" },
      { id := "f", type := "MANY_TO_MANY", source := "u", target := "u" }] }

/-- With the posts comes the relation to them. -/
theorem run_relationsOf_agrees_postless :
    (postless.relationEdges.map (·.id)).Nodup ∧
      (({} : Session).opening postless).Along (fun t e => e.IsFresh t ∧ e.DrawsFresh t)
        [.addModel (some "Post") (some "p"), .setType "e" "ONE_TO_ONE", .rename "p" "Entry"] ∧
      (((({} : Session).opening postless).run
          [.addModel (some "Post") (some "p"), .setType "e" "ONE_TO_ONE",
            .rename "p" "Entry"]).graph.relationsOf "u" |>.filter (·.direction = .outgoing)).Perm
        [⟨"e", "ONE_TO_ONE", "Entry", .outgoing⟩, ⟨"f", "MANY_TO_MANY", "User", .outgoing⟩] ∧
      (((({} : Session).opening postless).run
          [.addModel (some "Post") (some "p"), .setType "e" "ONE_TO_ONE",
            .rename "p" "Entry"]).graph.relationsOf "p" |>.filter (·.direction = .incoming)).Perm
        [⟨"e", "ONE_TO_ONE", "User", .incoming⟩] := by
  have hids : (postless.relationEdges.map (·.id)).Nodup := by decide
  have hfresh : (({} : Session).opening postless).Along (fun t e => e.IsFresh t ∧ e.DrawsFresh t)
      [.addModel (some "Post") (some "p"), .setType "e" "ONE_TO_ONE", .rename "p" "Entry"] :=
    ⟨⟨fun _ => rfl, trivial⟩, ⟨trivial, trivial⟩, ⟨trivial, trivial⟩, trivial⟩
  have hu := (run_relationsOf_agrees (.inr ⟨postless, hids, rfl⟩) hfresh "u").1 (by decide)
  have hp := (run_relationsOf_agrees (.inr ⟨postless, hids, rfl⟩) hfresh "p").1 (by decide)
  exact ⟨hids, hfresh, hu .outgoing, hp .incoming⟩

end Session

end DrawnSchema
