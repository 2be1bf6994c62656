import DrawnSchema.Proofs.Graph.Arcs
import DrawnSchema.Report.Checks

/-!
# Which models are related

A model is related by its relations, which are found by ids, or by a field that has a model as its
type, which is found by its name. Relations go into a graph one by one, and one that has the id of
another takes its place in the list. The arc of the other stays all the same, unless it joins the
same two models. So in the graph of a document each of its relations between models counts, whatever
ids the relations have.
-/

namespace DrawnSchema.Graph

variable {g : Graph}

/-! ### Relations as arcs -/

theorem relationView?_isSome_iff {direction : Direction} {a : Arc} :
    (g.relationView? direction a).isSome = true ↔ a.content.enumEdge? = none := by
  cases hcontent : a.content <;>
    simp [relationView?, hcontent, ArcContent.relation?, ArcContent.enumEdge?]

theorem hasRelations_iff_exists_arc {id : String} :
    g.hasRelations id = true ↔
      g.hasNode id = true ∧
        ∃ a ∈ g.arcs, a.content.enumEdge? = none ∧ (a.source = id ∨ a.target = id) := by
  have hviews (direction : Direction) (near : Arc → Bool) :
      (∃ v, v ∈ (g.arcs.filter near).filterMap (g.relationView? direction)) ↔
        ∃ a ∈ g.arcs, a.content.enumEdge? = none ∧ near a = true := by
    constructor
    · rintro ⟨v, hv⟩
      obtain ⟨a, ha, hview⟩ := List.mem_filterMap.mp hv
      obtain ⟨ha, hnear⟩ := List.mem_filter.mp ha
      exact ⟨a, ha, relationView?_isSome_iff.mp (Option.isSome_of_mem hview), hnear⟩
    · rintro ⟨a, ha, hnone, hnear⟩
      have hsome : (g.relationView? direction a).isSome = true :=
        relationView?_isSome_iff.mpr hnone
      obtain ⟨v, hv⟩ := Option.isSome_iff_exists.mp hsome
      exact ⟨v, List.mem_filterMap.mpr ⟨a, List.mem_filter.mpr ⟨ha, hnear⟩, hv⟩⟩
  rw [hasRelations, Bool.not_eq_true', List.isEmpty_eq_false_iff_exists_mem, relationsOf]
  by_cases hnode : g.hasNode id = true
  · rw [if_pos hnode, and_iff_right hnode]
    simp only [List.mem_append, exists_or, hviews, decide_eq_true_eq, and_or_left]
  · rw [if_neg hnode]
    simp [hnode]

/-! ### Relations put in one after the other -/

/-- The arcs are those of relations among some that join models, and where one of these would have
its arc, there is one. -/
structure HasDrawn (g : Graph) (edges : List RelationEdge) : Prop where
  keyed : g.Keyed
  relations : ∀ r ∈ g.relations, r ∈ edges
  arcs : ∀ a ∈ g.arcs, ∃ e ∈ edges, g.Resolves e ∧ a = e.arc
  places : ∀ e ∈ edges, g.Resolves e → ∃ a ∈ g.arcs, a.place = e.arc.place

namespace HasDrawn

variable {edges : List RelationEdge}

theorem insertRelation (h : g.HasDrawn edges) (e : RelationEdge) :
    (g.insertRelation e).HasDrawn (edges ++ [e]) := by
  have hkeyed : ({ g with
      relations := placeOrAppend (fun r => r.id = e.id) e g.relations } : Graph).Keyed :=
    ⟨h.keyed.ids, placeOrAppend_nodup e h.keyed.relations, h.keyed.places⟩
  have hrelations : ∀ r ∈ placeOrAppend (fun r => r.id = e.id) e g.relations,
      r ∈ edges ++ [e] := by
    intro r hr
    obtain rfl | hr := mem_placeOrAppend hr
    · exact List.mem_append_right _ (List.mem_singleton_self r)
    · exact List.mem_append_left _ (h.relations r hr)
  have harcs (a : Arc) : a ∈ (g.insertRelation e).arcs ↔
      (∃ r ∈ placeOrAppend (fun r => r.id = e.id) e g.relations, g.Resolves r ∧ a = r.arc) ∨
        (a ∈ g.arcs ∧ ∀ r ∈ placeOrAppend (fun r => r.id = e.id) e g.relations,
          g.Resolves r → r.arc.place ≠ a.place) :=
    hkeyed.mem_attachRelations_arcs
  have hresolves := insertRelation_resolves g e
  refine ⟨h.keyed.insertRelation e, ?_, fun a ha => ?_, fun e' he' hresolved => ?_⟩
  · rwa [insertRelation_relations]
  · rw [hresolves]
    obtain ⟨r, hr, hresolved, rfl⟩ | ⟨ha, -⟩ := (harcs a).mp ha
    · exact ⟨r, hrelations r hr, hresolved, rfl⟩
    · obtain ⟨r, hr, hresolved⟩ := h.arcs a ha
      exact ⟨r, List.mem_append_left _ hr, hresolved⟩
  · rw [hresolves] at hresolved
    -- An arc at the place stays there until the arc of a relation in the list replaces it.
    by_cases hreplaced : ∃ r ∈ placeOrAppend (fun r => r.id = e.id) e g.relations,
        g.Resolves r ∧ r.arc.place = e'.arc.place
    · obtain ⟨r, hr, hr', hplace⟩ := hreplaced
      exact ⟨r.arc, (harcs r.arc).mpr (.inl ⟨r, hr, hr', rfl⟩), hplace⟩
    · obtain he' | he' := List.mem_append.mp he'
      · obtain ⟨a, ha, hplace⟩ := h.places e' he' hresolved
        refine ⟨a, (harcs a).mpr (.inr ⟨ha, fun r hr hr' hsame => ?_⟩), hplace⟩
        exact hreplaced ⟨r, hr, hr', hsame.trans hplace⟩
      · obtain rfl := List.mem_singleton.mp he'
        have hlisted : e' ∈ placeOrAppend (fun r => r.id = e'.id) e' g.relations :=
          (mem_placeOrAppend_iff h.keyed.relations).mpr (.inl rfl)
        exact absurd ⟨e', hlisted, hresolved, rfl⟩ hreplaced

theorem foldl_insertRelation (h : g.HasDrawn edges) (more : List RelationEdge) :
    (more.foldl Graph.insertRelation g).HasDrawn (edges ++ more) := by
  induction more generalizing g edges with
  | nil => rwa [List.append_nil]
  | cons e more ih =>
      rw [List.append_cons]
      exact ih (h.insertRelation e)

end HasDrawn

theorem drawn_hasDrawn (d : Document) : (drawn d).HasDrawn d.relationEdges := by
  have hnodes : (ofNodes d).HasDrawn [] :=
    ⟨⟨ofNodes_ids d, List.nodup_nil, List.nodup_nil⟩, by simp [ofNodes], by simp [ofNodes],
      by simp⟩
  exact hnodes.foldl_insertRelation d.relationEdges

/-- A model in the graph of a document has relations if and only if a relation of the document joins
it to a model. Relations whose ids repeat count like all others. -/
theorem ofDocument_hasRelations_iff {d : Document} {id : String} :
    (ofDocument d).hasRelations id = true ↔
      ∃ e ∈ d.relationEdges, (ofDocument d).Resolves e ∧ (e.source = id ∨ e.target = id) := by
  have hdrawn := drawn_hasDrawn d
  have hresolves : (ofDocument d).Resolves = (drawn d).Resolves := by
    funext e
    simp only [Resolves, ofDocument_eq_relinkEnums, relinkEnums_modelIds]
  rw [hasRelations_iff_exists_arc, hresolves, ofDocument_eq_relinkEnums]
  constructor
  · rintro ⟨-, a, ha, hnone, hend⟩
    obtain ⟨-, ha⟩ | ⟨x, -, rfl⟩ := mem_relinkEnums_arcs ha
    · obtain ⟨e, he, hresolved, rfl⟩ := hdrawn.arcs a ha
      exact ⟨e, he, hresolved, hend⟩
    · cases hnone
  · rintro ⟨e, he, hresolved, hend⟩
    obtain ⟨a, ha, hplace⟩ := hdrawn.places e he hresolved
    have hsource : a.source = e.source := congrArg Prod.fst hplace
    have htarget : a.target = e.target := congrArg (·.2.1) hplace
    have hnone : a.content.enumEdge? = none := by
      obtain ⟨r, -, -, rfl⟩ := hdrawn.arcs a ha
      rfl
    have hid : id ∈ (drawn d).modelIds := hend.elim (· ▸ hresolved.1) (· ▸ hresolved.2)
    have hnode : (drawn d).relinkEnums.hasNode id = true := by
      obtain ⟨m, hm, rfl⟩ := mem_modelIds.mp hid
      rw [← Bool.not_eq_false, hasNode_eq_false_iff, not_not, relinkEnums_nodes]
      exact List.mem_map_of_mem hm
    refine ⟨hnode, a, hdrawn.keyed.mem_relinkEnums_of_mem ha hnone ?_, hnone, ?_⟩
    · exact hsource ▸ hresolved.1
    · rwa [hsource, htarget]

/-! ### References by name -/

theorem mem_referencedNames_iff {name : String} :
    name ∈ g.referencedNames ↔
      ∃ m ∈ g.models, ∃ f ∈ m.fields, f.type ∈ g.models.map (·.name) ∧ f.type ≠ m.name ∧
        (name = f.type ∨ name = m.name) := by
  simp only [referencedNames, List.mem_flatMap]
  refine exists_congr fun m => and_congr_right fun _ => exists_congr fun f =>
    and_congr_right fun _ => ?_
  rw [List.mem_ite_nil_right, Bool.and_eq_true, List.contains_iff_mem, decide_eq_true_eq,
    and_assoc]
  simp

/-- What tells a model from an orphan, for the heading of a model. -/
def isRelated (g : Graph) (heading : String × String) : Bool :=
  g.hasRelations heading.1 || g.referencedNames.contains heading.2

theorem filterMap_eq_of_map_eq {α β γ : Type} {key : α → β} {f f' : α → Option γ}
    {l l' : List α} (hkeys : l'.map key = l.map key)
    (hsame : ∀ a ∈ l, ∀ a', key a' = key a → f' a' = f a) : l'.filterMap f' = l.filterMap f := by
  induction l generalizing l' with
  | nil => rw [List.map_eq_nil_iff.mp hkeys, List.filterMap_nil, List.filterMap_nil]
  | cons a l ih =>
      obtain ⟨a', rest, rfl, hkey, hrest⟩ := List.map_eq_cons_iff.mp hkeys
      have htail := ih hrest fun b hb => hsame b (List.mem_cons_of_mem a hb)
      rw [List.filterMap_cons, List.filterMap_cons, hsame a List.mem_cons_self a' hkey, htail]

/-- What the report says of orphans is told by the headings of models, and by which of these are
related. -/
theorem checkOrphans_congr {g' : Graph}
    (hheadings : g'.models.map Model.heading = g.models.map Model.heading)
    (hrelated : ∀ m ∈ g.models, g'.isRelated m.heading = g.isRelated m.heading) :
    g'.checkOrphans = g.checkOrphans := by
  refine congrArg Report.mk (filterMap_eq_of_map_eq hheadings fun m hm m' hsame => ?_)
  have hid : m'.id = m.id := congrArg Prod.fst hsame
  have hname : m'.name = m.name := congrArg Prod.snd hsame
  rw [hid, hname]
  exact if_congr (Bool.eq_iff_iff.mp (hrelated m hm)) rfl rfl

end DrawnSchema.Graph
