import DrawnSchema.Proofs.Graph.Arcs
import DrawnSchema.Proofs.Graph.Synthesis
import DrawnSchema.Proofs.Relation.Presence

/-!
# Graphs that synthesis adds nothing to

A graph is synthesized if its models have all fields that its relations imply, by their ids. It
stays so under changes in which models keep the ids of these fields. Names play no part in it.
-/

namespace DrawnSchema.Graph

def IsSynthesized (g : Graph) : Prop := ∀ r ∈ g.relations, r.IsPresentIn g.models

/-- A field goes by an id that is for a field of one of the relations. -/
def Derives (g : Graph) (f : Field) : Prop :=
  ∃ r ∈ g.relations, ∃ id ∈ RelationEdge.derivedIds r.id, f.id = some id

instance (g : Graph) (f : Field) : Decidable (g.Derives f) :=
  inferInstanceAs (Decidable (∃ r ∈ g.relations, _))

variable {g g' : Graph}

namespace IsSynthesized

/-- Relations may go and models may come, as long as the models that were there keep the ids of
derived fields. -/
theorem keep (h : g.IsSynthesized) (hresolves : ∀ r ∈ g.relations, g.Resolves r)
    (hrelations : ∀ r ∈ g'.relations, r ∈ g.relations)
    (hmodels : ∀ m' ∈ g'.models, m'.id ∈ g.modelIds → ∃ m ∈ g.models, m.id = m'.id ∧
      ∀ f ∈ m.fields, g.Derives f → f.id ∈ m'.fields.map (·.id)) :
    g'.IsSynthesized := by
  intro r hr
  have hold := hrelations r hr
  refine (h r hold).mono fun m' hm' hend => ?_
  have hknown : m'.id ∈ g.modelIds := by
    obtain hsource | htarget := hend
    · exact hsource ▸ (hresolves r hold).1
    · exact htarget ▸ (hresolves r hold).2
  obtain ⟨m, hm, hid, hkept⟩ := hmodels m' hm' hknown
  refine ⟨m, hm, hid, fun id hderived hthere => ?_⟩
  obtain ⟨f, hf, hfid⟩ := List.mem_map.mp hthere
  exact hfid ▸ hkept f hf ⟨r, hold, id, hderived, hfid⟩

theorem congr (h : g.IsSynthesized) (hmodels : g'.models = g.models)
    (hrelations : ∀ r ∈ g'.relations, r ∈ g.relations) : g'.IsSynthesized :=
  fun r hr => hmodels ▸ h r (hrelations r hr)

theorem mapModels {change : Model → Model} (h : g.IsSynthesized)
    (hresolves : ∀ r ∈ g.relations, g.Resolves r) (hid : ∀ m, (change m).id = m.id)
    (hkept : ∀ m ∈ g.models, ∀ f ∈ m.fields, g.Derives f →
      f.id ∈ (change m).fields.map (·.id)) :
    (g.mapModels change).IsSynthesized := by
  refine h.keep hresolves (fun _ hr => hr) fun m' hm' _ => ?_
  rw [mapModels_models] at hm'
  obtain ⟨m, hm, rfl⟩ := List.mem_map.mp hm'
  exact ⟨m, hm, (hid m).symm, hkept m hm⟩

theorem relinkEnums (h : g.IsSynthesized) : g.relinkEnums.IsSynthesized :=
  h.congr (relinkEnums_models g) fun _ hr => relinkEnums_relations g ▸ hr

theorem attachRelations (h : g.IsSynthesized) : g.attachRelations.IsSynthesized :=
  h.congr (attachRelations_models g) fun _ hr => attachRelations_relations g ▸ hr

/-- A new model is at no end of a relation. -/
theorem insertNode {n : Node} (h : g.IsSynthesized) (hresolves : ∀ r ∈ g.relations, g.Resolves r)
    (hnew : g.hasNode n.id = false) : (g.insertNode n).IsSynthesized := by
  refine h.keep hresolves (fun _ hr => hr) fun m' hm' hknown => ?_
  rw [mem_models, insertNode_nodes_of_new hnew] at hm'
  obtain hm' | hm' := List.mem_append.mp hm'
  · exact ⟨m', mem_models.mpr hm', rfl, fun f hf _ => List.mem_map_of_mem hf⟩
  · obtain rfl := List.mem_singleton.mp hm'
    obtain ⟨m, hm, hid⟩ := mem_modelIds.mp hknown
    exact absurd (List.mem_map.mpr ⟨_, hm, hid⟩) (hasNode_eq_false_iff.mp hnew)

theorem renameNode (h : g.IsSynthesized) (hresolves : ∀ r ∈ g.relations, g.Resolves r)
    (id name : String) : (g.renameNode id name).IsSynthesized := by
  refine h.keep hresolves (fun _ hr => hr) fun m' hm' _ => ?_
  obtain ⟨n, hn, hrenamed⟩ := List.mem_map.mp (mem_models.mp hm')
  cases n with
  | model m =>
      refine ⟨m, mem_models.mpr hn, ?_⟩
      split at hrenamed
      all_goals
        cases hrenamed
        exact ⟨rfl, fun f hf _ => List.mem_map_of_mem hf⟩
  | enum x =>
      split at hrenamed
      all_goals cases hrenamed

theorem retypeFields (h : g.IsSynthesized) (hresolves : ∀ r ∈ g.relations, g.Resolves r)
    (old new : String) : (g.mapModels (Graph.retypeFields old new)).IsSynthesized := by
  refine h.mapModels hresolves (fun _ => rfl) fun m _ f hf _ => ?_
  refine List.mem_map.mpr ⟨_, List.mem_map_of_mem hf, ?_⟩
  split <;> rfl

theorem removeNode (h : g.IsSynthesized) (hresolves : ∀ r ∈ g.relations, g.Resolves r)
    (id : String) : ((g.removeNode id).removeRelationsOf id).IsSynthesized := by
  refine h.keep hresolves (fun r hr => (List.mem_filter.mp hr).1) fun m' hm' _ => ?_
  have hm : m' ∈ g.models := mem_models.mpr (List.mem_filter.mp (mem_models.mp hm')).1
  exact ⟨m', hm, rfl, fun f hf _ => List.mem_map_of_mem hf⟩

theorem setFields {id : String} {m : Model} {fields : List Field} (h : g.IsSynthesized)
    (hresolves : ∀ r ∈ g.relations, g.Resolves r) (hids : (g.nodes.map Node.id).Nodup)
    (hm : g.model? id = some m)
    (hkept : ∀ f ∈ m.fields, g.Derives f → f.id ∈ fields.map (·.id)) :
    (g.setFields id fields).IsSynthesized := by
  refine h.mapModels hresolves (fun m' => by split <;> rfl) fun m' hm' f hf hderived => ?_
  by_cases hid : m'.id = id
  · rw [(model?_eq_some_iff hids).mpr ⟨hm', hid⟩] at hm
    obtain rfl := Option.some.inj hm
    rw [if_pos hid]
    exact hkept f hf hderived
  · rw [if_neg hid]
    exact List.mem_map_of_mem hf

theorem setValues {x : Enumeration} (h : g.IsSynthesized) (values : List String)
    (hfound : g.enum? x.id = some x) : (g.insertNode (.enum { x with values })).IsSynthesized := by
  obtain ⟨before, after, hnodes, hplaced⟩ := insertNode_values values hfound
  refine h.congr ?_ fun _ hr => hr
  simp only [models, hnodes, hplaced, List.filterMap_append, List.filterMap_cons, Node.model?]

theorem undraw (h : g.IsSynthesized) (id : String) (e : RelationEdge) :
    ((g.popRelation id).detach e).IsSynthesized :=
  h.congr rfl fun _ hr => (List.mem_filter.mp hr).1

end IsSynthesized

/-- What is dropped for an edge is there for no other edge. -/
theorem dropDerived_present {edge : String} {r : RelationEdge} (h : r.IsPresentIn g.models)
    (hother : r.id ≠ edge) : r.IsPresentIn (g.dropDerived edge).models := by
  refine h.mono fun m' hm' _ => ?_
  rw [dropDerived, mapModels_models] at hm'
  obtain ⟨m, hm, rfl⟩ := List.mem_map.mp hm'
  refine ⟨m, hm, rfl, fun id hderived hthere => ?_⟩
  obtain ⟨f, hf, hid⟩ := List.mem_map.mp hthere
  have hkept : id ∉ RelationEdge.derivedIds edge := RelationEdge.derivedIds_disjoint hother hderived
  exact List.mem_map.mpr ⟨f, List.mem_filter.mpr ⟨hf, by simp [hid, hkept]⟩, hid⟩

/-! ### Synthesis in the graph -/

theorem Anchored.synthesizeEdges_models {edges : List RelationEdge} {done : Graph × List Outcome}
    (h : g.Anchored) (hdone : g.synthesizeEdges edges = .ok done) :
    ∃ s, synthesizeFields edges g.models = .ok s ∧ done.2 = s.outcomes ∧
      done.1.models = s.models ∧ done.1.relations = g.relations := by
  obtain ⟨s, hrun, houtcomes, hdocument⟩ := h.synthesizeEdges_eq_ok hdone
  exact ⟨s, hrun, houtcomes, congrArg Document.models hdocument,
    congrArg Document.relationEdges hdocument⟩

theorem IsSynthesized.synthesizeEdges {edges : List RelationEdge} {done : Graph × List Outcome}
    (hsynthesized : g.IsSynthesized) (h : g.Anchored) (hdone : g.synthesizeEdges edges = .ok done) :
    done.1.IsSynthesized := by
  obtain ⟨s, hrun, -, hmodels, hrelations⟩ := h.synthesizeEdges_models hdone
  intro r hr
  rw [hrelations] at hr
  rw [hmodels]
  exact (hsynthesized r hr).grown (Synthesis.synthesizeFields_grown hrun).1

/-- Where only one relation may lack fields, all is there once the graph was synthesized for that one
without a warning. -/
theorem Anchored.isSynthesized_of_quiet {e : RelationEdge} {done : Graph × List Outcome}
    (h : g.Anchored) (hjoins : e.Joins g.modelIds)
    (hothers : ∀ r ∈ g.relations, r = e ∨ r.IsPresentIn g.models)
    (hdone : g.synthesizeEdges [e] = .ok done)
    (hquiet : done.2.filterMap Outcome.warning? = []) : done.1.IsSynthesized := by
  obtain ⟨s, hrun, houtcomes, hmodels, hrelations⟩ := h.synthesizeEdges_models hdone
  intro r hr
  rw [hrelations] at hr
  rw [hmodels]
  obtain rfl | hpresent := hothers r hr
  · rw [houtcomes] at hquiet
    exact Synthesis.isPresentIn_of_quiet h.modelIds_nodup hjoins hrun hquiet
  · exact hpresent.grown (Synthesis.synthesizeFields_grown hrun).1

/-- Synthesizing a synthesized graph succeeds, warns of nothing and leaves its document to the enum
edges, which are derived anew. -/
theorem IsSynthesized.synthesizeEdges_eq_ok (hsynthesized : g.IsSynthesized) (h : g.Anchored)
    (hjoins : ∀ r ∈ g.relations, r.Joins g.modelIds) :
    ∃ done, g.synthesizeEdges g.relations = .ok done ∧
      done.2.filterMap Outcome.warning? = [] ∧ done.1.toDocument = g.toDocument.linked := by
  obtain ⟨s, hrun, hmodels, hquiet⟩ :=
    Synthesis.synthesizeFields_of_present h.modelIds_nodup hjoins hsynthesized
  obtain ⟨g', hdone, -, hdocument⟩ := h.synthesizeEdges hrun
  refine ⟨_, hdone, hquiet, ?_⟩
  rw [hdocument, hmodels]
  rfl

end DrawnSchema.Graph
