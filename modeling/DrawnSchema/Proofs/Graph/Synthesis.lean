import DrawnSchema.Proofs.Graph.EnumEdges
import DrawnSchema.Proofs.Relation.Idempotence

/-!
# Synthesis in a graph

Synthesis works on a list of models. A graph hands its models over, and each of its model nodes
takes the fields of the model that came of it.
-/

namespace DrawnSchema

/-! ### Back into the nodes -/

/-- A model takes the fields of one that has its id. -/
def Model.receive (m m' : Model) : Model :=
  if m.id = m'.id then { m with fields := m'.fields } else m

namespace Model

theorem receive_of_ne {m m' : Model} (h : m'.id ≠ m.id) : m.receive m' = m :=
  if_neg h.symm

theorem receive_of_eq {m m' : Model} (h : m'.id = m.id) :
    m.receive m' = { m with fields := m'.fields } :=
  if_pos h.symm

@[simp]
theorem receive_id (m m' : Model) : (m.receive m').id = m.id := by
  unfold receive
  split <;> rfl

theorem foldl_receive_id (models : List Model) (m : Model) :
    (models.foldl receive m).id = m.id := by
  induction models generalizing m with
  | nil => rfl
  | cons m' models ih => rw [List.foldl_cons, ih, receive_id]

theorem foldl_receive_of_ne {models : List Model} {m : Model} (h : ∀ m' ∈ models, m'.id ≠ m.id) :
    models.foldl receive m = m := by
  induction models with
  | nil => rfl
  | cons m' models ih =>
      rw [List.foldl_cons, receive_of_ne (h m' List.mem_cons_self)]
      exact ih fun m'' hm'' => h m'' (List.mem_cons_of_mem m' hm'')

/-- Of models with distinct ids, the one with its id is what a model receives from. -/
theorem foldl_receive_of_mem {models : List Model} (hids : (models.map (·.id)).Nodup)
    {m m' : Model} (hm' : m' ∈ models) (hid : m'.id = m.id) :
    models.foldl receive m = { m with fields := m'.fields } := by
  induction models with
  | nil => cases hm'
  | cons first models ih =>
      obtain ⟨hfresh, hrest⟩ := List.nodup_cons.mp hids
      rw [List.foldl_cons]
      obtain rfl | hm' := List.mem_cons.mp hm'
      · rw [receive_of_eq hid]
        refine foldl_receive_of_ne fun m'' hm'' heq => hfresh ?_
        exact List.mem_map.mpr ⟨m'', hm'', heq.trans hid.symm⟩
      · have hne : first.id ≠ m.id := by
          rintro heq
          exact hfresh (List.mem_map.mpr ⟨m', hm', hid.trans heq.symm⟩)
        rw [receive_of_ne hne]
        exact ih hrest hm'

end Model

/-- A document with other models, and the enum edges that they give. -/
def Document.withModels (d : Document) (models : List Model) : Document := { d with models }.linked

namespace Graph

variable {g : Graph} {edges : List RelationEdge}

theorem Anchored.mapModels {f : Model → Model} (h : g.Anchored) (hid : ∀ m, (f m).id = m.id) :
    (g.mapModels f).Anchored := by
  refine ⟨?_, fun a ha hnone => ?_⟩
  · rw [mapModels_nodes_map f Node.id hid]
    exact h.ids
  · rw [mapModels_modelIds g hid]
    exact h.sources a ha hnone

theorem mapModels_toDocument (f : Model → Model) (g : Graph) (models : List Model) :
    (g.mapModels f).toDocument.withModels models = g.toDocument.withModels models := by
  simp only [toDocument, Document.withModels, Document.linked, mapModels_enums]
  rfl

theorem setAllFields_eq (models : List Model) (g : Graph) :
    g.setAllFields models = g.mapModels fun m => models.foldl Model.receive m := by
  unfold setAllFields
  induction models generalizing g with
  | nil =>
      have hnode : Node.mapModel (fun m => m) = id := by
        funext n
        cases n <;> rfl
      simp [Graph.mapModels, hnode]
  | cons m models ih =>
      rw [List.foldl_cons, ih]
      simp only [setFields, Graph.mapModels, List.map_map]
      congr 1
      refine List.map_congr_left fun n _ => ?_
      cases n <;> rfl

/-- Models that have grown from those of a graph take their places. -/
theorem setAllFields_models {models : List Model} (h : g.modelIds.Nodup)
    (hgrown : Synthesis.Grown g.models models)
    (hheadings : models.map Model.heading = g.models.map Model.heading) :
    (g.setAllFields models).models = models := by
  have hids : (models.map (·.id)).Nodup := by
    rw [Model.ids_of_headings hheadings]
    exact h
  rw [setAllFields_eq, mapModels_models]
  refine List.ext_getElem? fun n => ?_
  rw [List.getElem?_map]
  cases hm : g.models[n]? with
  | none =>
      have hlength : models.length ≤ n := hgrown.length_eq ▸ List.getElem?_eq_none_iff.mp hm
      rw [List.getElem?_eq_none hlength, Option.map_none]
  | some m =>
      obtain ⟨added, hadded⟩ := hgrown.withMore n m hm
      have hid : (m.withMore added).id = m.id := rfl
      rw [hadded, Option.map_some,
        Model.foldl_receive_of_mem hids (List.mem_of_getElem? hadded) hid]
      rfl

theorem synthesizeEdges_eq_error_iff {error : CompileError} :
    g.synthesizeEdges edges = .error error ↔ synthesizeFields edges g.models = .error error := by
  unfold synthesizeEdges
  cases synthesizeFields edges g.models <;> simp

/-- The document of a graph after synthesis: the models are those that synthesis comes to, and the
enum edges are derived from them. -/
theorem Anchored.synthesizeEdges (h : g.Anchored) {s : Synthesis}
    (hrun : synthesizeFields edges g.models = .ok s) :
    ∃ done : Graph, g.synthesizeEdges edges = .ok (done, s.outcomes) ∧ done.Anchored ∧
      done.toDocument = g.toDocument.withModels s.models := by
  obtain ⟨hgrown, hheadings⟩ := Synthesis.synthesizeFields_grown hrun
  have hreceived : (g.setAllFields s.models).Anchored := by
    rw [setAllFields_eq]
    exact h.mapModels (Model.foldl_receive_id s.models)
  refine ⟨(g.setAllFields s.models).relinkEnums, ?_, hreceived.relinkEnums, ?_⟩
  · unfold Graph.synthesizeEdges
    rw [hrun]
  · have henums : (g.setAllFields s.models).enums = g.enums := by
      rw [setAllFields_eq, mapModels_enums]
    have hmodels := setAllFields_models h.modelIds_nodup hgrown hheadings
    rw [hreceived.relinkEnums_toDocument]
    simp only [toDocument, Document.withModels, Document.linked, hmodels, henums]
    rw [setAllFields_eq]
    rfl

theorem Anchored.synthesizeEdges_eq_ok (h : g.Anchored) {done : Graph × List Outcome}
    (hdone : g.synthesizeEdges edges = .ok done) :
    ∃ s, synthesizeFields edges g.models = .ok s ∧ done.2 = s.outcomes ∧
      done.1.toDocument = g.toDocument.withModels s.models := by
  cases hrun : synthesizeFields edges g.models with
  | error e =>
      rw [synthesizeEdges_eq_error_iff.mpr hrun] at hdone
      cases hdone
  | ok s =>
      obtain ⟨g', hg', -, hdocument⟩ := h.synthesizeEdges hrun
      rw [hg'] at hdone
      obtain rfl := Except.ok.inj hdone
      exact ⟨s, rfl, rfl, hdocument⟩

end Graph

end DrawnSchema
