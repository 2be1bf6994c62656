import DrawnSchema.Proofs.Document.Names
import DrawnSchema.Proofs.Graph.Frame
import DrawnSchema.Proofs.Relation.Additions
import DrawnSchema.Proofs.Report.Prediction

/-!
# Sound graphs

A graph is sound if names and ids tell its nodes apart, no node repeats a field name or a value, and
every relation has a supported type and joins models. Each change that an edit makes keeps this, and
a sound graph shows a document with nothing wrong in it.
-/

namespace DrawnSchema

def Node.IsTidy : Node → Prop
  | .model m => m.HasDistinctFields
  | .enum e => e.values.Nodup

namespace Node

variable (name : String) (n : Node)

@[simp]
theorem rename_id : (n.rename name).id = n.id := by
  cases n <;> rfl

@[simp]
theorem rename_name : (n.rename name).name = name := by
  cases n <;> rfl

@[simp]
theorem rename_isTidy : (n.rename name).IsTidy ↔ n.IsTidy := by
  cases n <;> rfl

end Node

def RelationEdge.Joins (e : RelationEdge) (modelIds : List String) : Prop :=
  e.relationType?.isSome = true ∧ e.source ∈ modelIds ∧ e.target ∈ modelIds

instance (e : RelationEdge) (modelIds : List String) : Decidable (e.Joins modelIds) :=
  inferInstanceAs (Decidable (_ ∧ _))

theorem RelationEdge.fault?_eq_none_iff {e : RelationEdge} {modelIds : List String} :
    e.fault? modelIds = none ↔ e.Joins modelIds := by
  have hmissing : e.missingEndpoints modelIds = [] ↔ e.source ∈ modelIds ∧ e.target ∈ modelIds := by
    simp [missingEndpoints, List.filter_eq_nil_iff]
  unfold fault? Joins
  rw [← hmissing]
  cases e.missingEndpoints modelIds with
  | cons id ids => simp
  | nil => cases e.relationType? <;> simp

theorem firstEdgeFault?_eq_none_iff {edges : List RelationEdge} {models : List Model} :
    firstEdgeFault? edges models = none ↔ ∀ e ∈ edges, e.Joins (models.map (·.id)) := by
  simp only [firstEdgeFault?, List.findSome?_eq_none_iff, RelationEdge.fault?_eq_none_iff]

theorem Graph.checkEdge_eq_ok_iff {g : Graph} {e : RelationEdge} :
    g.checkEdge e = .ok () ↔ e.Joins g.modelIds := by
  simp [checkEdge, RelationEdge.fault?_eq_none_iff]

structure Graph.Sound (g : Graph) : Prop where
  names : (g.nodes.map Node.name).Nodup
  ids : (g.nodes.map Node.id).Nodup
  tidy : ∀ n ∈ g.nodes, n.IsTidy
  joins : ∀ e ∈ g.relations, e.Joins g.modelIds

namespace Graph

variable {g g' : Graph}

theorem Sound.congr (h : g.Sound) (hnodes : g'.nodes = g.nodes)
    (hrelations : g'.relations = g.relations) : g'.Sound := by
  have hids : g'.modelIds = g.modelIds := by simp only [modelIds, models, hnodes]
  exact ⟨hnodes ▸ h.names, hnodes ▸ h.ids, hnodes ▸ h.tidy, by rw [hrelations, hids]; exact h.joins⟩

theorem Sound.relinkEnums (h : g.Sound) : g.relinkEnums.Sound :=
  h.congr (relinkEnums_nodes g) (relinkEnums_relations g)

theorem Sound.attachRelations (h : g.Sound) : g.attachRelations.Sound :=
  h.congr (attachRelations_nodes g) (attachRelations_relations g)

/-! ### Nodes and models -/

theorem mem_models {m : Model} : m ∈ g.models ↔ .model m ∈ g.nodes := by
  simp only [models, List.mem_filterMap]
  constructor
  · rintro ⟨n, hn, hm⟩
    cases n with
    | model m' =>
        obtain rfl := Option.some.inj hm
        exact hn
    | enum e => cases hm
  · exact fun hm => ⟨_, hm, rfl⟩

theorem mem_enums {e : Enumeration} : e ∈ g.enums ↔ .enum e ∈ g.nodes := by
  simp only [enums, List.mem_filterMap]
  constructor
  · rintro ⟨n, hn, he⟩
    cases n with
    | model m => cases he
    | enum e' =>
        obtain rfl := Option.some.inj he
        exact hn
  · exact fun he => ⟨_, he, rfl⟩

theorem mem_modelIds {id : String} : id ∈ g.modelIds ↔ ∃ m, .model m ∈ g.nodes ∧ m.id = id := by
  simp [modelIds, mem_models]

theorem mem_nodes_of_node? {id : String} {n : Node} (h : g.node? id = some n) :
    n ∈ g.nodes ∧ n.id = id :=
  ⟨List.mem_of_find?_eq_some h, by simpa using List.find?_some h⟩

theorem node?_of_model? {id : String} {m : Model} (h : g.model? id = some m) :
    g.node? id = some (.model m) := by
  obtain ⟨n, hn, hm⟩ := Option.bind_eq_some_iff.mp h
  cases n with
  | model m' =>
      obtain rfl := Option.some.inj hm
      exact hn
  | enum e => cases hm

theorem node?_of_enum? {id : String} {e : Enumeration} (h : g.enum? id = some e) :
    g.node? id = some (.enum e) := by
  obtain ⟨n, hn, he⟩ := Option.bind_eq_some_iff.mp h
  cases n with
  | model m => cases he
  | enum e' =>
      obtain rfl := Option.some.inj he
      exact hn

theorem hasNode_eq_false_iff {id : String} : g.hasNode id = false ↔ id ∉ g.nodes.map Node.id := by
  simp [hasNode, node?]

/-- What models and enums show side by side is what the nodes show, in another order. -/
theorem shown_perm {β : Type} (shown : Node → β) (nodes : List Node) :
    ((nodes.filterMap Node.model?).map (fun m => shown (.model m)) ++
      (nodes.filterMap Node.enum?).map (fun e => shown (.enum e))).Perm (nodes.map shown) := by
  induction nodes with
  | nil => exact .nil
  | cons n nodes ih =>
      cases n with
      | model m => exact ih.cons _
      | enum e => exact List.perm_middle.trans (ih.cons _)

theorem names_perm (nodes : List Node) :
    ((nodes.filterMap Node.model?).map (·.name) ++ (nodes.filterMap Node.enum?).map (·.name)).Perm
      (nodes.map Node.name) :=
  shown_perm Node.name nodes

theorem ids_perm (nodes : List Node) :
    ((nodes.filterMap Node.model?).map (·.id) ++ (nodes.filterMap Node.enum?).map (·.id)).Perm
      (nodes.map Node.id) :=
  shown_perm Node.id nodes

theorem mem_names {name : String} : name ∈ g.namesDocument.names ↔ name ∈ g.nodes.map Node.name :=
  (names_perm g.nodes).mem_iff

/-! ### Putting in the place of another -/

section PlaceOrAppend

variable {α β : Type} {same : α → Bool} {new : α} {l : List α}

theorem placeOrAppend_append (h : ∀ a ∈ l, same a = false) (rest : List α) :
    placeOrAppend same new (l ++ rest) = l ++ placeOrAppend same new rest := by
  induction l with
  | nil => rfl
  | cons a l ih =>
      have ha : same a = false := h a List.mem_cons_self
      simp [placeOrAppend, ha, ih fun b hb => h b (List.mem_cons_of_mem a hb)]

theorem placeOrAppend_of_none (h : ∀ a ∈ l, same a = false) :
    placeOrAppend same new l = l ++ [new] := by
  simpa [placeOrAppend] using placeOrAppend_append h []

theorem placeOrAppend_of_find? {a : α} (new : α) (h : l.find? same = some a) :
    ∃ before after, l = before ++ a :: after ∧
      placeOrAppend same new l = before ++ new :: after := by
  induction l with
  | nil => cases h
  | cons b l ih =>
      by_cases hb : same b = true
      · rw [List.find?_cons_of_pos hb] at h
        obtain rfl := Option.some.inj h
        exact ⟨[], l, rfl, by simp [placeOrAppend, hb]⟩
      · rw [List.find?_cons_of_neg hb] at h
        obtain ⟨before, after, rfl, hplaced⟩ := ih h
        exact ⟨b :: before, after, rfl, by simp [placeOrAppend, hb, hplaced]⟩

theorem mem_placeOrAppend {a : α} (h : a ∈ placeOrAppend same new l) : a = new ∨ a ∈ l := by
  cases hfind : l.find? same with
  | none =>
      rw [placeOrAppend_of_none (by simpa using hfind)] at h
      simpa [or_comm] using h
  | some b =>
      obtain ⟨before, after, rfl, hplaced⟩ := placeOrAppend_of_find? new hfind
      rw [hplaced] at h
      simp only [List.mem_append, List.mem_cons] at h ⊢
      tauto

end PlaceOrAppend

/-! ### Changes of nodes -/

theorem insertNode_nodes_of_new {n : Node} (hid : g.hasNode n.id = false) :
    (g.insertNode n).nodes = g.nodes ++ [n] := by
  refine placeOrAppend_of_none fun m hm => decide_eq_false fun heq => ?_
  exact hasNode_eq_false_iff.mp hid (heq ▸ List.mem_map_of_mem hm)

theorem insertNode_modelIds_of_new {n : Node} (hid : g.hasNode n.id = false) :
    (g.insertNode n).modelIds = g.modelIds ++ (n.model?.map (·.id)).toList := by
  rw [modelIds, models, insertNode_nodes_of_new hid, List.filterMap_append, List.map_append]
  cases n <;> rfl

theorem mem_insertNode_modelIds {n : Node} (hid : g.hasNode n.id = false) {id : String}
    (h : id ∈ g.modelIds) : id ∈ (g.insertNode n).modelIds := by
  rw [insertNode_modelIds_of_new hid]
  exact List.mem_append_left _ h

theorem Sound.insertNode {n : Node} (h : g.Sound) (hid : g.hasNode n.id = false)
    (hname : n.name ∉ g.nodes.map Node.name) (htidy : n.IsTidy) : (g.insertNode n).Sound := by
  have hfresh : n.id ∉ g.nodes.map Node.id := hasNode_eq_false_iff.mp hid
  have hnodes : (g.insertNode n).nodes = g.nodes ++ [n] := insertNode_nodes_of_new hid
  refine ⟨?_, ?_, fun m hm => ?_, fun e he => ?_⟩
  · rw [hnodes, List.map_append]
    exact List.nodup_append_comm.mp (List.nodup_cons.mpr ⟨hname, h.names⟩)
  · rw [hnodes, List.map_append]
    exact List.nodup_append_comm.mp (List.nodup_cons.mpr ⟨hfresh, h.ids⟩)
  · rw [hnodes] at hm
    obtain hm | hm := List.mem_append.mp hm
    · exact h.tidy m hm
    · obtain rfl := List.mem_singleton.mp hm
      exact htidy
  · obtain ⟨htype, hsource, htarget⟩ := h.joins e he
    exact ⟨htype, mem_insertNode_modelIds hid hsource, mem_insertNode_modelIds hid htarget⟩

/-- An enum with other values takes its place. -/
theorem insertNode_values {x : Enumeration} (values : List String)
    (hfound : g.enum? x.id = some x) :
    ∃ before after, g.nodes = before ++ .enum x :: after ∧
      (g.insertNode (.enum { x with values })).nodes =
        before ++ .enum { x with values } :: after :=
  placeOrAppend_of_find? _ (node?_of_enum? hfound)

theorem Sound.setValues {e : Enumeration} {values : List String} {id : String} (h : g.Sound)
    (hfound : g.enum? id = some e) (hvalues : values.Nodup) :
    (g.insertNode (.enum { e with values })).Sound := by
  obtain rfl : e.id = id := (mem_nodes_of_node? (node?_of_enum? hfound)).2
  obtain ⟨before, after, hnodes, hplaced⟩ := insertNode_values values hfound
  have hids : (g.insertNode (.enum { e with values })).modelIds = g.modelIds := by
    simp only [modelIds, models, hplaced, hnodes, List.filterMap_append, List.filterMap_cons,
      Node.model?]
  refine ⟨?_, ?_, fun n hn => ?_, fun r hr => ?_⟩
  · have hsame := h.names
    rw [hnodes, List.map_append, List.map_cons] at hsame
    rwa [hplaced, List.map_append, List.map_cons]
  · have hsame := h.ids
    rw [hnodes, List.map_append, List.map_cons] at hsame
    rwa [hplaced, List.map_append, List.map_cons]
  · obtain rfl | hn := mem_placeOrAppend hn
    · exact hvalues
    · exact h.tidy n hn
  · rw [hids]
    exact h.joins r hr

theorem mapModels_nodes_map {β : Type} (f : Model → Model) (shown : Node → β)
    (hf : ∀ m, shown (.model (f m)) = shown (.model m)) :
    (g.mapModels f).nodes.map shown = g.nodes.map shown := by
  simp only [mapModels, List.map_map]
  refine List.map_congr_left fun n _ => ?_
  cases n with
  | model m => exact hf m
  | enum e => rfl

/-- Models may change in place as long as they keep their id, their name and distinct fields. -/
theorem Sound.mapModels {f : Model → Model} (h : g.Sound) (hid : ∀ m, (f m).id = m.id)
    (hname : ∀ m, (f m).name = m.name)
    (hfields : ∀ m, m.HasDistinctFields → (f m).HasDistinctFields) : (g.mapModels f).Sound := by
  refine ⟨?_, ?_, fun n hn => ?_, fun e he => ?_⟩
  · rw [mapModels_nodes_map f Node.name hname]
    exact h.names
  · rw [mapModels_nodes_map f Node.id hid]
    exact h.ids
  · obtain ⟨n', hn', rfl⟩ := List.mem_map.mp hn
    cases n' with
    | model m => exact hfields m (h.tidy _ hn')
    | enum e => exact h.tidy _ hn'
  · rw [mapModels_modelIds g hid]
    exact h.joins e he

theorem Sound.setFields {fields : List Field} (h : g.Sound) (id : String)
    (hfields : (fields.map (·.name)).Nodup) : (g.setFields id fields).Sound := by
  refine h.mapModels (fun m => ?_) (fun m => ?_) fun m hm => ?_
  · by_cases hm : m.id = id <;> simp [hm]
  · by_cases hm : m.id = id <;> simp [hm]
  · by_cases hmid : m.id = id
    · rw [if_pos hmid]
      exact hfields
    · rwa [if_neg hmid]

theorem Sound.setAllFields {models : List Model} (h : g.Sound)
    (hfields : ∀ m ∈ models, m.HasDistinctFields) : (g.setAllFields models).Sound := by
  unfold Graph.setAllFields
  induction models generalizing g with
  | nil => exact h
  | cons m models ih =>
      refine ih (h.setFields m.id (hfields m List.mem_cons_self)) fun m' hm' => ?_
      exact hfields m' (List.mem_cons_of_mem m hm')

theorem Sound.dropDerived (h : g.Sound) (edge : String) : (g.dropDerived edge).Sound :=
  h.mapModels (fun _ => rfl) (fun _ => rfl) fun _ hm => hm.sublist (List.filter_sublist.map _)

theorem Sound.retypeFields (h : g.Sound) (old new : String) :
    (g.mapModels (Graph.retypeFields old new)).Sound := by
  refine h.mapModels (fun _ => rfl) (fun _ => rfl) fun m hm => ?_
  have hnames : (Graph.retypeFields old new m).fields.map (·.name) = m.fields.map (·.name) := by
    simp only [Graph.retypeFields, List.map_map]
    refine List.map_congr_left fun f _ => ?_
    by_cases hf : f.type = old <;> simp [hf]
  unfold Model.HasDistinctFields
  rwa [hnames]

section Rename

variable (id name : String)

theorem renameNode_ids : (g.renameNode id name).nodes.map Node.id = g.nodes.map Node.id := by
  simp only [renameNode, List.map_map]
  refine List.map_congr_left fun n _ => ?_
  by_cases hn : n.id = id <;> simp [hn]

theorem renameNode_names : (g.renameNode id name).nodes.map Node.name =
    g.nodes.map fun n => if n.id = id then name else n.name := by
  simp only [renameNode, List.map_map]
  refine List.map_congr_left fun n _ => ?_
  by_cases hn : n.id = id <;> simp [hn]

theorem renameNode_modelIds : (g.renameNode id name).modelIds = g.modelIds := by
  simp only [modelIds, models, renameNode, List.filterMap_map, List.map_filterMap]
  refine List.filterMap_congr fun n _ => ?_
  by_cases hn : n.id = id
  · cases n <;> simp [hn, Node.rename, Node.model?]
  · simp [hn]

end Rename

theorem Sound.renameNode {id name : String} (h : g.Sound)
    (hfree : ∀ n ∈ g.nodes, n.name = name → n.id = id) : (g.renameNode id name).Sound := by
  refine ⟨?_, ?_, fun n hn => ?_, fun e he => ?_⟩
  · rw [renameNode_names]
    exact Document.nodup_renamed h.ids h.names hfree
  · rw [renameNode_ids]
    exact h.ids
  · obtain ⟨n', hn', rfl⟩ := List.mem_map.mp hn
    by_cases hid : n'.id = id
    · rw [if_pos hid, Node.rename_isTidy]
      exact h.tidy _ hn'
    · rw [if_neg hid]
      exact h.tidy _ hn'
  · rw [renameNode_modelIds]
    exact h.joins e he

theorem mem_removeNode_modelIds {id id' : String} :
    id' ∈ (g.removeNode id).modelIds ↔ id' ∈ g.modelIds ∧ id' ≠ id := by
  simp only [mem_modelIds, Graph.removeNode, List.mem_filter, decide_eq_true_eq, and_assoc]
  constructor
  · rintro ⟨m, hm, hne, rfl⟩
    exact ⟨⟨m, hm, rfl⟩, hne⟩
  · rintro ⟨⟨m, hm, rfl⟩, hne⟩
    exact ⟨m, hm, hne, rfl⟩

/-- A node that is deleted takes its relations with it. -/
theorem Sound.removeNode (h : g.Sound) (id : String) :
    ((g.removeNode id).removeRelationsOf id).Sound := by
  have hnodes : ((g.removeNode id).removeRelationsOf id).nodes.Sublist g.nodes :=
    List.filter_sublist
  refine ⟨h.names.sublist (hnodes.map _), h.ids.sublist (hnodes.map _),
    fun n hn => h.tidy n (hnodes.mem hn), fun e he => ?_⟩
  obtain ⟨he, hends⟩ := List.mem_filter.mp he
  simp only [Bool.and_eq_true, decide_eq_true_eq] at hends
  obtain ⟨htype, hsource, htarget⟩ := h.joins e he
  exact ⟨htype, mem_removeNode_modelIds.mpr ⟨hsource, hends.1⟩,
    mem_removeNode_modelIds.mpr ⟨htarget, hends.2⟩⟩

/-! ### Changes of relations -/

theorem Sound.insertRelation {e : RelationEdge} (h : g.Sound) (he : e.Joins g.modelIds) :
    (g.insertRelation e).Sound := by
  refine Sound.attachRelations ⟨h.names, h.ids, h.tidy, fun r hr => ?_⟩
  obtain rfl | hr := mem_placeOrAppend hr
  · exact he
  · exact h.joins r hr

theorem Sound.popRelation (h : g.Sound) (id : String) : (g.popRelation id).Sound :=
  ⟨h.names, h.ids, h.tidy, fun e he => h.joins e (List.mem_filter.mp he).1⟩

theorem Sound.detach (h : g.Sound) (e : RelationEdge) : (g.detach e).Sound := h.congr rfl rfl

theorem Sound.synthesizeEdges {edges : List RelationEdge} {done : Graph × List Outcome}
    (h : g.Sound) (hrun : g.synthesizeEdges edges = .ok done) : done.1.Sound := by
  unfold Graph.synthesizeEdges at hrun
  cases hsynthesis : synthesizeFields edges g.models with
  | error e =>
      rw [hsynthesis] at hrun
      cases hrun
  | ok s =>
      rw [hsynthesis] at hrun
      obtain rfl := Except.ok.inj hrun
      refine Sound.relinkEnums (h.setAllFields ?_)
      refine Synthesis.synthesizeFields_hasDistinctFields hsynthesis fun m hm => ?_
      exact h.tidy _ (mem_models.mp hm)

/-! ### The document of a sound graph -/

theorem Sound.nameConflicts (h : g.Sound) : g.toDocument.nameConflicts = [] :=
  Document.nameConflicts_eq_nil_iff.mpr ((names_perm g.nodes).nodup_iff.mpr h.names)

theorem Sound.firstEdgeFault? (h : g.Sound) :
    firstEdgeFault? g.toDocument.relationEdges g.toDocument.models = none :=
  firstEdgeFault?_eq_none_iff.mpr h.joins

theorem Sound.generate (h : g.Sound) : ∃ t, g.toDocument.generate = .ok t := by
  simp [Document.generate, h.nameConflicts, synthesizeFields, h.firstEdgeFault?]

/-- The report of a document depends on the graph for its warnings only. -/
theorem Sound.check_errors (h : g.Sound) : (g.toDocument.check g).errors = [] := by
  rw [Document.check_errors, ← Document.check_errors g.toDocument (ofDocument g.toDocument)]
  exact Document.foretold?_eq_none_iff.mp (Document.generate_eq_ok_iff.mp h.generate)

end Graph

end DrawnSchema
