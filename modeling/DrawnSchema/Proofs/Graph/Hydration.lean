import DrawnSchema.Proofs.Graph.Sound

/-!
# The graph of a document

Nodes and relations go into the graph one by one, and each takes the place of one that has its id.
So ids are distinct in the graph, whatever they are in the document. If they are distinct in the
document, the graph has its nodes and its relations as they are, in their order.
-/

namespace DrawnSchema

def Document.nodes (d : Document) : List Node := d.models.map .model ++ d.enums.map .enum

def Node.named (n : Node) : NamedNode := ⟨n.kind, n.id, n.name⟩

theorem Document.namedNodes_eq (d : Document) : d.namedNodes = d.nodes.map Node.named := by
  simp only [namedNodes, nodes, List.map_append, List.map_map]
  rfl

/-- Ids tell the nodes apart, and they tell the relations apart. -/
structure Document.HasDistinctIds (d : Document) : Prop where
  nodes : (d.models.map (·.id) ++ d.enums.map (·.id)).Nodup
  relations : (d.relationEdges.map (·.id)).Nodup

namespace Graph

/-! ### Putting in one after the other -/

/-- Each item goes in the place of the one that has its key, at the end if there is none. -/
def placeAll {α : Type} (key : α → String) (items placed : List α) : List α :=
  items.foldl (fun l a => placeOrAppend (fun b => key b = key a) a l) placed

section PlaceAll

variable {α : Type} {key : α → String} {items placed : List α}

theorem placeOrAppend_nodup (a : α) (h : (placed.map key).Nodup) :
    ((placeOrAppend (fun b => key b = key a) a placed).map key).Nodup := by
  cases hfind : placed.find? (fun b => key b = key a) with
  | none =>
      have hfresh : ∀ b ∈ placed, key b ≠ key a := by simpa using hfind
      rw [placeOrAppend_of_none fun b hb => decide_eq_false (hfresh b hb), List.map_append]
      refine List.nodup_append_comm.mp (List.nodup_cons.mpr ⟨fun hmem => ?_, h⟩)
      obtain ⟨b, hb, heq⟩ := List.mem_map.mp hmem
      exact hfresh b hb heq
  | some b =>
      have hkey : key b = key a := by simpa using List.find?_some hfind
      obtain ⟨before, after, rfl, hplaced⟩ := placeOrAppend_of_find? a hfind
      rw [List.map_append, List.map_cons, hkey] at h
      rwa [hplaced, List.map_append, List.map_cons]

theorem placeAll_nodup (items : List α) (h : (placed.map key).Nodup) :
    ((placeAll key items placed).map key).Nodup := by
  induction items generalizing placed with
  | nil => exact h
  | cons a items ih => exact ih (placeOrAppend_nodup a h)

theorem mem_placeAll {a : α} (h : a ∈ placeAll key items placed) : a ∈ items ∨ a ∈ placed := by
  induction items generalizing placed with
  | nil => exact Or.inr h
  | cons b items ih =>
      obtain hrest | hfirst := ih h
      · exact Or.inl (List.mem_cons_of_mem b hrest)
      · obtain rfl | hplaced := mem_placeOrAppend hfirst
        · exact Or.inl List.mem_cons_self
        · exact Or.inr hplaced

/-- Items whose keys are not in use yet all go to the end. -/
theorem placeAll_of_nodup (h : ((placed ++ items).map key).Nodup) :
    placeAll key items placed = placed ++ items := by
  induction items generalizing placed with
  | nil => exact (List.append_nil placed).symm
  | cons a items ih =>
      rw [List.append_cons] at h ⊢
      have hfresh : ∀ b ∈ placed, key b ≠ key a := by
        intro b hb
        rw [List.map_append, List.map_append, List.nodup_append, List.nodup_append] at h
        exact h.1.2.2 _ (List.mem_map_of_mem hb) _ (by simp)
      have hstep : placeOrAppend (fun b => key b = key a) a placed = placed ++ [a] :=
        placeOrAppend_of_none fun b hb => decide_eq_false (hfresh b hb)
      rw [← ih h, ← hstep]
      rfl

/-- Where items go is told by their keys. -/
theorem placeOrAppend_map {β : Type} {key' : β → String} {f : α → β}
    (hkey : ∀ a, key' (f a) = key a) (a : α) (placed : List α) :
    (placeOrAppend (fun b => key b = key a) a placed).map f =
      placeOrAppend (fun b => key' b = key' (f a)) (f a) (placed.map f) := by
  induction placed with
  | nil => rfl
  | cons b placed ih =>
      rw [placeOrAppend, List.map_cons, placeOrAppend, hkey, hkey]
      by_cases hb : key b = key a
      · rw [if_pos (decide_eq_true hb), if_pos (decide_eq_true hb), List.map_cons]
      · rw [if_neg (by simpa using hb), if_neg (by simpa using hb), List.map_cons, ih]
        simp only [hkey]

theorem placeAll_map {β : Type} {key' : β → String} {f : α → β} (hkey : ∀ a, key' (f a) = key a)
    (items placed : List α) :
    (placeAll key items placed).map f = placeAll key' (items.map f) (placed.map f) := by
  induction items generalizing placed with
  | nil => rfl
  | cons a items ih =>
      have hstep := ih (placeOrAppend (fun b => key b = key a) a placed)
      rwa [placeOrAppend_map hkey] at hstep

end PlaceAll

/-! ### Nodes first, then relations -/

variable {g : Graph} {d : Document}

theorem foldl_insertNode_eq (nodes : List Node) (g : Graph) :
    nodes.foldl insertNode g = { g with nodes := placeAll Node.id nodes g.nodes } := by
  induction nodes generalizing g with
  | nil => rfl
  | cons n nodes ih => exact ih (g.insertNode n)

/-- As long as there is no relation, a model that is put in brings no arc. -/
theorem foldl_insertModel_eq (models : List Model) (h : g.relations = []) :
    models.foldl insertModel g = (models.map Node.model).foldl insertNode g := by
  induction models generalizing g with
  | nil => rfl
  | cons m models ih =>
      have hstep : g.insertModel m = g.insertNode (.model m) := by
        have hrelations : (g.insertNode (.model m)).relations = [] := h
        unfold insertModel attachRelations
        rw [hrelations]
        rfl
      rw [List.foldl_cons, hstep, ih (g := g.insertNode (.model m)) h]
      rfl

theorem foldl_insertEnum_eq (enums : List Enumeration) (g : Graph) :
    enums.foldl insertEnum g = (enums.map Node.enum).foldl insertNode g := by
  rw [List.foldl_map]
  rfl

theorem insertRelation_eq (g : Graph) (e : RelationEdge) :
    g.insertRelation e =
      { g with
        relations := placeOrAppend (fun r => r.id = e.id) e g.relations
        arcs := (g.insertRelation e).arcs } := by
  unfold insertRelation
  rw [attachRelations_eq]

theorem foldl_insertRelation_eq (edges : List RelationEdge) (g : Graph) :
    edges.foldl insertRelation g =
      { g with
        relations := placeAll (·.id) edges g.relations
        arcs := (edges.foldl insertRelation g).arcs } := by
  induction edges generalizing g with
  | nil => rfl
  | cons e edges ih =>
      rw [List.foldl_cons, ih (g.insertRelation e), insertRelation_eq]
      rfl

/-- The nodes of a document, with no relation drawn yet. -/
def ofNodes (d : Document) : Graph :=
  { nodes := placeAll Node.id d.nodes [], generator := d.generator, datasource := d.datasource }

def drawn (d : Document) : Graph := d.relationEdges.foldl insertRelation (ofNodes d)

theorem ofDocument_eq_relinkEnums (d : Document) : ofDocument d = (drawn d).relinkEnums := by
  have hnodes : d.enums.foldl insertEnum
      (d.models.foldl insertModel { generator := d.generator, datasource := d.datasource }) =
      ofNodes d := by
    rw [foldl_insertModel_eq _ rfl, foldl_insertEnum_eq, ← List.foldl_append, foldl_insertNode_eq]
    rfl
  unfold drawn
  rw [← hnodes]
  rfl

theorem drawn_eq (d : Document) :
    drawn d =
      { ofNodes d with
        relations := placeAll (·.id) d.relationEdges []
        arcs := (drawn d).arcs } :=
  foldl_insertRelation_eq d.relationEdges (ofNodes d)

theorem ofDocument_eq (d : Document) :
    ofDocument d =
      { ofNodes d with
        relations := placeAll (·.id) d.relationEdges []
        arcs := (ofDocument d).arcs } := by
  rw [ofDocument_eq_relinkEnums, relinkEnums_eq, drawn_eq]

theorem ofNodes_ids (d : Document) : ((ofNodes d).nodes.map Node.id).Nodup :=
  placeAll_nodup d.nodes List.nodup_nil

theorem ofDocument_nodes (d : Document) : (ofDocument d).nodes = (ofNodes d).nodes := by
  rw [ofDocument_eq]

theorem ofDocument_relations (d : Document) :
    (ofDocument d).relations = placeAll (·.id) d.relationEdges [] := by
  rw [ofDocument_eq]

theorem ofDocument_relationIds (d : Document) : ((ofDocument d).relations.map (·.id)).Nodup := by
  rw [ofDocument_relations]
  exact placeAll_nodup d.relationEdges List.nodup_nil

theorem mem_of_mem_ofDocument_nodes {n : Node} (h : n ∈ (ofDocument d).nodes) : n ∈ d.nodes := by
  rw [ofDocument_nodes] at h
  exact (mem_placeAll h).resolve_right List.not_mem_nil

theorem mem_of_mem_ofDocument_models {m : Model} (h : m ∈ (ofDocument d).models) :
    m ∈ d.models := by
  simpa [Document.nodes] using mem_of_mem_ofDocument_nodes (mem_models.mp h)

theorem mem_of_mem_ofDocument_enums {e : Enumeration} (h : e ∈ (ofDocument d).enums) :
    e ∈ d.enums := by
  simpa [Document.nodes] using mem_of_mem_ofDocument_nodes (mem_enums.mp h)

/-- Which models a graph has, by their ids and names, is told by the ids and the names of all nodes
of its document. -/
theorem ofDocument_headings_congr {d' : Document} (h : d'.namedNodes = d.namedNodes) :
    (ofDocument d').models.map Model.heading = (ofDocument d).models.map Model.heading := by
  have hnamed (d : Document) : (ofDocument d).nodes.map Node.named =
      placeAll NamedNode.id d.namedNodes [] := by
    have hkey (n : Node) : NamedNode.id n.named = n.id := by
      cases n <;> rfl
    rw [ofDocument_nodes, d.namedNodes_eq]
    exact placeAll_map hkey d.nodes []
  have hheadings (g : Graph) : g.models.map Model.heading =
      (g.nodes.map Node.named).filterMap fun n =>
        if n.kind = .model then some (n.id, n.name) else none := by
    rw [models, List.map_filterMap, List.filterMap_map]
    refine List.filterMap_congr fun n _ => ?_
    cases n <;> rfl
  rw [hheadings, hheadings, hnamed, hnamed, h]

/-! ### Where ids are distinct -/

section DistinctIds

variable (h : (d.models.map (·.id) ++ d.enums.map (·.id)).Nodup)
include h

theorem ofDocument_nodes_of_nodup : (ofDocument d).nodes = d.nodes := by
  have hids : (([] ++ d.nodes).map Node.id).Nodup := by
    simpa [Document.nodes, Function.comp_def, Node.id] using h
  rw [ofDocument_nodes]
  exact placeAll_of_nodup hids

theorem ofDocument_models_of_nodup : (ofDocument d).models = d.models := by
  rw [models, ofDocument_nodes_of_nodup h]
  simp [Document.nodes, List.filterMap_map, Function.comp_def, Node.model?]

end DistinctIds

end Graph

namespace Document.HasDistinctIds

variable {d : Document} (h : d.HasDistinctIds)
include h

theorem ofDocument_nodes : (Graph.ofDocument d).nodes = d.nodes :=
  Graph.ofDocument_nodes_of_nodup h.nodes

theorem ofDocument_models : (Graph.ofDocument d).models = d.models :=
  Graph.ofDocument_models_of_nodup h.nodes

theorem ofDocument_enums : (Graph.ofDocument d).enums = d.enums := by
  rw [Graph.enums, h.ofDocument_nodes]
  simp [Document.nodes, List.filterMap_map, Function.comp_def, Node.enum?]

theorem ofDocument_relations : (Graph.ofDocument d).relations = d.relationEdges := by
  rw [Graph.ofDocument_relations]
  exact Graph.placeAll_of_nodup h.relations

end Document.HasDistinctIds

end DrawnSchema
