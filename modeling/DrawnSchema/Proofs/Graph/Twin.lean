import DrawnSchema.Proofs.Graph.Arcs

/-!
# Graphs that record the same

A graph remembers in which order its models and its enums came, between each other, and its arcs
remember in which order they were put in. No document shows that. Two graphs that differ in nothing
else answer alike, and a change leaves them so.
-/

namespace DrawnSchema

namespace Graph

/-! ### One kind of nodes in a list of nodes -/

section Kinds

variable {β : Type} {f : Node → Option β} {same : Node → Bool} {new : Node} {nodes : List Node}

/-- Putting in a node of a kind is the same as putting it in among those of its kind. -/
theorem filterMap_placeOrAppend {b : β} {same' : β → Bool} (hnew : f new = some b)
    (hkind : ∀ n ∈ nodes, same n = true → (f n).isSome = true)
    (hsame : ∀ n ∈ nodes, ∀ c, f n = some c → same' c = same n) :
    (placeOrAppend same new nodes).filterMap f = placeOrAppend same' b (nodes.filterMap f) := by
  induction nodes with
  | nil => simp [placeOrAppend, hnew]
  | cons n nodes ih =>
      have hrest := ih (fun n' hn' => hkind n' (List.mem_cons_of_mem n hn'))
        fun n' hn' => hsame n' (List.mem_cons_of_mem n hn')
      have hfirst := hkind n List.mem_cons_self
      rw [placeOrAppend]
      cases hc : f n with
      | none =>
          have hother : same n = false := by
            rw [hc] at hfirst
            simpa using hfirst
          rw [hother, if_neg Bool.false_ne_true, List.filterMap_cons_none hc,
            List.filterMap_cons_none hc, hrest]
      | some c =>
          rw [List.filterMap_cons_some hc, placeOrAppend, hsame n List.mem_cons_self c hc]
          split
          · rw [List.filterMap_cons_some hnew]
          · rw [List.filterMap_cons_some hc, hrest]

/-- Nodes of another kind are left as they are. -/
theorem filterMap_placeOrAppend_of_none (hnew : f new = none)
    (hkind : ∀ n ∈ nodes, same n = true → f n = none) :
    (placeOrAppend same new nodes).filterMap f = nodes.filterMap f := by
  induction nodes with
  | nil => simp [placeOrAppend, hnew]
  | cons n nodes ih =>
      have hrest := ih fun n' hn' => hkind n' (List.mem_cons_of_mem n hn')
      rw [placeOrAppend]
      split
      · rename_i hn
        rw [List.filterMap_cons_none hnew, List.filterMap_cons_none (hkind n List.mem_cons_self hn)]
      · rw [List.filterMap_cons, List.filterMap_cons, hrest]

end Kinds

section Insertion

variable {g : Graph} {n : Node} (hkind : ∀ n' ∈ g.nodes, n'.id = n.id → n'.kind = n.kind)
include hkind

theorem insertNode_models : (g.insertNode n).models =
    match n with
    | .model m => placeOrAppend (·.id = m.id) m g.models
    | .enum _ => g.models := by
  cases n with
  | model m =>
      refine filterMap_placeOrAppend rfl (fun n' hn' hid => ?_) fun n' _ m' hm' => ?_
      · have hsame := hkind n' hn' (of_decide_eq_true hid)
        cases n' with
        | model m' => rfl
        | enum e => cases hsame
      · cases n' with
        | model m'' =>
            obtain rfl := Option.some.inj hm'
            rfl
        | enum e => cases hm'
  | enum e =>
      refine filterMap_placeOrAppend_of_none rfl fun n' hn' hid => ?_
      have hsame := hkind n' hn' (of_decide_eq_true hid)
      cases n' with
      | model m => cases hsame
      | enum e' => rfl

theorem insertNode_enums : (g.insertNode n).enums =
    match n with
    | .model _ => g.enums
    | .enum e => placeOrAppend (·.id = e.id) e g.enums := by
  cases n with
  | model m =>
      refine filterMap_placeOrAppend_of_none rfl fun n' hn' hid => ?_
      have hsame := hkind n' hn' (of_decide_eq_true hid)
      cases n' with
      | model m => rfl
      | enum e => cases hsame
  | enum e =>
      refine filterMap_placeOrAppend rfl (fun n' hn' hid => ?_) fun n' _ e' he' => ?_
      · have hsame := hkind n' hn' (of_decide_eq_true hid)
        cases n' with
        | model m => cases hsame
        | enum e' => rfl
      · cases n' with
        | model m => cases he'
        | enum e'' =>
            obtain rfl := Option.some.inj he'
            rfl

end Insertion

theorem removeNode_models (g : Graph) (id : String) :
    (g.removeNode id).models = g.models.filter fun m => m.id ≠ id := by
  simp only [models, removeNode, List.filterMap_filter, List.filter_filterMap]
  refine List.filterMap_congr fun n _ => ?_
  cases n with
  | model m => by_cases hm : m.id = id <;> simp [Node.model?, Node.id, hm, Option.filter]
  | enum e => by_cases he : e.id = id <;> simp [Node.model?, Node.id, he]

theorem removeNode_enums (g : Graph) (id : String) :
    (g.removeNode id).enums = g.enums.filter fun e => e.id ≠ id := by
  simp only [enums, removeNode, List.filterMap_filter, List.filter_filterMap]
  refine List.filterMap_congr fun n _ => ?_
  cases n with
  | model m => by_cases hm : m.id = id <;> simp [Node.enum?, Node.id, hm]
  | enum e => by_cases he : e.id = id <;> simp [Node.enum?, Node.id, he, Option.filter]

/-- Two graphs show the same models, enums and relations and have the same settings. -/
structure Twin (g h : Graph) : Prop where
  ids : (g.nodes.map Node.id).Nodup
  ids' : (h.nodes.map Node.id).Nodup
  models : h.models = g.models
  enums : h.enums = g.enums
  relations : h.relations = g.relations
  generator : h.generator = g.generator
  datasource : h.datasource = g.datasource

variable {g g' : Graph}

/-! ### Twins answer alike -/

section Answers

variable (h : g.Twin g')
include h

theorem Twin.mem_nodes_iff {n : Node} : n ∈ g'.nodes ↔ n ∈ g.nodes := by
  cases n with
  | model m => rw [← mem_models, ← mem_models, h.models]
  | enum e => rw [← mem_enums, ← mem_enums, h.enums]

theorem Twin.node?_eq (id : String) : g'.node? id = g.node? id := by
  refine Option.ext fun n => ?_
  rw [node?, node?, find?_key_eq_some_iff h.ids, find?_key_eq_some_iff h.ids', h.mem_nodes_iff]

theorem Twin.hasNode_eq (id : String) : g'.hasNode id = g.hasNode id := by
  rw [hasNode, hasNode, h.node?_eq]

theorem Twin.model?_eq (id : String) : g'.model? id = g.model? id := by
  rw [model?, model?, h.node?_eq]

theorem Twin.enum?_eq (id : String) : g'.enum? id = g.enum? id := by
  rw [enum?, enum?, h.node?_eq]

theorem Twin.modelIds_eq : g'.modelIds = g.modelIds := by
  rw [modelIds, modelIds, h.models]

theorem Twin.relation?_eq (id : String) : g'.relation? id = g.relation? id := by
  rw [relation?, relation?, h.relations]

theorem Twin.namesDocument_eq : g'.namesDocument = g.namesDocument := by
  rw [namesDocument, namesDocument, h.models, h.enums]

theorem Twin.knownNames_eq : g'.knownNames = g.knownNames := by
  rw [knownNames, knownNames, h.models, h.enums]

theorem Twin.checkNewId_eq (id : Option String) : g'.checkNewId id = g.checkNewId id := by
  cases id with
  | none => rfl
  | some id => rw [checkNewId, checkNewId, h.hasNode_eq]

theorem Twin.checkName_eq (name : String) (exclude : Option String) :
    g'.checkName name exclude = g.checkName name exclude := by
  rw [checkName, checkName, h.namesDocument_eq]

theorem Twin.newName_eq (base : String) (name : Option String) :
    g'.newName base name = g.newName base name := by
  cases name with
  | none => rw [newName, newName, h.namesDocument_eq]
  | some name => rw [newName, newName, h.checkName_eq]

theorem Twin.nodeOrFail_eq (id : String) : g'.nodeOrFail id = g.nodeOrFail id := by
  rw [nodeOrFail, nodeOrFail, h.node?_eq]

theorem Twin.modelOrFail_eq (id : String) : g'.modelOrFail id = g.modelOrFail id := by
  rw [modelOrFail, modelOrFail, h.model?_eq]

theorem Twin.enumOrFail_eq (id : String) : g'.enumOrFail id = g.enumOrFail id := by
  rw [enumOrFail, enumOrFail, h.enum?_eq]

theorem Twin.relationOrFail_eq (id : String) : g'.relationOrFail id = g.relationOrFail id := by
  rw [relationOrFail, relationOrFail, h.relation?_eq]

theorem Twin.checkNewRelation_eq (id : Option String) :
    g'.checkNewRelation id = g.checkNewRelation id := by
  cases id with
  | none => rfl
  | some id => rw [checkNewRelation, checkNewRelation, h.relation?_eq]

theorem Twin.checkEdge_eq (e : RelationEdge) : g'.checkEdge e = g.checkEdge e := by
  rw [checkEdge, checkEdge, h.modelIds_eq]

theorem Twin.buildField_eq (data : Entries) : g'.buildField data = g.buildField data := by
  rw [buildField, buildField, h.knownNames_eq]

theorem Twin.linked_eq : g'.toDocument.linked = g.toDocument.linked := by
  simp only [toDocument, Document.linked, h.models, h.enums, h.relations, h.generator,
    h.datasource]

end Answers

/-! ### Twins change alike -/

namespace Twin

variable (h : g.Twin g')
include h

theorem withArcs (arcs arcs' : List Arc) : Twin { g with arcs } { g' with arcs := arcs' } :=
  ⟨h.ids, h.ids', h.models, h.enums, h.relations, h.generator, h.datasource⟩

theorem relinkEnums : g.relinkEnums.Twin g'.relinkEnums := by
  rw [relinkEnums_eq, relinkEnums_eq g']
  exact h.withArcs _ _

theorem attachRelations : g.attachRelations.Twin g'.attachRelations := by
  rw [attachRelations_eq, attachRelations_eq g']
  exact h.withArcs _ _

theorem insertRelation (e : RelationEdge) : (g.insertRelation e).Twin (g'.insertRelation e) := by
  refine Twin.attachRelations ⟨h.ids, h.ids', h.models, h.enums, ?_, h.generator, h.datasource⟩
  exact congrArg (placeOrAppend (fun r => r.id = e.id) e) h.relations

theorem popRelation (id : String) : (g.popRelation id).Twin (g'.popRelation id) := by
  refine ⟨h.ids, h.ids', h.models, h.enums, ?_, h.generator, h.datasource⟩
  exact congrArg (List.filter fun r => r.id ≠ id) h.relations

theorem detach (e : RelationEdge) : (g.detach e).Twin (g'.detach e) := h.withArcs _ _

theorem removeNode (id : String) :
    ((g.removeNode id).removeRelationsOf id).Twin ((g'.removeNode id).removeRelationsOf id) := by
  refine ⟨h.ids.sublist (List.filter_sublist.map _), h.ids'.sublist (List.filter_sublist.map _),
    ?_, ?_, ?_, h.generator, h.datasource⟩
  · exact (removeNode_models g' id).trans <| h.models ▸ (removeNode_models g id).symm
  · exact (removeNode_enums g' id).trans <| h.enums ▸ (removeNode_enums g id).symm
  · exact congrArg (List.filter fun e => e.source ≠ id && e.target ≠ id) h.relations

/-- Nodes may be changed one by one, models and enums each in a way of their own. -/
theorem mapNodes {f : Node → Node} (onModel : Model → Model) (onEnum : Enumeration → Enumeration)
    (hid : ∀ n, (f n).id = n.id) (hmodel : ∀ n, (f n).model? = n.model?.map onModel)
    (henum : ∀ n, (f n).enum? = n.enum?.map onEnum) :
    Twin { g with nodes := g.nodes.map f } { g' with nodes := g'.nodes.map f } := by
  have hids (nodes : List Node) : (nodes.map f).map Node.id = nodes.map Node.id := by
    rw [List.map_map]
    exact List.map_congr_left fun n _ => hid n
  have hmodels (nodes : List Node) :
      (nodes.map f).filterMap Node.model? = (nodes.filterMap Node.model?).map onModel := by
    rw [List.filterMap_map, List.map_filterMap]
    exact List.filterMap_congr fun n _ => hmodel n
  have henums (nodes : List Node) :
      (nodes.map f).filterMap Node.enum? = (nodes.filterMap Node.enum?).map onEnum := by
    rw [List.filterMap_map, List.map_filterMap]
    exact List.filterMap_congr fun n _ => henum n
  refine ⟨?_, ?_, ?_, ?_, h.relations, h.generator, h.datasource⟩
  · rw [hids]
    exact h.ids
  · rw [hids]
    exact h.ids'
  · exact (hmodels g'.nodes).trans <| (congrArg (List.map onModel) h.models).trans
      (hmodels g.nodes).symm
  · exact (henums g'.nodes).trans <| (congrArg (List.map onEnum) h.enums).trans
      (henums g.nodes).symm

theorem mapModels {f : Model → Model} (hid : ∀ m, (f m).id = m.id) :
    (g.mapModels f).Twin (g'.mapModels f) := by
  refine h.mapNodes f (fun e => e) (fun n => ?_) (fun n => ?_) fun n => ?_
  · cases n with
    | model m => exact hid m
    | enum e => rfl
  · cases n <;> rfl
  · cases n <;> rfl

theorem setFields (id : String) (fields : List Field) :
    (g.setFields id fields).Twin (g'.setFields id fields) := by
  refine h.mapModels fun m => ?_
  split <;> rfl

theorem dropDerived (edge : String) : (g.dropDerived edge).Twin (g'.dropDerived edge) :=
  h.mapModels fun _ => rfl

theorem renameNode (id name : String) : (g.renameNode id name).Twin (g'.renameNode id name) := by
  refine h.mapNodes (fun m => if m.id = id then { m with name } else m)
    (fun e => if e.id = id then { e with name } else e) (fun n => ?_) (fun n => ?_) fun n => ?_
  · split <;> simp
  · cases n with
    | model m => by_cases hm : m.id = id <;> simp [Node.id, Node.rename, Node.model?, hm]
    | enum e => by_cases he : e.id = id <;> simp [Node.id, Node.rename, Node.model?, he]
  · cases n with
    | model m => by_cases hm : m.id = id <;> simp [Node.id, Node.rename, Node.enum?, hm]
    | enum e => by_cases he : e.id = id <;> simp [Node.id, Node.rename, Node.enum?, he]

theorem insertNode {n : Node} (hkind : ∀ n' ∈ g.nodes, n'.id = n.id → n'.kind = n.kind) :
    (g.insertNode n).Twin (g'.insertNode n) := by
  have hkind' : ∀ n' ∈ g'.nodes, n'.id = n.id → n'.kind = n.kind :=
    fun n' hn' => hkind n' (h.mem_nodes_iff.mp hn')
  refine ⟨placeOrAppend_nodup n h.ids, placeOrAppend_nodup n h.ids', ?_, ?_, h.relations,
    h.generator, h.datasource⟩
  · rw [insertNode_models hkind, insertNode_models hkind', h.models]
    cases n <;> rfl
  · rw [insertNode_enums hkind, insertNode_enums hkind', h.enums]
    cases n <;> rfl

theorem insertNode_of_new {n : Node} (hnew : g.hasNode n.id = false) :
    (g.insertNode n).Twin (g'.insertNode n) := by
  have hfresh : n.id ∉ g.nodes.map Node.id := hasNode_eq_false_iff.mp hnew
  exact h.insertNode fun n' hn' hid => absurd (hid ▸ List.mem_map_of_mem hn') hfresh

theorem insertModel {m : Model} (hnew : g.hasNode m.id = false) :
    (g.insertModel m).Twin (g'.insertModel m) :=
  (h.insertNode_of_new (n := .model m) hnew).attachRelations

theorem insertEnum {e : Enumeration} (hnew : g.hasNode e.id = false) :
    (g.insertEnum e).Twin (g'.insertEnum e) :=
  h.insertNode_of_new (n := .enum e) hnew

/-- An enum gives way to one with other values. -/
theorem insertValues {id : String} {e : Enumeration} (values : List String)
    (hfound : g.enum? id = some e) :
    (g.insertNode (.enum { e with values })).Twin (g'.insertNode (.enum { e with values })) := by
  have hnode := node?_of_enum? hfound
  obtain rfl : e.id = id := (mem_nodes_of_node? hnode).2
  refine h.insertNode fun n hn hid => ?_
  obtain rfl : .enum e = n :=
    Option.some.inj (hnode.symm.trans ((find?_key_eq_some_iff h.ids).mpr ⟨hn, hid⟩))
  rfl

end Twin

end Graph

end DrawnSchema
