import DrawnSchema.Graph.Change
import Mathlib.Data.List.Basic

/-!
# What a change of a graph leaves as it is

Arcs are derived from nodes and relations. Attaching relations and linking enums rewrites the arcs
and nothing else, so each other part of the graph can be read off before or after.
-/

namespace DrawnSchema.Graph

theorem attach_eq (g : Graph) (e : RelationEdge) :
    g.attach e = { g with arcs := (g.attach e).arcs } := by
  unfold attach
  split <;> rfl

theorem foldl_attach_eq (edges : List RelationEdge) (g : Graph) :
    edges.foldl attach g = { g with arcs := (edges.foldl attach g).arcs } := by
  induction edges generalizing g with
  | nil => rfl
  | cons e edges ih =>
      rw [List.foldl_cons, ih (g.attach e)]
      rw [attach_eq]

theorem attachRelations_eq (g : Graph) :
    g.attachRelations = { g with arcs := g.attachRelations.arcs } :=
  foldl_attach_eq g.relations g

theorem foldl_link_eq (edges : List EnumEdge) (g : Graph) :
    edges.foldl link g = { g with arcs := (edges.foldl link g).arcs } := by
  induction edges generalizing g with
  | nil => rfl
  | cons e edges ih =>
      rw [List.foldl_cons, ih (g.link e)]
      rfl

theorem relinkEnums_eq (g : Graph) : g.relinkEnums = { g with arcs := g.relinkEnums.arcs } := by
  unfold relinkEnums
  rw [foldl_link_eq]

section Fields

variable (g : Graph)

@[simp]
theorem attachRelations_nodes : g.attachRelations.nodes = g.nodes := by
  rw [attachRelations_eq]

@[simp]
theorem attachRelations_relations : g.attachRelations.relations = g.relations := by
  rw [attachRelations_eq]

@[simp]
theorem attachRelations_models : g.attachRelations.models = g.models := by
  rw [models, attachRelations_nodes]
  rfl

@[simp]
theorem attachRelations_modelIds : g.attachRelations.modelIds = g.modelIds := by
  rw [modelIds, models, attachRelations_nodes]
  rfl

@[simp]
theorem relinkEnums_nodes : g.relinkEnums.nodes = g.nodes := by
  rw [relinkEnums_eq]

@[simp]
theorem relinkEnums_relations : g.relinkEnums.relations = g.relations := by
  rw [relinkEnums_eq]

@[simp]
theorem relinkEnums_generator : g.relinkEnums.generator = g.generator := by
  rw [relinkEnums_eq]

@[simp]
theorem relinkEnums_datasource : g.relinkEnums.datasource = g.datasource := by
  rw [relinkEnums_eq]

@[simp]
theorem relinkEnums_models : g.relinkEnums.models = g.models := by
  rw [models, relinkEnums_nodes]
  rfl

@[simp]
theorem relinkEnums_enums : g.relinkEnums.enums = g.enums := by
  rw [enums, relinkEnums_nodes]
  rfl

@[simp]
theorem relinkEnums_modelIds : g.relinkEnums.modelIds = g.modelIds := by
  rw [modelIds, relinkEnums_models]
  rfl

@[simp]
theorem insertRelation_nodes (e : RelationEdge) : (g.insertRelation e).nodes = g.nodes := by
  simp [insertRelation]

@[simp]
theorem insertRelation_models (e : RelationEdge) : (g.insertRelation e).models = g.models := by
  rw [models, insertRelation_nodes]
  rfl

@[simp]
theorem insertRelation_modelIds (e : RelationEdge) :
    (g.insertRelation e).modelIds = g.modelIds := by
  rw [modelIds, insertRelation_models]
  rfl

@[simp]
theorem insertRelation_relations (e : RelationEdge) :
    (g.insertRelation e).relations = placeOrAppend (fun r => r.id = e.id) e g.relations := by
  simp [insertRelation]

end Fields

theorem mapModels_models (g : Graph) (f : Model → Model) :
    (g.mapModels f).models = g.models.map f := by
  simp only [models, mapModels, List.filterMap_map, List.map_filterMap]
  refine List.filterMap_congr fun n _ => ?_
  cases n <;> rfl

theorem mapModels_enums (g : Graph) (f : Model → Model) : (g.mapModels f).enums = g.enums := by
  simp only [enums, mapModels, List.filterMap_map]
  refine List.filterMap_congr fun n _ => ?_
  cases n <;> rfl

theorem mapModels_modelIds (g : Graph) {f : Model → Model} (hid : ∀ m, (f m).id = m.id) :
    (g.mapModels f).modelIds = g.modelIds := by
  simp [modelIds, mapModels_models, hid]

@[simp]
theorem dropDerived_modelIds (g : Graph) (edge : String) :
    (g.dropDerived edge).modelIds = g.modelIds :=
  mapModels_modelIds g fun _ => rfl

end DrawnSchema.Graph
