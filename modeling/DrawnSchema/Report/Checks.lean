import DrawnSchema.Graph.Basic
import DrawnSchema.Report.Basic

namespace DrawnSchema

namespace Document

def kindsOf (d : Document) (name : String) : List String :=
  (["enum", "model"]).filter fun kind =>
    d.namedNodes.any fun n => n.name = name && n.kind.name = kind

def checkNames (d : Document) : Report :=
  { issues := d.nameConflicts.map fun name =>
      { code := "NAME_CONFLICT", severity := .error, model := some name
        message := s!"Name '{name}' is used by more than one model or enum"
        details := [("kinds", .texts (d.kindsOf name))] } }

/-- The model of an id; of several, the last one. -/
def lastModel? (d : Document) (id : String) : Option Model := d.models.reverse.find? (·.id = id)

def checkEndpoint (d : Document) (e : RelationEdge) (role id : String) : List Issue :=
  if (d.lastModel? id).isSome then []
  else [{
    code := "MISSING_ENDPOINT", severity := .error
    message := s!"Relation '{e.id}' {role} '{id}' is not a model"
    details := [("edge_id", .text e.id), ("model_id", .text id)] }]

def checkRelationType (d : Document) (e : RelationEdge) : List Issue :=
  if e.relationType?.isSome then []
  else
    let supported := String.intercalate ", " (RelationType.all.map (·.name))
    [{
      code := "UNSUPPORTED_RELATION_TYPE", severity := .error
      message := s!"Relation '{e.id}' has type '{e.type}' (expected one of {supported})"
      model := (d.lastModel? e.source).map (·.name)
      details := [("edge_id", .text e.id), ("relation_type", .text e.type)] }]

def edgeIssues (d : Document) (e : RelationEdge) : List Issue :=
  d.checkEndpoint e "source" e.source ++ d.checkEndpoint e "target" e.target ++
    d.checkRelationType e

def checkRelations (d : Document) : Report := { issues := d.relationEdges.flatMap d.edgeIssues }

def scalarTypes : List String :=
  ["String", "Int", "BigInt", "Float", "Decimal", "Boolean", "DateTime", "Bytes", "Json"]

def unknownType? (known : List String) (m : Model) (f : Field) : Option Issue :=
  if known.contains f.type then none
  else some {
    code := "UNKNOWN_TYPE", severity := .warning, model := some m.name, field := some f.name
    message := s!"Field type '{f.type}' is not a scalar, enum, or model"
    details := [("type", .text f.type)] }

def emptyEnum? (e : Enumeration) : Option Issue :=
  if e.values.isEmpty then
    some {
      code := "EMPTY_ENUM", severity := .warning, model := some e.name
      message := s!"Enum '{e.name}' has no values" }
  else none

def checkTypes (d : Document) : Report :=
  let known := scalarTypes ++ d.names
  { issues := d.models.flatMap (fun m => m.fields.filterMap (unknownType? known m)) ++
      d.enums.filterMap emptyEnum? }

end Document

namespace Graph

/-- The names that a field with another model's name as type connects: that name, and the name of
the field's model. -/
def referencedNames (g : Graph) : List String :=
  let names := g.models.map (·.name)
  g.models.flatMap fun m => m.fields.flatMap fun f =>
    if names.contains f.type && f.type ≠ m.name then [f.type, m.name] else []

def checkOrphans (g : Graph) : Report :=
  let referenced := g.referencedNames
  { issues := g.models.filterMap fun m =>
      if g.hasRelations m.id || referenced.contains m.name then none
      else some {
        code := "ORPHAN_MODEL", severity := .warning, model := some m.name
        message := s!"Model '{m.name}' has no relations to other models" } }

end Graph

/-- All checks of a document and its graph; the errors that block generation come first. -/
def Document.check (d : Document) (g : Graph) : Report :=
  ((d.checkNames.merge d.checkRelations).merge d.checkTypes).merge g.checkOrphans

end DrawnSchema
