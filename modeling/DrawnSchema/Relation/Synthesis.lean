import DrawnSchema.Document.Basic
import DrawnSchema.Text.Case

namespace DrawnSchema

inductive CompileError where
  | nameConflict (names : List String)
  | missingEndpoint (edge : String) (missing : List String)
  | unsupportedRelationType (edge type : String)
deriving DecidableEq, Repr

def CompileError.message : CompileError → String
  | .nameConflict names =>
    "Naming conflicts detected for: " ++ String.intercalate ", " names ++
      ". Models and enums must have unique names."
  | .missingEndpoint edge missing =>
    s!"Relation '{edge}' references unknown model(s): " ++ String.intercalate ", " missing
  | .unsupportedRelationType edge type =>
    s!"Unsupported relation type '{type}' on relation '{edge}'"

def pluralize (name : String) : String := Text.lower name ++ "s"

def foreignKeyName (name : String) : String := Text.lower name ++ "_id"

def foreignKeyType : String := "String"

namespace RelationEdge

def sourceFieldId (edge : String) : String := "rel-" ++ edge ++ "-source"

def targetFieldId (edge : String) : String := "rel-" ++ edge ++ "-target"

def foreignKeyId (edge : String) : String := "fk-" ++ edge

def derivedIds (edge : String) : List String :=
  [sourceFieldId edge, targetFieldId edge, foreignKeyId edge]

def missingEndpoints (e : RelationEdge) (modelIds : List String) : List String :=
  [e.source, e.target].eraseDups.filter fun id => !modelIds.contains id

def fault? (e : RelationEdge) (modelIds : List String) : Option CompileError :=
  let missing := e.missingEndpoints modelIds
  if !missing.isEmpty then some (.missingEndpoint e.id missing)
  else if e.relationType?.isNone then some (.unsupportedRelationType e.id e.type)
  else none

end RelationEdge

inductive EdgeEnd where
  | source
  | target
deriving DecidableEq, Repr

namespace RelationEdge

def endpoint (e : RelationEdge) : EdgeEnd → String
  | .source => e.source
  | .target => e.target

/-- What the singular side of a relation says: its foreign key refers to the id. -/
def info (e : RelationEdge) (foreignKey : String) : RelationInfo :=
  { name := e.name, fields := [foreignKey], references := ["id"]
    onDelete := e.onDelete, onUpdate := e.onUpdate }

def listField (id : String) (other : Model) : Field :=
  { id := some id, name := pluralize other.name, type := other.name, isArray := true
    origin := .derived, content := .relation none }

def singleField (e : RelationEdge) (id : String) (other : Model) (foreignKey : String) : Field :=
  { id := some id, name := Text.lower other.name, type := other.name, isOptional := e.isOptional
    origin := .derived, content := .relation (some (e.info foreignKey)) }

def foreignKeyField (e : RelationEdge) (name : String) (isUnique : Bool) : Field :=
  { id := some (foreignKeyId e.id), name, type := foreignKeyType, isOptional := e.isOptional
    origin := .derived, content := .scalar { isUnique } }

def impliedFieldsOf (e : RelationEdge) (source target : Model) :
    RelationType → List (EdgeEnd × Field)
  | .oneToMany =>
    let key := foreignKeyName source.name
    [(.source, listField (sourceFieldId e.id) target),
      (.target, e.singleField (targetFieldId e.id) source key),
      (.target, e.foreignKeyField key false)]
  | .oneToOne =>
    let key := foreignKeyName target.name
    [(.source, e.singleField (sourceFieldId e.id) target key),
      (.source, e.foreignKeyField key true)]
  | .manyToMany =>
    [(.source, listField (sourceFieldId e.id) target),
      (.target, listField (targetFieldId e.id) source)]

def impliedFields (e : RelationEdge) (source target : Model) : List (EdgeEnd × Field) :=
  match e.relationType? with
  | some type => e.impliedFieldsOf source target type
  | none => []

end RelationEdge

/-- What became of an implied field: it was there by its id, it was added, or its name was
taken. -/
inductive Outcome where
  | present (edge owner field : String)
  | added (edge owner field : String)
  | collision (edge owner field : String)
deriving DecidableEq, Repr

def Outcome.warning? : Outcome → Option String
  | .collision edge owner field =>
    some s!"Relation {edge}: {owner}.{field} already exists, derived field not added"
  | _ => none

/-- Models under synthesis, and what became of the implied fields so far. -/
structure Synthesis where
  models : List Model
  outcomes : List Outcome := []
deriving DecidableEq, Repr

namespace Synthesis

def warnings (s : Synthesis) : List String := s.outcomes.filterMap Outcome.warning?

/-- Where a model lies that goes by an id; of several, the last one. -/
def place? (models : List Model) (id : String) : Option Nat :=
  (models.reverse.findIdx? (·.id = id)).map fun n => models.length - 1 - n

def modelById? (models : List Model) (id : String) : Option Model :=
  models.reverse.find? (·.id = id)

/-- What inserting a field into a model comes to. A field with the id stays, and so does one with
the name. -/
def outcome (edge : String) (owner : Model) (field : Field) : Outcome :=
  if owner.fields.any fun f => f.id = field.id then .present edge owner.name field.name
  else if owner.hasField field.name then .collision edge owner.name field.name
  else .added edge owner.name field.name

def insertInto (edge : String) (owner : Model) (field : Field) : Model :=
  match outcome edge owner field with
  | .added .. => { owner with fields := owner.fields ++ [field] }
  | _ => owner

def insert (edge : RelationEdge) (s : Synthesis) (implied : EdgeEnd × Field) : Synthesis :=
  match place? s.models (edge.endpoint implied.1) with
  | none => s
  | some n =>
    match s.models[n]? with
    | none => s
    | some owner =>
      { models := s.models.set n (insertInto edge.id owner implied.2)
        outcomes := s.outcomes ++ [outcome edge.id owner implied.2] }

def step (s : Synthesis) (edge : RelationEdge) : Synthesis :=
  match modelById? s.models edge.source, modelById? s.models edge.target with
  | some source, some target => (edge.impliedFields source target).foldl (insert edge) s
  | _, _ => s

end Synthesis

def firstEdgeFault? (edges : List RelationEdge) (models : List Model) : Option CompileError :=
  edges.findSome? fun e => e.fault? (models.map (·.id))

/-- Adds the fields that relation edges imply. Fields are only ever added, so a second run adds
none. -/
def synthesizeFields (edges : List RelationEdge) (models : List Model) :
    Except CompileError Synthesis :=
  match firstEdgeFault? edges models with
  | some e => .error e
  | none => .ok (edges.foldl Synthesis.step { models })

end DrawnSchema
