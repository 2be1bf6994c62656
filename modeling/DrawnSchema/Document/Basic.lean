import DrawnSchema.Document.Field

namespace DrawnSchema

structure Model where
  id : String
  name : String
  fields : List Field := []
  mapName : Option String := none
  ignore : Bool := false
  compositeId : Option (List String) := none
  compositeUnique : List (List String) := []
  compositeIndex : List (List String) := []
  fulltextIndex : List (List String) := []
  schema : Option String := none
deriving DecidableEq, Repr

namespace Model

def field? (m : Model) (name : String) : Option Field := m.fields.find? (·.name = name)

def hasField (m : Model) (name : String) : Bool := (m.field? name).isSome

end Model

structure Enumeration where
  id : String
  name : String
  values : List String := []
  mapName : Option String := none
deriving DecidableEq, Repr

inductive RelationType where
  | oneToOne
  | oneToMany
  | manyToMany
deriving DecidableEq, Repr

def RelationType.name : RelationType → String
  | .oneToOne => "ONE_TO_ONE"
  | .oneToMany => "ONE_TO_MANY"
  | .manyToMany => "MANY_TO_MANY"

def RelationType.all : List RelationType := [.oneToOne, .oneToMany, .manyToMany]

def RelationType.ofName? (name : String) : Option RelationType :=
  all.find? fun t => t.name = name

/-- A relation drawn between two models. Its type is kept as it was given. -/
structure RelationEdge where
  id : String
  type : String := RelationType.oneToMany.name
  source : String
  target : String
  name : Option String := none
  onDelete : Option ReferentialAction := none
  onUpdate : Option ReferentialAction := none
  isOptional : Bool := true
  origin : Origin := .user
deriving DecidableEq, Repr

def RelationEdge.relationType? (e : RelationEdge) : Option RelationType :=
  RelationType.ofName? e.type

structure EnumEdge where
  id : String
  enumId : String
  modelId : String
  fieldId : String
  fieldName : String
  origin : Origin := .derived
deriving DecidableEq, Repr

structure Generator where
  provider : String := "prisma-client"
  previewFeatures : List String := []
  output : Option String := none
  engineType : Option String := none
deriving DecidableEq, Repr

inductive Provider where
  | postgresql
  | mysql
  | sqlite
  | sqlserver
  | mongodb
  | cockroachdb
deriving DecidableEq, Repr

def Provider.name : Provider → String
  | .postgresql => "POSTGRESQL"
  | .mysql => "MYSQL"
  | .sqlite => "SQLITE"
  | .sqlserver => "SQLSERVER"
  | .mongodb => "MONGODB"
  | .cockroachdb => "COCKROACHDB"

def Provider.all : List Provider :=
  [.postgresql, .mysql, .sqlite, .sqlserver, .mongodb, .cockroachdb]

def Provider.table : List (String × Provider) := all.map fun p => (p.name, p)

structure Datasource where
  provider : Provider := .postgresql
deriving DecidableEq, Repr

structure Document where
  models : List Model := []
  enums : List Enumeration := []
  relationEdges : List RelationEdge := []
  enumEdges : List EnumEdge := []
  generator : Generator := {}
  datasource : Datasource := {}
deriving DecidableEq, Repr

namespace Document

def model? (d : Document) (id : String) : Option Model := d.models.find? (·.id = id)

def enum? (d : Document) (id : String) : Option Enumeration := d.enums.find? (·.id = id)

def names (d : Document) : List String := d.models.map (·.name) ++ d.enums.map (·.name)

end Document

end DrawnSchema
