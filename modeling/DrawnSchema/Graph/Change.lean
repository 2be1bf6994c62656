import DrawnSchema.Document.Dump
import DrawnSchema.Graph.Basic

namespace DrawnSchema

inductive EditError where
  | compile (e : CompileError)
  | nodeNotFound (id : String)
  | nodeExists (id : String)
  | fieldConflict (model field : String)
  | duplicateValue (enum value : String)
  | unknownAttributes (names : List String)
  | invalid (type : RecordType) (faults : List Fault)
  | shape (e : ShapeError)
deriving DecidableEq, Repr

def EditError.message? : EditError → Option String
  | .compile e => some e.message
  | .nodeNotFound id => some s!"No node or edge with id '{id}'"
  | .nodeExists id => some s!"A node with id '{id}' already exists"
  | .fieldConflict model field => some s!"Model '{model}' already has a field named '{field}'"
  | .duplicateValue enum value => some s!"Enum '{enum}' already has value '{value}'"
  | .unknownAttributes names =>
    some ("Unknown field attribute(s): " ++ String.intercalate ", " names)
  | .invalid _ _ => none
  | .shape e => e.message?

def Reading.orRefuse {α : Type} (type : RecordType) : Reading α → Except EditError α
  | .value a => .ok a
  | .faulty faults => .error (.invalid type faults)
  | .broken e => .error (.shape e)

namespace EditError

variable {α : Type}

def orNotFound (id : String) : Option α → Except EditError α
  | some a => .ok a
  | none => .error (.nodeNotFound id)

def refuseUnless (accepted : Bool) (e : EditError) : Except EditError Unit :=
  if accepted then .ok () else .error e

def refuseFor : Option EditError → Except EditError Unit
  | some e => .error e
  | none => .ok ()

@[simp] theorem orNotFound_eq_ok_iff {id : String} {found : Option α} {a : α} :
    orNotFound id found = .ok a ↔ found = some a := by
  cases found <;> simp [orNotFound]

@[simp] theorem refuseUnless_eq_ok_iff {accepted : Bool} {e : EditError} :
    refuseUnless accepted e = .ok () ↔ accepted = true := by
  cases accepted <;> simp [refuseUnless]

@[simp] theorem refuseFor_eq_ok_iff {reason : Option EditError} :
    refuseFor reason = .ok () ↔ reason = none := by
  cases reason <;> simp [refuseFor]

end EditError

namespace Graph

open EditError

/-! Checks and questions, each with the refusal it may end in -/

def knownNames (g : Graph) : KnownNames :=
  { models := g.models.map fun m => .text m.name, enums := g.enums.map fun e => .text e.name }

def checkNewId (g : Graph) : Option String → Except EditError Unit
  | some id => refuseUnless (!g.hasNode id) (.nodeExists id)
  | none => .ok ()

/-- A name must be free for a node, itself left out of account. -/
def checkName (g : Graph) (name : String) (exclude : Option String) : Except EditError Unit :=
  refuseUnless (g.namesDocument.nameFree name exclude) (.compile (.nameConflict [name]))

/-- The name for a new node: a given one if it is free, or the first free one from a base. -/
def newName (g : Graph) (base : String) : Option String → Except EditError String
  | some name => do
    g.checkName name none
    .ok name
  | none => .ok (g.namesDocument.uniqueName base)

def nodeOrFail (g : Graph) (id : String) : Except EditError Node := orNotFound id (g.node? id)

def modelOrFail (g : Graph) (id : String) : Except EditError Model := orNotFound id (g.model? id)

def enumOrFail (g : Graph) (id : String) : Except EditError Enumeration :=
  orNotFound id (g.enum? id)

def relationOrFail (g : Graph) (id : String) : Except EditError RelationEdge :=
  orNotFound id (g.relation? id)

def checkNewRelation (g : Graph) : Option String → Except EditError Unit
  | some id => refuseUnless (g.relation? id).isNone (.nodeExists id)
  | none => .ok ()

def checkEdge (g : Graph) (e : RelationEdge) : Except EditError Unit :=
  refuseFor ((e.fault? g.modelIds).map .compile)

def checkValues (enum : String) (values : List String) : Except EditError Unit :=
  refuseFor ((firstRepeated [] values).map (.duplicateValue enum))

def buildField (g : Graph) (data : Entries) : Except EditError Field :=
  match Field.build data g.knownNames with
  | .error e => .error (.shape e)
  | .ok (kind, reading) => reading.orRefuse kind.recordType

def checkFieldName (m : Model) (name : Value) : Except EditError Unit :=
  match name with
  | .text s => refuseUnless (!m.hasField s) (.fieldConflict m.name s)
  | _ => .ok ()

def nameOrFail (data : Entries) : Except EditError Value :=
  match data.get? "name" with
  | some name => .ok name
  | none => .error (.shape (.missingKey "name"))

def fieldAttributes : List String :=
  ["id", "name", "type", "is_optional", "is_array", "is_id", "is_unique", "is_updated_at",
    "default_value", "native_type", "relation", "map_name", "ignore", "origin"]

def textKeys (m : Entries) : List String :=
  m.filterMap fun e => match e.1 with
    | .text s => some s
    | _ => none

def unknownAttributes (changes : Entries) : List String :=
  ((textKeys changes).filter fun k => !fieldAttributes.contains k).mergeSort Text.notAfter

def checkAttributes (changes : Entries) : Except EditError Unit :=
  match unknownAttributes changes with
  | [] => .ok ()
  | names => .error (.unknownAttributes names)

def checkAbsent (m : Entries) (keys : List String) : Except EditError Unit :=
  refuseFor ((keys.find? m.has).map fun key => .shape (.repeatedKey key))

def fieldIndex? (m : Model) (key : String) : Option Nat := m.fields.findIdx? (·.key = key)

def place? (m : Model) (key : String) : Option (Nat × Field) := do
  let n ← fieldIndex? m key
  let f ← m.fields[n]?
  return (n, f)

def fieldOrFail (m : Model) (key : String) : Except EditError (Nat × Field) :=
  orNotFound key (place? m key)

def entriesOfField (f : Field) : Entries :=
  (f.attributes .snake).map fun a => (.text a.1, a.2)

def overlay (data changes : Entries) : Entries :=
  changes.foldl (fun m e => m.insertScalar e.1 e.2) data

/-- The name in the changed attributes of a field must be its own or free in its model. -/
def checkChangedName (m : Model) (old : Field) (data : Entries) : Except EditError Unit :=
  match data.get? "name" with
  | some (.text name) => if name = old.name then .ok () else checkFieldName m (.text name)
  | _ => .ok ()

def edgeEntries (id : String) (source target : Value) (type : Option Value)
    (attributes : Entries) : Entries :=
  [(.text "id", .text id), (.text "type", type.getD (.text RelationType.oneToMany.name)),
    (.text "source_model_id", source), (.text "target_model_id", target)] ++ attributes

def relationParameters : List String :=
  ["source_model_id", "target_model_id", "relation_type", "edge_id"]

/-- What else is settled before the attributes of a new relation. -/
def settledAttributes : List String := ["id", "type"]

/-! Changes -/

def mapModels (g : Graph) (f : Model → Model) : Graph :=
  { g with nodes := g.nodes.map (Node.mapModel f) }

def setFields (g : Graph) (id : String) (fields : List Field) : Graph :=
  g.mapModels fun m => if m.id = id then { m with fields } else m

def setAllFields (g : Graph) (models : List Model) : Graph :=
  models.foldl (fun g m => g.setFields m.id m.fields) g

def synthesizeEdges (g : Graph) (edges : List RelationEdge) :
    Except CompileError (Graph × List Outcome) :=
  match synthesizeFields edges g.models with
  | .error e => .error e
  | .ok s => .ok ((g.setAllFields s.models).relinkEnums, s.outcomes)

def keyField (id : String) : Field :=
  { id := some id, name := "id", type := "Int"
    content := .scalar { isId := true, defaultValue := some "autoincrement()" } }

def defaultValues : List String := ["VALUE1", "VALUE2"]

def renameNode (g : Graph) (id name : String) : Graph :=
  { g with nodes := g.nodes.map fun n => if n.id = id then n.rename name else n }

def retypeFields (old new : String) (m : Model) : Model :=
  { m with fields := m.fields.map fun f => if f.type = old then { f with type := new } else f }

def removeNode (g : Graph) (id : String) : Graph :=
  { g with
    nodes := g.nodes.filter fun n => n.id ≠ id
    arcs := g.arcs.filter fun a => a.source ≠ id && a.target ≠ id }

def removeRelationsOf (g : Graph) (id : String) : Graph :=
  { g with relations := g.relations.filter fun e => e.source ≠ id && e.target ≠ id }

/-- Takes a relation from the list. Its arc stays. -/
def popRelation (g : Graph) (id : String) : Graph :=
  { g with relations := g.relations.filter fun r => r.id ≠ id }

def detach (g : Graph) (e : RelationEdge) : Graph :=
  { g with arcs := g.arcs.filter fun a =>
      !(a.source = e.source && a.target = e.target && a.key = e.id) }

def dropDerived (g : Graph) (edge : String) : Graph :=
  g.mapModels fun m =>
    { m with fields := m.fields.filter fun f =>
        !(f.origin = .derived && f.id.any (RelationEdge.derivedIds edge).contains) }

end Graph

end DrawnSchema
