import DrawnSchema.Graph.Change

namespace DrawnSchema

/-- Edits of a graph. Ids that are not given are generated. -/
inductive Edit where
  | addModel (name id : Option String)
  | addEnum (name : Option String) (values : Option (List String)) (id : Option String)
  | rename (id name : String)
  | delete (id : String)
  | addField (model : String) (field : Entries)
  | updateField (model field : String) (changes : Entries)
  | removeField (model field : String)
  | setValues (id : String) (values : List String)
  | addRelation (source target : Value) (type : Option Value) (id : Option String)
      (attributes : Entries)
  | removeRelation (id : String)
  | setType (id type : String)
  | synthesize

inductive Answer where
  | done
  | model (m : Model)
  | enum (e : Enumeration)
  | field (f : Field)
  | relation (e : RelationEdge)
deriving DecidableEq, Repr

/-- What an accepted edit answers, and what became of implied fields. -/
structure Edited where
  answer : Answer := .done
  outcomes : List Outcome := []
deriving DecidableEq, Repr

def hexNumeral (n : Nat) : String :=
  let ds := Nat.toDigits 16 n
  String.ofList (List.replicate (12 - ds.length) '0' ++ ds)

def numberedId (label : String) (n : Nat) : String := label ++ "-" ++ hexNumeral n

/-- A graph under edit, with a supply of ids and the count of those handed out. -/
structure Session where
  graph : Graph := {}
  supply : String → Nat → String := numberedId
  issued : Nat := 0

namespace Session

def givesId : Option String → Bool
  | some id => id ≠ ""
  | none => false

def nextId (s : Session) (label : String) : String := s.supply label (s.issued + 1)

/-- A given id that is not empty, or the next one of the supply. -/
def idFor (s : Session) (label : String) (id : Option String) : String :=
  if givesId id then id.getD "" else s.nextId label

def taking (s : Session) (count : Nat) : Session := { s with issued := s.issued + count }

def changing (s : Session) (f : Graph → Graph) : Session := { s with graph := f s.graph }

@[simp] theorem taking_graph (s : Session) (count : Nat) : (s.taking count).graph = s.graph := rfl

@[simp] theorem changing_graph (s : Session) (f : Graph → Graph) :
    (s.changing f).graph = f s.graph := rfl

end Session

/-- An edit on its way. What it has changed up to a refusal stays changed. -/
abbrev Editing := EStateM EditError Session

namespace Editing

variable {α : Type}

/-- The answer of a check or a question to the graph as it is now. -/
def ask (f : Graph → Except EditError α) : Editing α := do
  match f (← get).graph with
  | .ok a => return a
  | .error e => throw e

def change (f : Graph → Graph) : Editing Unit := modify (·.changing f)

def nextId (label : String) : Editing String :=
  modifyGet fun s => (s.nextId label, s.taking 1)

def idFor (label : String) (id : Option String) : Editing String :=
  modifyGet fun s => (s.idFor label id, if Session.givesId id then s else s.taking 1)

@[simp] theorem run_ask (f : Graph → Except EditError α) (s : Session) :
    (ask f).run s = match f s.graph with
      | .ok a => .ok a s
      | .error e => .error e s := by
  simp only [ask, EStateM.run_bind, EStateM.run_get]
  cases f s.graph <;> rfl

@[simp] theorem run_change (f : Graph → Graph) (s : Session) :
    (change f).run s = .ok () (s.changing f) := rfl

@[simp] theorem run_nextId (label : String) (s : Session) :
    (nextId label).run s = .ok (s.nextId label) (s.taking 1) := rfl

@[simp] theorem run_idFor (label : String) (id : Option String) (s : Session) :
    (idFor label id).run s =
      .ok (s.idFor label id) (if Session.givesId id then s else s.taking 1) := rfl

def addModel (name id : Option String) : Editing Edited := do
  ask (·.checkNewId id)
  let name ← ask (·.newName "NewModel" name)
  let newId ← idFor "model" id
  let fieldId ← nextId "field"
  let m : Model := { id := newId, name, fields := [Graph.keyField fieldId] }
  change (·.insertModel m)
  change (·.relinkEnums)
  return { answer := .model m }

def addEnum (name : Option String) (values : Option (List String)) (id : Option String) :
    Editing Edited := do
  ask (·.checkNewId id)
  let name ← ask (·.newName "NewEnum" name)
  let values := values.getD Graph.defaultValues
  ask fun _ => Graph.checkValues name values
  let newId ← idFor "enum" id
  let e : Enumeration := { id := newId, name, values }
  change (·.insertEnum e)
  change (·.relinkEnums)
  return { answer := .enum e }

def rename (id name : String) : Editing Edited := do
  let n ← ask (·.nodeOrFail id)
  ask (·.checkName name (some id))
  change (·.renameNode id name)
  change (·.mapModels (Graph.retypeFields n.name name))
  change (·.relinkEnums)
  return {}

def delete (id : String) : Editing Edited := do
  let _ ← ask (·.nodeOrFail id)
  change (·.removeNode id)
  change (·.removeRelationsOf id)
  change (·.relinkEnums)
  return {}

def addField (model : String) (data : Entries) : Editing Edited := do
  let m ← ask (·.modelOrFail model)
  let newId ← nextId "field"
  let data := data.insertNew "id" (.text newId)
  let name ← ask fun _ => Graph.nameOrFail data
  ask fun _ => Graph.checkFieldName m name
  let f ← ask (·.buildField data)
  change (·.setFields model (m.fields ++ [f]))
  change (·.relinkEnums)
  return { answer := .field f }

def updateField (model field : String) (changes : Entries) : Editing Edited := do
  ask fun _ => Graph.checkAbsent changes ["model_id", "field_id"]
  ask fun _ => Graph.checkAttributes changes
  let m ← ask (·.modelOrFail model)
  let old ← ask fun _ => Graph.fieldOrFail m field
  let data := Graph.overlay (Graph.entriesOfField old.2) changes
  ask fun _ => Graph.checkChangedName m old.2 data
  let f ← ask (·.buildField data)
  change (·.setFields model (m.fields.set old.1 f))
  change (·.relinkEnums)
  return { answer := .field f }

def removeField (model field : String) : Editing Edited := do
  let m ← ask (·.modelOrFail model)
  let old ← ask fun _ => Graph.fieldOrFail m field
  change (·.setFields model (m.fields.eraseIdx old.1))
  change (·.relinkEnums)
  return {}

def setValues (id : String) (values : List String) : Editing Edited := do
  let e ← ask (·.enumOrFail id)
  ask fun _ => Graph.checkValues e.name values
  change (·.insertNode (.enum { e with values }))
  return {}

def synthesizeEdges (edges : List RelationEdge) : Editing (List Outcome) := do
  let done ← ask fun g => (g.synthesizeEdges edges).mapError .compile
  change fun _ => done.1
  return done.2

def addRelation (source target : Value) (type : Option Value) (id : Option String)
    (attributes : Entries) : Editing Edited := do
  ask fun _ => Graph.checkAbsent attributes Graph.relationParameters
  ask (·.checkNewRelation id)
  let newId ← idFor "edge" id
  ask fun _ => Graph.checkAbsent attributes Graph.settledAttributes
  let e ← ask fun _ =>
    (RelationEdge.readEntries (Graph.edgeEntries newId source target type attributes)).orRefuse
      .relationEdge
  ask (·.checkEdge e)
  change (·.insertRelation e)
  let outcomes ← synthesizeEdges [e]
  return { answer := .relation e, outcomes }

/-- Removes a relation. The fields that were synthesized for it stay. -/
def removeRelation (id : String) : Editing Edited := do
  let e? := (← get).graph.relation? id
  change (·.popRelation id)
  match e? with
  | none => throw (.nodeNotFound id)
  | some e =>
    change (·.detach e)
    return {}

/-- Changes the type of a relation; the fields of its old type give way to those of the new. -/
def setType (id type : String) : Editing Edited := do
  let old ← ask (·.relationOrFail id)
  let e := { old with type }
  ask (·.checkEdge e)
  change (·.insertRelation e)
  change (·.dropDerived id)
  let outcomes ← synthesizeEdges [e]
  return { answer := .relation e, outcomes }

def synthesize : Editing Edited := do
  let outcomes ← synthesizeEdges (← get).graph.relations
  return { outcomes }

end Editing

def Edit.editing : Edit → Editing Edited
  | .addModel name id => Editing.addModel name id
  | .addEnum name values id => Editing.addEnum name values id
  | .rename id name => Editing.rename id name
  | .delete id => Editing.delete id
  | .addField model field => Editing.addField model field
  | .updateField model field changes => Editing.updateField model field changes
  | .removeField model field => Editing.removeField model field
  | .setValues id values => Editing.setValues id values
  | .addRelation source target type id attributes =>
    Editing.addRelation source target type id attributes
  | .removeRelation id => Editing.removeRelation id
  | .setType id type => Editing.setType id type
  | .synthesize => Editing.synthesize

namespace Session

structure Result where
  session : Session
  answer : Except EditError Answer
  outcomes : List Outcome := []

def apply (s : Session) (e : Edit) : Result :=
  match e.editing.run s with
  | .ok r t => { session := t, answer := .ok r.answer, outcomes := r.outcomes }
  | .error error t => { session := t, answer := .error error }

/-- A session after some edits, those that were refused among them. -/
def run (s : Session) (edits : List Edit) : Session :=
  edits.foldl (fun s e => (s.apply e).session) s

end Session

end DrawnSchema
