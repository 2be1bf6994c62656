import DrawnSchema.Text.Surrogate
import DrawnSchema.Value

namespace DrawnSchema

/-- Raw data of a shape that no reading can go on from. -/
inductive ShapeError where
  | notIterable
  | notHashable
  | notAMap
  | missingKey (key : String)
  | repeatedKey (key : String)
  | notAPair (index length : Nat)
deriving DecidableEq, Repr

def ShapeError.message? : ShapeError → Option String
  | .notAPair index length =>
    some s!"dictionary update sequence element #{index} has length {length}; 2 is required"
  | _ => none

inductive RecordType where
  | document
  | model
  | enumeration
  | relationEdge
  | enumEdge
  | generator
  | datasource
  | nativeType
  | relationInfo
  | scalarField
  | enumField
  | relationField
deriving DecidableEq, Repr

def RecordType.title : RecordType → String
  | .document => "SchemaDocument"
  | .model => "ModelDef"
  | .enumeration => "EnumDef"
  | .relationEdge => "RelationEdge"
  | .enumEdge => "EnumEdge"
  | .generator => "GeneratorConfig"
  | .datasource => "DatasourceConfig"
  | .nativeType => "NativeType"
  | .relationInfo => "RelationInfo"
  | .scalarField => "ScalarField"
  | .enumField => "EnumRefField"
  | .relationField => "RelationField"

inductive Step where
  | key (name : String)
  | index (n : Nat)
deriving DecidableEq, Repr

def Step.text : Step → String
  | .key name => name
  | .index n => toString n

inductive Complaint where
  | notText
  | notUnicode
  | notTruth
  | unclearTruth
  | notList
  | notRecord (type : RecordType)
  | notField
  | unknownKind (tag : String)
  | missing
  | notLiteral (choices : List String)
  | notChoice (choices : List String)
  | notWhole
  | unclearWhole
  | notNumber
  | unclearNumber
  | rejected (reason : String)
deriving DecidableEq, Repr

def Complaint.code : Complaint → String
  | .notText => "string_type"
  | .notUnicode => "string_unicode"
  | .notTruth => "bool_type"
  | .unclearTruth => "bool_parsing"
  | .notList => "list_type"
  | .notRecord _ => "model_type"
  | .notField => "model_attributes_type"
  | .unknownKind _ => "union_tag_invalid"
  | .missing => "missing"
  | .notLiteral _ => "literal_error"
  | .notChoice _ => "enum"
  | .notWhole => "int_type"
  | .unclearWhole => "int_parsing"
  | .notNumber => "float_type"
  | .unclearNumber => "float_parsing"
  | .rejected _ => "value_error"

def alternatives (choices : List String) : String :=
  let quoted := choices.map fun c => "'" ++ c ++ "'"
  match quoted.reverse with
  | last :: before@(_ :: _) => String.intercalate ", " before.reverse ++ " or " ++ last
  | _ => String.join quoted

def Complaint.message : Complaint → String
  | .notText => "Input should be a valid string"
  | .notUnicode => "Input should be a valid string, unable to parse raw data as a unicode string"
  | .notTruth => "Input should be a valid boolean"
  | .unclearTruth => "Input should be a valid boolean, unable to interpret input"
  | .notList => "Input should be a valid list"
  | .notRecord type => s!"Input should be a valid dictionary or instance of {type.title}"
  | .notField => "Input should be a valid dictionary or object to extract fields from"
  | .unknownKind tag =>
    s!"Input tag '{Text.withoutHalves tag}' found using 'kind' does not match any of the " ++
      "expected tags: 'scalar', 'enum', 'relation'"
  | .missing => "Field required"
  | .notLiteral choices => "Input should be " ++ alternatives choices
  | .notChoice choices => "Input should be " ++ alternatives choices
  | .notWhole => "Input should be a valid integer"
  | .unclearWhole => "Input should be a valid integer, unable to parse string as an integer"
  | .notNumber => "Input should be a valid number"
  | .unclearNumber => "Input should be a valid number, unable to parse string as a number"
  | .rejected reason => "Value error, " ++ Text.withoutHalves reason

structure Fault where
  path : List Step
  complaint : Complaint
deriving DecidableEq, Repr

def Fault.location (f : Fault) : String := String.intercalate "." (f.path.map Step.text)

/-- What comes of reading raw data: a value, or every fault in the order of the attributes, or a
shape that ends the reading at once. -/
inductive Reading (α : Type) where
  | value (a : α)
  | faulty (faults : List Fault)
  | broken (error : ShapeError)
deriving Repr

namespace Reading

variable {α β : Type}

def map (f : α → β) : Reading α → Reading β
  | .value a => .value (f a)
  | .faulty faults => .faulty faults
  | .broken e => .broken e

/-- Both readings are made; faults add up. -/
def seq (f : Reading (α → β)) (x : Unit → Reading α) : Reading β :=
  match f with
  | .broken e => .broken e
  | .value f => (x ()).map f
  | .faulty faults =>
    match x () with
    | .broken e => .broken e
    | .value _ => .faulty faults
    | .faulty more => .faulty (faults ++ more)

instance : Applicative Reading where
  pure := .value
  map := map
  seq := seq

def check (complaint : α → Option Complaint) : Reading α → Reading α
  | .value a =>
    match complaint a with
    | none => .value a
    | some c => .faulty [⟨[], c⟩]
  | r => r

def under (step : Step) : Reading α → Reading α
  | .faulty faults => .faulty (faults.map fun f => { f with path := step :: f.path })
  | r => r

def fault (c : Complaint) : Reading α := .faulty [⟨[], c⟩]

def faultAt (step : Step) (c : Complaint) : Reading α := .faulty [⟨[step], c⟩]

@[simp] theorem map_value (f : α → β) (a : α) : f <$> Reading.value a = .value (f a) := rfl

@[simp] theorem seq_value (f : α → β) (r : Reading α) : Reading.value f <*> r = f <$> r := rfl

@[simp] theorem under_value (step : Step) (a : α) : (Reading.value a).under step = .value a := rfl

end Reading

variable {α : Type}

def Value.items? (v : Value) : Option (List Value) :=
  match v.exposed with
  | .list items => some items
  | .pair a b => some [a, b]
  | .set members => some (members.map .scalar)
  | _ => none

def readItems (read : Value → Reading α) (start : Nat) : List Value → Reading (List α)
  | [] => .value []
  | v :: vs => List.cons <$> (read v).under (.index start) <*> readItems read (start + 1) vs

def readList (read : Value → Reading α) (v : Value) : Reading (List α) :=
  match v.items? with
  | some items => readItems read 0 items
  | none => .fault .notList

/-- The text of a value: octets count when they are valid UTF-8. -/
def readText : Value → Reading String
  | .text s => .value s
  | .scalar (.bytes octets) =>
    match Text.ofOctets? octets with
    | some s => .value s
    | none => .fault .notUnicode
  | _ => .fault .notText

def readTexts (v : Value) : Reading (List String) := readList readText v

def readOptional (read : Value → Reading α) : Value → Reading (Option α)
  | .null => .value none
  | v => some <$> read v

def trueWords : List String := ["1", "on", "t", "true", "y", "yes"]

def falseWords : List String := ["0", "off", "f", "false", "n", "no"]

def truthOfWord (s : String) : Reading Bool :=
  let word := s.toLower
  if !Text.isWhole s then .fault .notUnicode
  else if trueWords.contains word then .value true
  else if falseWords.contains word then .value false
  else .fault .unclearTruth

/-- One and zero stand for the truth values. Other whole numbers are unclear within the range of
machine words and wrong outside it. -/
def truthOfInt (n : Int) : Reading Bool :=
  if n = 1 then .value true
  else if n = 0 then .value false
  else if -0x8000000000000000 ≤ n && n < 0x8000000000000000 then .fault .unclearTruth
  else .fault .notTruth

def readTruth : Value → Reading Bool
  | .bool b => .value b
  | .int n => truthOfInt n
  | .float x =>
    match x.toInt? with
    | some n => if n = -0x8000000000000000 then .fault .notTruth else truthOfInt n
    | none => .fault .notTruth
  | .text s => truthOfWord s
  | .scalar (.bytes octets) =>
    match Text.ofOctets? octets with
    | some s => truthOfWord s
    | none => .fault .unclearTruth
  | _ => .fault .notTruth

def ofName (complaint : List String → Complaint) (table : List (String × α)) (s : String) :
    Reading α :=
  match table.lookup s with
  | some a => .value a
  | none => .fault (if Text.isWhole s then complaint (table.map (·.1)) else .notUnicode)

def readLiteral (table : List (String × α)) : Value → Reading α
  | .text s => ofName .notLiteral table s
  | _ => .fault (.notLiteral (table.map (·.1)))

def readChoice (table : List (String × α)) (v : Value) : Reading α :=
  match readText v with
  | .value s => ofName .notChoice table s
  | _ => .fault (.notChoice (table.map (·.1)))

/-- The spellings of an attribute: the one it is written with, the one with underscores, and all
that are accepted, the preferred ones first. -/
structure Key where
  camel : String
  snake : String
  accepted : List String := [camel, snake]

def Key.plain (name : String) : Key := { camel := name, snake := name, accepted := [name] }

inductive Spelling where
  | camel
  | snake
deriving DecidableEq, Repr

def Key.spelled (k : Key) : Spelling → String
  | .camel => k.camel
  | .snake => k.snake

def Entries.pick (m : Entries) (k : Key) : Option (String × Value) :=
  k.accepted.findSome? fun name => (m.get? name).map fun v => (name, v)

def Entries.required (m : Entries) (k : Key) (read : Value → Reading α) : Reading α :=
  match m.pick k with
  | some (name, v) => (read v).under (.key name)
  | none => .faultAt (.key (k.accepted.headD k.camel)) .missing

def Entries.withDefault (m : Entries) (k : Key) (default : α) (read : Value → Reading α) :
    Reading α :=
  match m.pick k with
  | some (name, v) => (read v).under (.key name)
  | none => .value default

def Entries.optional (m : Entries) (k : Key) (read : Value → Reading α) : Reading (Option α) :=
  m.withDefault k none (readOptional read)

def readRecord (type : RecordType) (read : Entries → Reading α) (v : Value) : Reading α :=
  match v.exposed with
  | .map m => read m
  | _ => .fault (.notRecord type)

end DrawnSchema
