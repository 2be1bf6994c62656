import DrawnSchema.Calendar
import DrawnSchema.Number.Binary64

namespace DrawnSchema

/-- A datum without parts. Only these serve as keys. -/
inductive Scalar where
  | null
  | bool (b : Bool)
  | int (n : Int)
  | float (x : Binary64)
  | text (s : String)
  | date (d : Day)
  | timestamp (t : Moment)
  | bytes (octets : List UInt8)
deriving DecidableEq, Repr, Inhabited

namespace Scalar

/-- The number a scalar counts as among keys: truth values count as one and zero. -/
def asInt? : Scalar → Option Int
  | .bool b => some (if b then 1 else 0)
  | .int n => some n
  | .float x => x.toInt?
  | _ => none

/-- Equality of keys. Numbers agree by value, whatever their type, and timestamps by instant. -/
def sameKey (a b : Scalar) : Bool :=
  match a, b with
  | .float x, .float y => x.sameNumber y
  | .timestamp t, .timestamp u => t.sameInstant u
  | a, b =>
    match a.asInt?, b.asInt? with
    | some m, some n => m == n
    | _, _ => a == b

def truthy : Scalar → Bool
  | .null => false
  | .bool b => b
  | .int n => n != 0
  | .float x => !x.isZero
  | .text s => s != ""
  | .date _ => true
  | .timestamp _ => true
  | .bytes octets => octets != []

def typeName : Scalar → String
  | .null => "NoneType"
  | .bool _ => "bool"
  | .int _ => "int"
  | .float _ => "float"
  | .text _ => "str"
  | .date _ => "date"
  | .timestamp _ => "datetime"
  | .bytes _ => "bytes"

end Scalar

/-- Raw data, as a snapshot holds it. A map keeps the order in which its keys came. A loop is a
collection that is a part of itself: within it, a loop of the same label stands for the whole and
tells its form only. -/
inductive Value where
  | scalar (s : Scalar)
  | list (items : List Value)
  | pair (first second : Value)
  | map (entries : List (Scalar × Value))
  | set (members : List Scalar)
  | loop (label : Nat) (body : Value)
deriving Repr, Inhabited

abbrev Entries := List (Scalar × Value)

namespace Value

@[match_pattern] abbrev null : Value := .scalar .null
@[match_pattern] abbrev bool (b : Bool) : Value := .scalar (.bool b)
@[match_pattern] abbrev int (n : Int) : Value := .scalar (.int n)
@[match_pattern] abbrev float (x : Binary64) : Value := .scalar (.float x)
@[match_pattern] abbrev text (s : String) : Value := .scalar (.text s)

def truthy : Value → Bool
  | .scalar s => s.truthy
  | .list items => !items.isEmpty
  | .pair _ _ => true
  | .map entries => !entries.isEmpty
  | .set members => !members.isEmpty
  | .loop _ _ => true

def typeName : Value → String
  | .scalar s => s.typeName
  | .list _ => "list"
  | .pair _ _ => "tuple"
  | .map _ => "dict"
  | .set _ => "set"
  | .loop _ body => body.typeName

def isNull : Value → Bool
  | .null => true
  | _ => false

mutual

def fill (label : Nat) (whole : Value) : Value → Value
  | .scalar s => .scalar s
  | .list vs => .list (fillItems label whole vs)
  | .pair a b => .pair (fill label whole a) (fill label whole b)
  | .map es => .map (fillMembers label whole es)
  | .set ss => .set ss
  | .loop l body => if l = label then whole else .loop l (fill label whole body)

def fillItems (label : Nat) (whole : Value) : List Value → List Value
  | [] => []
  | v :: vs => fill label whole v :: fillItems label whole vs

def fillMembers (label : Nat) (whole : Value) : List (Scalar × Value) → List (Scalar × Value)
  | [] => []
  | (k, v) :: es => (k, fill label whole v) :: fillMembers label whole es

end

mutual

def meets (label : Nat) : Value → Bool
  | .scalar _ => false
  | .list vs => itemsMeet label vs
  | .pair a b => meets label a || meets label b
  | .map es => membersMeet label es
  | .set _ => false
  | .loop l body => l == label || meets label body

def itemsMeet (label : Nat) : List Value → Bool
  | [] => false
  | v :: vs => meets label v || itemsMeet label vs

def membersMeet (label : Nat) : List (Scalar × Value) → Bool
  | [] => false
  | (_, v) :: es => meets label v || membersMeet label es

end

/-- A collection within those of some labels under its own, which it needs if it is a part of
itself. It is so if it or one around it is met in it. -/
def closed (label : Nat) (within : List Nat) (v : Value) : Value :=
  if (label :: within).any (v.meets ·) then .loop label v else v

/-- A value with its parts in sight: a loop is followed once around. -/
def exposed : Value → Value
  | .loop label body => fill label (.loop label body) body
  | v => v

@[simp] theorem exposed_scalar (s : Scalar) : (Value.scalar s).exposed = .scalar s := rfl

@[simp] theorem exposed_list (vs : List Value) : (Value.list vs).exposed = .list vs := rfl

@[simp] theorem exposed_map (m : Entries) : (Value.map m).exposed = .map m := rfl

def optionText : Option String → Value
  | some s => .text s
  | none => .null

def texts (ss : List String) : Value := .list (ss.map .text)

def record (members : List (String × Value)) : Value :=
  .map (members.map fun m => (.text m.1, m.2))

end Value

namespace Entries

def get? (m : Entries) (key : String) : Option Value :=
  (m.find? fun e => e.1 == .text key).map (·.2)

def has (m : Entries) (key : String) : Bool := (m.get? key).isSome

def getD (m : Entries) (key : String) : Value := (m.get? key).getD .null

def erase (m : Entries) (key : String) : Entries := m.filter fun e => e.1 != .text key

/-- Sets a key: in place when it is there, at the end otherwise. -/
def insertScalar (m : Entries) (key : Scalar) (v : Value) : Entries :=
  match m with
  | [] => [(key, v)]
  | e :: rest => if e.1.sameKey key then (e.1, v) :: rest else e :: insertScalar rest key v

def insert (m : Entries) (key : String) (v : Value) : Entries :=
  match m with
  | [] => [(.text key, v)]
  | e :: rest => if e.1 == .text key then (e.1, v) :: rest else e :: insert rest key v

def insertNew (m : Entries) (key : String) (v : Value) : Entries :=
  if m.has key then m else m ++ [(.text key, v)]

def ofList (members : List (Scalar × Value)) : Entries :=
  members.foldl (fun m e => insertScalar m e.1 e.2) []

end Entries

end DrawnSchema
