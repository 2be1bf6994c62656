import DrawnSchema.Number.Binary64

namespace DrawnSchema

/-- Who made a field or an edge: the user, or a derivation from drawn edges. -/
inductive Origin where
  | user
  | derived
deriving DecidableEq, Repr

def Origin.table : List (String × Origin) := [("user", .user), ("derived", .derived)]

def Origin.name : Origin → String
  | .user => "user"
  | .derived => "derived"

inductive ReferentialAction where
  | cascade
  | setNull
  | restrict
  | noAction
  | setDefault
deriving DecidableEq, Repr

def ReferentialAction.name : ReferentialAction → String
  | .cascade => "CASCADE"
  | .setNull => "SET_NULL"
  | .restrict => "RESTRICT"
  | .noAction => "NO_ACTION"
  | .setDefault => "SET_DEFAULT"

def ReferentialAction.all : List ReferentialAction :=
  [.cascade, .setNull, .restrict, .noAction, .setDefault]

def ReferentialAction.table : List (String × ReferentialAction) := all.map fun a => (a.name, a)

inductive NativeArg where
  | text (s : String)
  | int (n : Int)
  | float (x : Binary64)
deriving DecidableEq, Repr

structure NativeType where
  type : String
  args : List NativeArg
deriving DecidableEq, Repr

structure RelationInfo where
  name : Option String
  fields : List String
  references : List String
  onDelete : Option ReferentialAction
  onUpdate : Option ReferentialAction
deriving DecidableEq, Repr

inductive FieldKind where
  | scalar
  | enum
  | relation
deriving DecidableEq, Repr

def FieldKind.name : FieldKind → String
  | .scalar => "scalar"
  | .enum => "enum"
  | .relation => "relation"

def FieldKind.table : List (String × FieldKind) :=
  [("scalar", .scalar), ("enum", .enum), ("relation", .relation)]

structure ScalarContent where
  isId : Bool := false
  isUnique : Bool := false
  isUpdatedAt : Bool := false
  defaultValue : Option String := none
  nativeType : Option NativeType := none
deriving DecidableEq, Repr

structure EnumContent where
  isId : Bool := false
  isUnique : Bool := false
  defaultValue : Option String := none
deriving DecidableEq, Repr

inductive FieldContent where
  | scalar (c : ScalarContent)
  | enum (c : EnumContent)
  | relation (info : Option RelationInfo)
deriving DecidableEq, Repr

def FieldContent.kind : FieldContent → FieldKind
  | .scalar _ => .scalar
  | .enum _ => .enum
  | .relation _ => .relation

structure Field where
  id : Option String := none
  name : String
  type : String
  isOptional : Bool := false
  isArray : Bool := false
  mapName : Option String := none
  ignore : Bool := false
  origin : Origin := .user
  content : FieldContent := .scalar {}
deriving DecidableEq, Repr

def Field.kind (f : Field) : FieldKind := f.content.kind

/-- What a field goes by in edge ids and edits: its id, or its name when the id is empty. -/
def Field.key (f : Field) : String :=
  match f.id with
  | some id => if id = "" then f.name else id
  | none => f.name

end DrawnSchema
