import DrawnSchema.Text.Quoted

namespace DrawnSchema

def identifierList (names : List String) : String := "[" ++ String.intercalate ", " names ++ "]"

def stringList (values : List String) : String :=
  "[" ++ String.intercalate ", " (values.map Text.quote) ++ "]"

/-- An attribute of a field or of a whole block. Without arguments it has no parentheses; an empty
list of arguments has them. -/
structure Attribute where
  name : String
  args : Option (List String) := none
  blockLevel : Bool := false
deriving DecidableEq, Repr

def Attribute.render (a : Attribute) : String :=
  let head := (if a.blockLevel then "@@" else "@") ++ a.name
  match a.args with
  | none => head
  | some args => head ++ "(" ++ String.intercalate ", " args ++ ")"

structure FieldLine where
  name : String
  type : String
  modifier : String := ""
  attributes : List Attribute := []
deriving DecidableEq, Repr

def FieldLine.render (f : FieldLine) : String :=
  String.intercalate " " ((f.name ++ " " ++ f.type ++ f.modifier) ::
    f.attributes.map Attribute.render)

inductive Block where
  | config (keyword name : String) (settings : List (String × String))
  | enum (name : String) (values : List String) (attributes : List Attribute)
  | model (name : String) (fields : List FieldLine) (attributes : List Attribute)
  | ignored (name : String)
deriving DecidableEq, Repr

def inset (line : String) : String := "  " ++ line

def blockLines (header : String) (body attributes : List String) : List String :=
  (header ++ " \x7b") :: body.map inset ++
    (if attributes.isEmpty then [] else "" :: attributes.map inset) ++ ["\x7d"]

def Block.lines : Block → List String
  | .config keyword name settings =>
    blockLines (keyword ++ " " ++ name) (settings.map fun s => s.1 ++ " = " ++ s.2) []
  | .enum name values attributes =>
    blockLines ("enum " ++ name) values (attributes.map Attribute.render)
  | .model name fields attributes =>
    blockLines ("model " ++ name) (fields.map FieldLine.render) (attributes.map Attribute.render)
  | .ignored name => ["// " ++ name ++ " model is ignored"]

def Block.render (b : Block) : String := String.intercalate "\n" b.lines

def renderBlocks (blocks : List Block) : String :=
  String.intercalate "\n\n" (blocks.map Block.render)

end DrawnSchema
