import DrawnSchema.Text.Digits

namespace DrawnSchema.Yaml

inductive Tag where
  | null
  | bool
  | int
  | float
  | timestamp
  | binary
  | text
  | sequence
  | mapping
  | set
  | pairs
  | merge
  | value
  | other (uri : String)
deriving DecidableEq, Repr

def tagLead : String := "tag:yaml.org,2002:"

def Tag.table : List (String × Tag) := [
  ("null", .null), ("bool", .bool), ("int", .int), ("float", .float), ("timestamp", .timestamp),
  ("binary", .binary), ("str", .text), ("seq", .sequence), ("map", .mapping), ("set", .set),
  ("omap", .pairs), ("pairs", .pairs), ("merge", .merge), ("value", .value)]

def Tag.ofUri (uri : String) : Tag :=
  ((table.map fun t => (tagLead ++ t.1, t.2)).lookup uri).getD (.other uri)

/-! Plain texts that stand for something other than a text. -/

/-- A text without the line break at its end, unless it is nothing else. -/
def dropFinalBreak (cs : List Char) : List Char :=
  if cs.length > 1 && cs.getLast? == some '\n' then cs.dropLast else cs

def truthWords : List String := [
  "yes", "Yes", "YES", "no", "No", "NO", "true", "True", "TRUE", "false", "False", "FALSE",
  "on", "On", "ON", "off", "Off", "OFF"]

def nullWords : List String := ["", "~", "null", "Null", "NULL"]

def dropSign : List Char → List Char
  | '-' :: cs => cs
  | '+' :: cs => cs
  | cs => cs

def isDigitOrBar (c : Char) : Bool := Text.isDecimal c || c == '_'

def afterNumber? : List Char → Option (List Char)
  | c :: cs => if Text.isDecimal c then some (cs.dropWhile isDigitOrBar) else none
  | [] => none

def isExponentOrEnd : List Char → Bool
  | [] => true
  | e :: s :: ds =>
    (e == 'e' || e == 'E') && (s == '+' || s == '-') && !ds.isEmpty && ds.all Text.isDecimal
  | _ => false

/-- What follows groups of base sixty, each after a colon; there is one at least. -/
def afterGroups? : List Char → Option (List Char)
  | ':' :: a :: b :: cs =>
    if Text.isDecimal a && a ≤ '5' && Text.isDecimal b then
      some ((afterGroups? cs).getD cs)
    else if Text.isDecimal a then some ((afterGroups? (b :: cs)).getD (b :: cs))
    else none
  | ':' :: a :: [] => if Text.isDecimal a then some [] else none
  | _ => none

def isSixties (cs : List Char) : Bool :=
  match (afterNumber? cs).bind afterGroups? with
  | some ('.' :: places) => places.all isDigitOrBar
  | _ => false

def isPointed (cs : List Char) : Bool :=
  match afterNumber? cs with
  | some ('.' :: rest) => isExponentOrEnd (rest.dropWhile isDigitOrBar)
  | _ => false

def isFloatText (cs : List Char) : Bool :=
  let body := dropSign cs
  isPointed body || isSixties body ||
  [".inf", ".Inf", ".INF"].contains (String.ofList body) ||
  [".nan", ".NaN", ".NAN"].contains (String.ofList cs) ||
  (match cs with
    | '.' :: rest => (afterNumber? rest).any isExponentOrEnd
    | _ => false)

def isIntText (cs : List Char) : Bool :=
  let body := dropSign cs
  match body with
  | '0' :: 'b' :: ds => !ds.isEmpty && ds.all fun c => c == '0' || c == '1' || c == '_'
  | '0' :: 'x' :: ds => !ds.isEmpty && ds.all fun c => Text.isHex c || c == '_'
  | '0' :: ds => ds.all fun c => ('0' ≤ c && c ≤ '7') || c == '_'
  | _ =>
    match afterNumber? body with
    | some [] => true
    | some rest => afterGroups? rest == some []
    | none => false

end DrawnSchema.Yaml
