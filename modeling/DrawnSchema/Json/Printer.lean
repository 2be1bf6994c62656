import DrawnSchema.Number.Shortest
import DrawnSchema.Text.Quoted
import DrawnSchema.Value

namespace DrawnSchema.Json

def floatText (x : Binary64) : String :=
  if x.isNaN then "NaN"
  else if x.isInfinite then if x.isNegative then "-Infinity" else "Infinity"
  else x.toText

def hexText (octets : List UInt8) : String :=
  String.ofList (octets.flatMap fun b =>
    [Text.hexDigit (b.toNat / 16), Text.hexDigit (b.toNat % 16)])

/-- The text of a scalar. Dates and octets, which the format lacks, are written as strings. -/
def scalarText : Scalar → String
  | .null => "null"
  | .bool true => "true"
  | .bool false => "false"
  | .int n => toString n
  | .float x => floatText x
  | .text s => Text.quoteAscii s
  | .date d => Text.quoteAscii d.text
  | .timestamp t => Text.quoteAscii t.iso
  | .bytes octets => Text.quoteAscii (hexText octets)

def keyText : Scalar → String
  | .text s => Text.quoteAscii s
  | s => Text.quoteAscii (scalarText s)

def margin (depth : Nat) : String := String.ofList ('\n' :: List.replicate (2 * depth) ' ')

mutual

/-- The text of a value, each item and member on a line of its own, two blanks a level. -/
def indented (depth : Nat) : Value → String
  | .scalar s => scalarText s
  | .list [] => "[]"
  | .list (v :: vs) =>
    "[" ++ margin (depth + 1) ++ indented (depth + 1) v ++ indentedItems (depth + 1) vs ++
      margin depth ++ "]"
  | .pair a b =>
    "[" ++ margin (depth + 1) ++ indented (depth + 1) a ++ "," ++ margin (depth + 1) ++
      indented (depth + 1) b ++ margin depth ++ "]"
  | .map [] => "\x7b\x7d"
  | .map (e :: es) =>
    "\x7b" ++ margin (depth + 1) ++ indentedMember (depth + 1) e ++
      indentedMembers (depth + 1) es ++ margin depth ++ "\x7d"
  | .set [] => "[]"
  | .set (s :: ss) =>
    "[" ++ margin (depth + 1) ++
      String.intercalate ("," ++ margin (depth + 1)) ((s :: ss).map scalarText) ++
      margin depth ++ "]"
  | .loop _ body => indented depth body

def indentedItems (depth : Nat) : List Value → String
  | [] => ""
  | v :: vs => "," ++ margin depth ++ indented depth v ++ indentedItems depth vs

def indentedMember (depth : Nat) : Scalar × Value → String
  | (k, v) => keyText k ++ ": " ++ indented depth v

def indentedMembers (depth : Nat) : List (Scalar × Value) → String
  | [] => ""
  | e :: es => "," ++ margin depth ++ indentedMember depth e ++ indentedMembers depth es

end

def pretty (v : Value) : String := indented 0 v

mutual

def compact : Value → String
  | .scalar s => scalarText s
  | .list vs => "[" ++ String.intercalate "," (compactItems vs) ++ "]"
  | .pair a b => "[" ++ compact a ++ "," ++ compact b ++ "]"
  | .map es => "\x7b" ++ String.intercalate "," (compactMembers es) ++ "\x7d"
  | .set ss => "[" ++ String.intercalate "," (ss.map scalarText) ++ "]"
  | .loop _ body => compact body

def compactItems : List Value → List String
  | [] => []
  | v :: vs => compact v :: compactItems vs

def compactMember : Scalar × Value → String
  | (k, v) => keyText k ++ ":" ++ compact v

def compactMembers : List (Scalar × Value) → List String
  | [] => []
  | e :: es => compactMember e :: compactMembers es

end

end DrawnSchema.Json
