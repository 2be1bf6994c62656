import DrawnSchema.Number.Shortest
import DrawnSchema.Text.Digits
import DrawnSchema.Text.HiddenTable
import DrawnSchema.Text.Quoted
import DrawnSchema.Value

namespace DrawnSchema

def codeEscape (n : Nat) : List Char :=
  if n < 0x100 then ['\\', 'x', Text.hexDigit (n / 16), Text.hexDigit (n % 16)]
  else if n < 0x10000 then Text.unicodeEscape n
  else '\\' :: 'U' :: Text.hexQuad (n / 0x10000) ++ Text.hexQuad (n % 0x10000)

/-- A code inside a quoted text. A character that would not be seen is escaped, and so is a half. -/
def shownCode (quote : Char) (n : Nat) : List Char :=
  let c := Char.ofNat n
  if Text.isHalfCode n then codeEscape n
  else if c = quote || c = '\\' then ['\\', c]
  else if c = '\n' then ['\\', 'n']
  else if c = '\r' then ['\\', 'r']
  else if c = '\t' then ['\\', 't']
  else if Text.isHidden c then codeEscape n
  else [c]

/-- Codes in quotes: single ones, unless only double ones spare an escape. -/
def inQuotes (write : Char → Nat → List Char) (ns : List Nat) : List Char :=
  let quote := if ns.contains '\''.toNat && !ns.contains '"'.toNat then '"' else '\''
  quote :: ns.flatMap (write quote) ++ [quote]

def shownText (s : String) : String :=
  String.ofList (inQuotes shownCode (Text.codes s.toList))

/-- An octet inside a quoted text, as a character of ASCII or by its code. -/
def shownOctet (quote : Char) (n : Nat) : List Char :=
  if n < 0x80 then shownCode quote n else codeEscape n

def shownOctets (octets : List UInt8) : String :=
  String.ofList ('b' :: inQuotes shownOctet (octets.map UInt8.toNat))

def Scalar.shown : Scalar → String
  | .null => "None"
  | .bool true => "True"
  | .bool false => "False"
  | .int n => toString n
  | .float x => x.toText
  | .text s => shownText s
  | .date d => d.shown
  | .timestamp t => t.shown
  | .bytes octets => shownOctets octets

def Value.ellipsis : Value → String
  | .map _ => "\x7b...\x7d"
  | _ => "[...]"

mutual

/-- A value as it is shown within the loops of some labels. -/
def Value.shownWithin (labels : List Nat) : Value → String
  | .scalar s => s.shown
  | .list vs => "[" ++ String.intercalate ", " (shownItems labels vs) ++ "]"
  | .pair a b => "(" ++ shownWithin labels a ++ ", " ++ shownWithin labels b ++ ")"
  | .map es => "\x7b" ++ String.intercalate ", " (shownMembers labels es) ++ "\x7d"
  | .set [] => "set()"
  | .set ss => "\x7b" ++ String.intercalate ", " (ss.map Scalar.shown) ++ "\x7d"
  | .loop label body =>
    if labels.contains label then body.ellipsis else shownWithin (label :: labels) body

def Value.shownItems (labels : List Nat) : List Value → List String
  | [] => []
  | v :: vs => shownWithin labels v :: shownItems labels vs

def Value.shownMember (labels : List Nat) : Scalar × Value → String
  | (k, v) => k.shown ++ ": " ++ shownWithin labels v

def Value.shownMembers (labels : List Nat) : List (Scalar × Value) → List String
  | [] => []
  | e :: es => shownMember labels e :: shownMembers labels es

end

def Value.shown (v : Value) : String := v.shownWithin []

def Scalar.isWritable : Scalar → Bool
  | .int n => !Text.isOverlong n
  | _ => true

mutual

def Value.isWritable : Value → Bool
  | .scalar s => s.isWritable
  | .list vs => itemsWritable vs
  | .pair a b => a.isWritable && b.isWritable
  | .map es => membersWritable es
  | .set ss => ss.all Scalar.isWritable
  | .loop _ body => body.isWritable

def Value.itemsWritable : List Value → Bool
  | [] => true
  | v :: vs => v.isWritable && itemsWritable vs

def Value.membersWritable : List (Scalar × Value) → Bool
  | [] => true
  | (k, v) :: es => k.isWritable && v.isWritable && membersWritable es

end

/-- The text of a value in a message. A text stands for itself and a time is written plainly. -/
def Value.inMessage (v : Value) : String :=
  match v with
  | .text s => s
  | .scalar (.date d) => d.text
  | .scalar (.timestamp t) => t.text
  | v => if v.isWritable then v.shown else s!"<unprintable {v.typeName} object>"

end DrawnSchema
