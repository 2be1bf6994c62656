import DrawnSchema.Json.Literal
import DrawnSchema.Value

namespace DrawnSchema.Json

inductive Complaint where
  | expectingValue
  | expectingComma
  | expectingColon
  | expectingKey
  | extraData
  | unterminatedString
  | controlCharacter
  | invalidEscape
  | invalidUnicodeEscape
  | byteOrderMark
deriving DecidableEq, Repr

def Complaint.text : Complaint → String
  | .expectingValue => "Expecting value"
  | .expectingComma => "Expecting ',' delimiter"
  | .expectingColon => "Expecting ':' delimiter"
  | .expectingKey => "Expecting property name enclosed in double quotes"
  | .extraData => "Extra data"
  | .unterminatedString => "Unterminated string starting at"
  | .controlCharacter => "Invalid control character at"
  | .invalidEscape => "Invalid \\escape"
  | .invalidUnicodeEscape => "Invalid \\uXXXX escape"
  | .byteOrderMark => "Unexpected UTF-8 BOM (decode using utf-8-sig)"

inductive Fault where
  | syntaxError (complaint : Complaint) (rest : List Char)
  | tooManyDigits (count : Nat)
  | tooDeep
deriving DecidableEq

def Fault.ofLiteral (start : List Char) : LiteralFault → Fault
  | .unterminated => .syntaxError .unterminatedString start
  | .controlCharacter rest => .syntaxError .controlCharacter rest
  | .badEscape rest => .syntaxError .invalidEscape rest
  | .badUnicodeEscape rest => .syntaxError .invalidUnicodeEscape rest

def isBlank (c : Char) : Bool := c == ' ' || c == '\t' || c == '\n' || c == '\r'

def skipBlanks (cs : List Char) : List Char := cs.dropWhile isBlank

def readString (cs : List Char) : Except Fault (String × List Char) :=
  match readBody cs with
  | .ok (body, rest) => .ok (String.ofList body, rest)
  | .error e => .error (Fault.ofLiteral ('"' :: cs) e)

def spanDigits (cs : List Char) : List Char × List Char := cs.span Text.isDecimal

def readPlaces : List Char → List Char × List Char
  | '.' :: cs =>
    match spanDigits cs with
    | ([], _) => ([], '.' :: cs)
    | found => found
  | cs => ([], cs)

def readSign : List Char → Bool × List Char
  | '+' :: cs => (false, cs)
  | '-' :: cs => (true, cs)
  | cs => (false, cs)

def readExponent : List Char → Option Int × List Char
  | c :: cs =>
    if c == 'e' || c == 'E' then
      let (negative, cs') := readSign cs
      match spanDigits cs' with
      | ([], _) => (none, c :: cs)
      | (ds, rest) =>
        let n : Int := Text.digitsValue 10 ds
        (some (if negative then -n else n), rest)
    else (none, c :: cs)
  | [] => (none, [])

/-- The digits before the point: a zero by itself, or a run that starts with another digit. -/
def readWhole : List Char → Option (List Char × List Char)
  | '0' :: cs => some (['0'], cs)
  | c :: cs => if Text.isDecimal c then some (spanDigits (c :: cs)) else none
  | [] => none

def readNumber (negative : Bool) (start cs : List Char) : Except Fault (Value × List Char) :=
  match readWhole cs with
  | none => .error (.syntaxError .expectingValue start)
  | some (whole, rest) =>
    let (places, rest) := readPlaces rest
    let (exponent, rest) := readExponent rest
    if places.isEmpty && exponent.isNone then
      if whole.length > Text.digitLimit then .error (.tooManyDigits whole.length)
      else
        let n : Int := Text.digitsValue 10 whole
        .ok (.int (if negative then -n else n), rest)
    else
      let digits := Text.digitsValue 10 (whole ++ places)
      .ok (.float (Binary64.ofDecimal negative digits
        (exponent.getD 0 - (places.length : Int))), rest)

def constants : List (List Char × Value) := [
  ("null".toList, .null), ("true".toList, .bool true), ("false".toList, .bool false),
  ("NaN".toList, .float Binary64.nan), ("Infinity".toList, .float (Binary64.infinity false)),
  ("-Infinity".toList, .float (Binary64.infinity true))]

def readConstant (cs : List Char) : Option (Value × List Char) :=
  constants.findSome? fun c =>
    if c.1.isPrefixOf cs then some (c.2, cs.drop c.1.length) else none

def readAtom (cs : List Char) : Except Fault (Value × List Char) :=
  match readConstant cs with
  | some found => .ok found
  | none =>
    match cs with
    | '"' :: rest => (readString rest).map fun r => (.text r.1, r.2)
    | '-' :: rest => readNumber true cs rest
    | _ => readNumber false cs cs

def levelLimit : Nat := 985

mutual

/-- A value with no more than some levels of lists and objects. Each step takes a character or goes
one level down, which bounds the fuel. -/
def readValue (levels : Nat) : Nat → List Char → Except Fault (Value × List Char)
  | 0, cs => .error (.syntaxError .expectingValue cs)
  | fuel + 1, '[' :: cs =>
    if levels = 0 then .error .tooDeep
    else
      match skipBlanks cs with
      | ']' :: rest => .ok (.list [], rest)
      | rest => (readItems (levels - 1) fuel rest).map fun r => (.list r.1, r.2)
  | fuel + 1, '\x7b' :: cs =>
    if levels = 0 then .error .tooDeep
    else
      match skipBlanks cs with
      | '\x7d' :: rest => .ok (.map [], rest)
      | rest =>
        (readMembers (levels - 1) fuel rest).map fun r => (.map (Entries.ofList r.1), r.2)
  | _ + 1, cs => readAtom cs

def readItems (levels : Nat) : Nat → List Char → Except Fault (List Value × List Char)
  | 0, cs => .error (.syntaxError .expectingValue cs)
  | fuel + 1, cs => do
    let (v, rest) ← readValue levels fuel cs
    match skipBlanks rest with
    | ']' :: rest => .ok ([v], rest)
    | ',' :: rest =>
      let (vs, rest) ← readItems levels fuel (skipBlanks rest)
      .ok (v :: vs, rest)
    | rest => .error (.syntaxError .expectingComma rest)

def readMembers (levels : Nat) :
    Nat → List Char → Except Fault (List (Scalar × Value) × List Char)
  | 0, cs => .error (.syntaxError .expectingKey cs)
  | fuel + 1, '"' :: cs => do
    let (key, rest) ← readString cs
    match skipBlanks rest with
    | ':' :: rest =>
      let (v, rest) ← readValue levels fuel (skipBlanks rest)
      match skipBlanks rest with
      | '\x7d' :: rest => .ok ([(.text key, v)], rest)
      | ',' :: rest =>
        let (members, rest) ← readMembers levels fuel (skipBlanks rest)
        .ok ((.text key, v) :: members, rest)
      | rest => .error (.syntaxError .expectingComma rest)
    | rest => .error (.syntaxError .expectingColon rest)
  | _ + 1, cs => .error (.syntaxError .expectingKey cs)

end

def readDocument (cs : List Char) : Except Fault Value :=
  if cs.head? = some '\ufeff' then .error (.syntaxError .byteOrderMark cs)
  else
    match readValue levelLimit (2 * cs.length + 2) (skipBlanks cs) with
    | .error e => .error e
    | .ok (v, rest) =>
      match skipBlanks rest with
      | [] => .ok v
      | rest => .error (.syntaxError .extraData rest)

/-- A place in a text: lines and columns count from one, offsets from zero. What counts is the
codes of the text. -/
structure Place where
  line : Nat
  column : Nat
  offset : Nat
deriving DecidableEq, Repr

def Place.ofRest (all rest : List Char) : Place :=
  let before := Text.codes (all.take (all.length - rest.length))
  let newline := '\n'.toNat
  { line := before.count newline + 1
    column := (before.reverse.takeWhile (· != newline)).length + 1
    offset := before.length }

inductive Error where
  | syntaxError (complaint : Complaint) (place : Place)
  | tooManyDigits (count : Nat)
  | tooDeep
deriving DecidableEq, Repr

def Error.message? : Error → Option String
  | .syntaxError complaint place =>
    some s!"{complaint.text}: line {place.line} column {place.column} (char {place.offset})"
  | .tooManyDigits count => some (Text.tooManyDigits count)
  | .tooDeep => none

def parse (s : String) : Except Error Value :=
  let cs := s.toList
  match readDocument cs with
  | .ok v => .ok v
  | .error (.syntaxError complaint rest) => .error (.syntaxError complaint (Place.ofRest cs rest))
  | .error (.tooManyDigits count) => .error (.tooManyDigits count)
  | .error .tooDeep => .error .tooDeep

end DrawnSchema.Json
