import DrawnSchema.Text.Case
import DrawnSchema.Text.DecimalTable
import DrawnSchema.Yaml.Base64
import DrawnSchema.Yaml.Node

namespace DrawnSchema.Yaml

/-! The value of a scalar text, by its tag. -/

/-- A text as numbers are read from it. Digits of other scripts and blanks beyond ASCII are written
in ASCII; no other character beyond it can be a part of a number. -/
def numeral (cs : List Char) : List Char :=
  cs.map fun c =>
    if c.toNat < 0x7f then c
    else if Text.isWideBlank c then ' '
    else ((Text.scriptDigit? c).map Nat.digitChar).getD '?'

def isSpace (c : Char) : Bool := c == ' ' || ('\t' ≤ c && c ≤ '\r')

def trim (cs : List Char) : List Char :=
  ((cs.dropWhile isSpace).reverse.dropWhile isSpace).reverse

def baseLetter? : Nat → Option Char
  | 2 => some 'b'
  | 8 => some 'o'
  | 16 => some 'x'
  | _ => none

def dropBaseMark (base : Nat) : List Char → List Char
  | '0' :: c :: cs => if baseLetter? base == some c.toLower then cs else '0' :: c :: cs
  | cs => cs

/-- A whole number in a base, with blanks around it, a sign and the mark of the base. In base ten
the digits are counted before it is seen what follows them. -/
def wholeNumber (base : Nat) (cs : List Char) : Except Error Int :=
  let body := trim (numeral cs)
  let ds := dropBaseMark base (dropSign body)
  let run := ds.takeWhile fun c => Text.isHex c && Text.digitValue c < base
  if base == 10 && run.length > Text.digitLimit then .error (.tooManyDigits run.length)
  else if ds.isEmpty || run.length < ds.length then .error (.notWhole base (String.ofList cs))
  else
    let n : Int := Text.digitsValue base ds
    .ok (if body.head? == some '-' then -n else n)

def splitColons (part : List Char) (before : List (List Char)) : List Char → List (List Char)
  | [] => part.reverse :: before
  | ':' :: cs => splitColons [] (part.reverse :: before) cs
  | c :: cs => splitColons (c :: part) before cs

/-- The parts as digits of base sixty, the lowest first. -/
def sixties (base : Int) : List (List Char) → Except Error Int
  | [] => .ok 0
  | part :: parts => do
    let higher ← sixties (base * 60) parts
    let n ← wholeNumber 10 part
    .ok (n * base + higher)

def withoutBars (text : String) : List Char := text.toList.filter (· != '_')

def intOf (text : String) : Except Error Int := do
  let cs := withoutBars text
  match cs with
  | [] => .error .emptyNumber
  | first :: _ =>
    let negative := first == '-'
    let body := dropSign cs
    let n ← (match body with
      | [] => .error .emptyNumber
      | ['0'] => .ok 0
      | '0' :: 'b' :: ds => wholeNumber 2 ds
      | '0' :: 'x' :: ds => wholeNumber 16 ds
      | '0' :: _ => wholeNumber 8 body
      | _ => if body.contains ':' then sixties 1 (splitColons [] [] body) else wholeNumber 10 body :
        Except Error Int)
    .ok (if negative then -n else n)

def exponentOf : List Char → Option Int
  | [] => some 0
  | e :: cs =>
    if e == 'e' then
      let ds := dropSign cs
      if ds.isEmpty || !ds.all Text.isDecimal then none
      else
        let n : Int := Text.digitsValue 10 ds
        some (if cs.head? == some '-' then -n else n)
    else none

def decimalOf (negative : Bool) (cs : List Char) : Option Binary64 :=
  let (whole, rest) := cs.span Text.isDecimal
  let (places, rest) := match rest with
    | '.' :: rest => rest.span Text.isDecimal
    | rest => ([], rest)
  if whole.isEmpty && places.isEmpty then none
  else (exponentOf rest).map fun e =>
    Binary64.ofDecimal negative (Text.digitsValue 10 (whole ++ places)) (e - (places.length : Int))

def numberOf (cs : List Char) : Except Error Binary64 :=
  let body := trim (numeral cs)
  let negative := body.head? == some '-'
  let unsigned := dropSign body
  let found := match String.ofList unsigned with
    | "inf" => some (Binary64.infinity negative)
    | "infinity" => some (Binary64.infinity negative)
    | "nan" => some Binary64.undefinedResult
    | _ => decimalOf negative unsigned
  match found with
  | some x => .ok x
  | none => .error (.notANumber (String.ofList cs))

/-- The parts as digits of base sixty, added up from the lowest on. -/
def floatSixties (total : Binary64) (base : Nat) : List Binary64 → Except Error Binary64
  | [] => .ok total
  | x :: xs =>
    match Binary64.ofNat? base with
    | some scale => floatSixties (total.add (x.mul scale)) (base * 60) xs
    | none => .error .scaleTooLarge

def floatOf (text : String) : Except Error Binary64 := do
  let cs := (Text.lower (String.ofList (withoutBars text))).toList
  match cs with
  | [] => .error .emptyNumber
  | first :: _ =>
    let body := dropSign cs
    let x ← (match String.ofList body with
      | ".inf" => .ok (Binary64.infinity false)
      | ".nan" => .ok Binary64.nan
      | _ =>
        if body.contains ':' then do
          let parts ← (splitColons [] [] body).reverse.mapM numberOf
          floatSixties (Binary64.zero false) 1 parts.reverse
        else numberOf body : Except Error Binary64)
    .ok (if first == '-' && !x.isNaN then x.negate else x)

def truthOf (text : String) : Except Error Bool :=
  let word := text.toLower
  if ["yes", "true", "on"].contains word then .ok true
  else if ["no", "false", "off"].contains word then .ok false
  else .error .unknownTruth

def timestampOf (text : String) : Except Error Scalar :=
  match Timestamp.ofText? (dropFinalBreak text.toList) with
  | some t => t.toScalar
  | none => .error .notATimestamp

def octetsOf (text : String) : Except Error Scalar :=
  if text.toList.all (·.toNat < 0x80) then
    match decodeBase64? text.toList with
    | some octets => .ok (.bytes octets)
    | none => .error .malformed
  else .error .malformed

/-- The value of a text with a tag for scalars. No other tag lets a text stand for anything. -/
def scalarOf (tag : Tag) (text : String) : Except Error Scalar :=
  match tag with
  | .null => .ok .null
  | .bool => do .ok (.bool (← truthOf text))
  | .int => do .ok (.int (← intOf text))
  | .float => do .ok (.float (← floatOf text))
  | .timestamp => timestampOf text
  | .binary => octetsOf text
  | .text => .ok (.text text)
  | _ => .error .malformed

def Node.hasLabel (label : Nat) : Node → Bool
  | .sequence l _ _ => l == label
  | .mapping l _ _ => l == label
  | _ => false

def Node.resolved (named : List Node) : Node → Node
  | .again label => (named.find? (·.hasLabel label)).getD (.again label)
  | n => n

def isValueKey : Node → Bool
  | .scalar .value _ => true
  | _ => false

/-- The text of a node that is read as a scalar: its own, or that of the value a mapping has under
the mark `=`. There is none for a mapping that has itself there. -/
def textOf (named : List Node) : Nat → Node → Except Error String
  | 0, _ => .error .tooDeep
  | fuel + 1, n =>
    match n.resolved named with
    | .scalar _ text => .ok text
    | .mapping _ _ entries =>
      match entries.find? fun e => isValueKey e.1 with
      | some (_, v) => textOf named fuel v
      | none => .error .malformed
    | _ => .error .malformed

def scalarOfMapping (tag : Tag) (text : String) : Except Error Scalar :=
  if tag == .timestamp then .error .notAText else scalarOf tag text

def isMergeKey : Node → Bool
  | .scalar .merge _ => true
  | _ => false

/-- As a key, the mark `=` is a text like any other. -/
def asKey : Node → Node
  | .scalar .value text => .scalar .text text
  | n => n

def ownEntries (entries : List (Node × Node)) : List (Node × Node) :=
  (entries.filter fun e => !isMergeKey e.1).map fun e => (asKey e.1, e.2)

/-- The entries of a mapping with those that it merges put first. Of several mappings merged at
once the last comes first: an earlier one has the last word. A mapping that is merged into itself
has only its own entries to give. -/
def entriesOf (named : List Node) (within : List Nat) :
    Nat → List (Node × Node) → Except Error (List (Node × Node))
  | 0, _ => .error .tooDeep
  | fuel + 1, entries => do
    let ofMapping : Node → Except Error (List (Node × Node)) := fun n =>
      match n.resolved named with
      | .mapping label _ entries =>
        if within.contains label then .ok (ownEntries entries)
        else entriesOf named (label :: within) fuel entries
      | _ => .error .malformed
    let merged ← (entries.filter fun e => isMergeKey e.1).mapM fun e =>
      match e.2.resolved named with
      | .sequence _ _ items => do .ok (← items.mapM ofMapping).reverse.flatten
      | n => ofMapping n
    .ok (merged.flatten ++ ownEntries entries)

structure Failure where
  depth : Nat
  error : Error

abbrev Built (α : Type) := Except Failure α

namespace Built

variable {α β γ : Type}

def located (depth : Nat) : Except Error α → Built α
  | .ok a => .ok a
  | .error e => .error ⟨depth, e⟩

def malformed (depth : Nat) : Built α := .error ⟨depth, .malformed⟩

/-- Builds from two parts. Of two failures the one nearer to the root counts, of two that are
equally near the first. -/
def both (f : α → β → γ) : Built α → Built β → Built γ
  | .ok a, .ok b => .ok (f a b)
  | .error e, .error e' => .error (if e'.depth < e.depth then e' else e)
  | .error e, .ok _ => .error e
  | .ok _, .error e => .error e

def collect : List (Built α) → Built (List α)
  | [] => .ok []
  | b :: bs => both List.cons b (collect bs)

def sunk (depth : Nat) : Built α → Built α
  | .error e => .error { e with depth := e.depth + depth }
  | b => b

/-- A key, which has to be a scalar. What fails within a key that is none does not count. -/
def asKey (depth : Nat) : Built Value → Built Scalar
  | .ok (.scalar s) => .ok s
  | .error e => if e.depth > depth then malformed depth else .error e
  | .ok _ => malformed depth

end Built

def Tag.isCollection : Tag → Bool
  | .sequence | .mapping | .set | .pairs => true
  | _ => false

/-- A node that has a tag for collections of another form fails where its parts would be. -/
def misfit (depth : Nat) (tag : Tag) : Built Value :=
  Built.malformed (if tag.isCollection then depth + 1 else depth)

def pairNodes? : Node → Option (Node × Node)
  | .mapping _ _ [e] => some e
  | _ => none

/-- The nodes of a document that have a name, what is built from those among them that are known,
by their labels, and whether any is a part of itself. -/
structure Names where
  nodes : List Node
  known : List (Nat × Built Value) := []
  cyclic : Bool

def Names.known? (names : Names) : Node → Option (Built Value)
  | .again label => names.known.lookup label
  | _ => none

def valueOf (names : Names) : Nat → List Nat → Nat → Node → Built Value
  | 0, _, depth, _ => .malformed depth
  | fuel + 1, within, depth, n =>
    let part := fun label => valueOf names fuel (label :: within) (depth + 1)
    let members : Nat → List (Node × Node) → Built Entries := fun label entries =>
      match entriesOf names.nodes [label] (fuel + 1) entries with
      | .error e => .error ⟨depth + 1, e⟩
      | .ok entries =>
        (Built.collect (entries.map fun e =>
          .both Prod.mk (.asKey (depth + 1) (part label e.1)) (part label e.2))).map Entries.ofList
    let pair : Nat → Node → Built Value := fun label n =>
      match pairNodes? (n.resolved names.nodes) with
      | some (k, v) => .both .pair (part label k) (part label v)
      | none => .malformed (depth + 1)
    match names.known? n, n.resolved names.nodes with
    | some built, _ => built.sunk depth
    | none, .again _ => .malformed depth
    | none, .sequence label tag items =>
      if within.contains label then .ok (.loop label (.list []))
      else
        match tag with
        | .sequence => (Built.collect (items.map (part label))).map (finish label within ∘ .list)
        | .pairs => (Built.collect (items.map (pair label))).map (finish label within ∘ .list)
        | tag => misfit depth tag
    | none, .mapping label tag entries =>
      if within.contains label then .ok (.loop label (.map []))
      else
        match tag with
        | .mapping => (members label entries).map (finish label within ∘ .map)
        | .set => (members label entries).map fun m => .set (m.map (·.1))
        | tag =>
          if tag.isCollection then misfit depth tag
          else
            (Built.located depth (textOf names.nodes fuel n >>= scalarOfMapping tag)).map .scalar
    | none, .scalar tag text =>
      if tag.isCollection then misfit depth tag
      else (Built.located depth (scalarOf tag text)).map .scalar
where
  /-- Only with an alias in it can a collection be a part of itself. -/
  finish (label : Nat) (within : List Nat) (v : Value) : Value :=
    if names.cyclic then v.closed label within else v

def Names.learn (fuel : Nat) (names : Names) (n : Node) : Names :=
  match n with
  | .sequence label _ _ => { names with known := (label, valueOf names fuel [] 0 n) :: names.known }
  | .mapping label _ _ => { names with known := (label, valueOf names fuel [] 0 n) :: names.known }
  | _ => names

/-- The value of a tree. Unless it is a part of itself, each node with a name is built only once for
all its aliases. -/
def Tree.value (fuel : Nat) (t : Tree) : Built Value :=
  let names : Names := { nodes := t.named, cyclic := t.cyclic }
  valueOf (if t.cyclic then names else t.named.foldl (Names.learn fuel) names) fuel [] 0 t.root

/-- Reads a text; one that holds nothing is null. A tree is no deeper than its text is long. -/
def Source.parse (s : Source) : Except Error Value := do
  match ← Tree.ofSource s with
  | none => .ok .null
  | some t =>
    match t.value (s.chars.length + 2) with
    | .ok v => .ok v
    | .error f => .error f.error

end DrawnSchema.Yaml
