import DrawnSchema.Yaml.ScalarText
import DrawnSchema.Yaml.Source
import DrawnSchema.Yaml.Token

namespace DrawnSchema.Yaml

/-- A token after which a colon may show that it was a key all along. The mark of the key then
goes before it. -/
structure PossibleKey where
  position : Nat
  required : Bool
  offset : Nat
  line : Nat
  column : Nat

/-- A text that is partly cut into tokens, the last one first. Indentation and possible keys are
those of the place reached; possible keys are held by their depth of flow collections. -/
structure Lexer where
  cursor : Cursor
  tokens : List Token := []
  count : Nat := 0
  flowLevel : Nat := 0
  indent : Int := -1
  indents : List Int := []
  keyAllowed : Bool := true
  possibleKeys : List (Nat × PossibleKey) := []

namespace Lexer

def inFlow (l : Lexer) : Bool := l.flowLevel > 0

def push (l : Lexer) (t : Token) : Lexer := { l with tokens := t :: l.tokens, count := l.count + 1 }

def insertAt (l : Lexer) (position : Nat) (t : Token) : Lexer :=
  let (later, earlier) := l.tokens.splitAt (l.count - position)
  { l with tokens := later ++ t :: earlier, count := l.count + 1 }

def moveTo (l : Lexer) (c : Cursor) : Lexer := { l with cursor := c }

/-- Skips blanks, comments and line ends. Outside flow collections a new line allows a key. -/
def skipToToken : Nat → Lexer → Lexer
  | 0, l => l
  | fuel + 1, l =>
    let c := l.cursor.skipSpaces
    let c := if c.peek == some '#' then c.skipWhile fun ch => !isBreak ch else c
    match c.lineBreak with
    | ([], _) => l.moveTo c
    | (_, c) =>
      skipToToken fuel { l with cursor := c, keyAllowed := l.keyAllowed || !l.inFlow }

/-- A possible key is given up at the end of its line, and after so many characters. -/
def isStale (l : Lexer) (k : PossibleKey) : Bool :=
  k.line != l.cursor.line || l.cursor.offset - k.offset > 1024

def dropStaleKeys (l : Lexer) : Except Error Lexer :=
  if l.possibleKeys.any fun k => l.isStale k.2 && k.2.required then .error .malformed
  else .ok { l with possibleKeys := l.possibleKeys.filter fun k => !l.isStale k.2 }

def possibleKey? (l : Lexer) : Option PossibleKey := l.possibleKeys.lookup l.flowLevel

def withoutKey (l : Lexer) : Lexer :=
  { l with possibleKeys := l.possibleKeys.filter fun k => k.1 != l.flowLevel }

def dropKey (l : Lexer) : Except Error Lexer :=
  if l.possibleKey?.any (·.required) then .error .malformed else .ok l.withoutKey

/-- Notes that the next token may be a key. It has to be one where the block context leaves no
other choice. -/
def saveKey (l : Lexer) : Except Error Lexer :=
  if l.keyAllowed then do
    let required := !l.inFlow && l.indent == l.cursor.column
    let l ← l.dropKey
    let k : PossibleKey :=
      { position := l.count, required, offset := l.cursor.offset, line := l.cursor.line
        column := l.cursor.column }
    .ok { l with possibleKeys := (l.flowLevel, k) :: l.possibleKeys }
  else .ok l

def unwindTo (column : Int) : Nat → Lexer → Lexer
  | 0, l => l
  | fuel + 1, l =>
    if l.indent > column then
      unwindTo column fuel
        { l.push .blockEnd with indent := l.indents.headD (-1), indents := l.indents.tail }
    else l

def unwind (l : Lexer) (column : Int) : Lexer :=
  if l.inFlow then l else unwindTo column (l.indents.length + 1) l

def indents? (l : Lexer) (column : Nat) : Bool := l.indent < column

def addIndent (l : Lexer) (column : Nat) : Lexer :=
  { l with indents := l.indent :: l.indents, indent := column }

/-- Starts a block collection at the cursor if it is indented further than the one around it. -/
def startBlock (l : Lexer) (t : Token) : Lexer :=
  if l.indents? l.cursor.column then (l.addIndent l.cursor.column).push t else l

def step (l : Lexer) (n : Nat) (t : Token) : Lexer := (l.moveTo (l.cursor.skip n)).push t

def documentMark (l : Lexer) (t : Token) : Except Error Lexer := do
  let l ← (l.unwind (-1)).dropKey
  .ok ({ l with keyAllowed := false }.step 3 t)

def directive (l : Lexer) : Except Error Lexer := do
  let l ← (l.unwind (-1)).dropKey
  let (t, c) ← directiveToken l.cursor
  .ok (({ l with keyAllowed := false }.moveTo c).push t)

def flowStart (l : Lexer) (t : Token) : Except Error Lexer := do
  let l ← l.saveKey
  .ok ({ l with flowLevel := l.flowLevel + 1, keyAllowed := true }.step 1 t)

def flowEnd (l : Lexer) (t : Token) : Except Error Lexer := do
  let l ← l.dropKey
  .ok ({ l with flowLevel := l.flowLevel - 1, keyAllowed := false }.step 1 t)

def flowEntry (l : Lexer) : Except Error Lexer := do
  let l ← l.dropKey
  .ok ({ l with keyAllowed := true }.step 1 .flowEntry)

def blockEntry (l : Lexer) : Except Error Lexer := do
  if !l.inFlow && !l.keyAllowed then .error .malformed
  else
    let l ← (if l.inFlow then l else l.startBlock .blockSequenceStart).dropKey
    .ok ({ l with keyAllowed := true }.step 1 .blockEntry)

def keyMark (l : Lexer) : Except Error Lexer := do
  if !l.inFlow && !l.keyAllowed then .error .malformed
  else
    let l ← (if l.inFlow then l else l.startBlock .blockMappingStart).dropKey
    .ok ({ l with keyAllowed := !l.inFlow }.step 1 .key)

/-- Marks a possible key as a key; it starts a block mapping if it is indented further than the
collection around it. -/
def confirmKey (l : Lexer) (k : PossibleKey) : Lexer :=
  let l := l.withoutKey.insertAt k.position .key
  let l := if !l.inFlow && l.indents? k.column then
      (l.addIndent k.column).insertAt k.position .blockMappingStart
    else l
  { l with keyAllowed := false }

def valueMark (l : Lexer) : Except Error Lexer :=
  match l.possibleKey? with
  | some k => .ok ((l.confirmKey k).step 1 .value)
  | none => do
    if !l.inFlow && !l.keyAllowed then .error .malformed
    else
      let l ← (if l.inFlow then l else l.startBlock .blockMappingStart).dropKey
      .ok ({ l with keyAllowed := !l.inFlow }.step 1 .value)

def take (l : Lexer) (read : Cursor → Except Error (Token × Cursor)) : Except Error Lexer := do
  let l ← l.saveKey
  let (t, c) ← read l.cursor
  .ok (({ l with keyAllowed := false }.moveTo c).push t)

def quoted (double : Bool) (c : Cursor) : Except Error (Token × Cursor) := do
  let (cs, c) ← quotedText double c
  .ok (.scalar (String.ofList cs) false, c)

def block (l : Lexer) (folded : Bool) : Except Error Lexer := do
  let l ← l.dropKey
  let (cs, c) ← blockText folded l.indent l.cursor
  let text := String.ofList (Text.hold cs)
  .ok (({ l with keyAllowed := true }.moveTo c).push (.scalar text false))

def plain (l : Lexer) : Except Error Lexer := do
  let l ← l.saveKey
  let (cs, broken, c) :=
    plainFrom l.inFlow (l.indent + 1).toNat (l.cursor.rest.length + 1) l.cursor [] false
  let text := String.ofList (Text.hold cs)
  .ok (({ l with keyAllowed := broken }.moveTo c).push (.scalar text true))

/-- Whether a mark stands alone, as it must outside flow collections. -/
def standsAlone (l : Lexer) : Bool := endsToken (l.cursor.peekAt 1)

def indicators : List Char := "-?:,[]\x7b\x7d#&*!|>'\"%@`".toList

def startsPlain (l : Lexer) (ch : Char) : Bool :=
  !(isBlank ch || isBreak ch || indicators.contains ch) ||
  (!l.standsAlone && (ch == '-' || (!l.inFlow && (ch == '?' || ch == ':'))))

def takeToken (l : Lexer) (ch : Char) : Except Error Lexer :=
  if ch == '%' && l.cursor.column == 0 then l.directive
  else if ch == '-' && l.cursor.column == 0 && l.cursor.atMarks '-' then
    l.documentMark .documentStart
  else if ch == '.' && l.cursor.column == 0 && l.cursor.atMarks '.' then
    l.documentMark .documentEnd
  else if ch == '[' then l.flowStart .flowSequenceStart
  else if ch == '\x7b' then l.flowStart .flowMappingStart
  else if ch == ']' then l.flowEnd .flowSequenceEnd
  else if ch == '\x7d' then l.flowEnd .flowMappingEnd
  else if ch == ',' then l.flowEntry
  else if ch == '-' && l.standsAlone then l.blockEntry
  else if ch == '?' && (l.inFlow || l.standsAlone) then l.keyMark
  else if ch == ':' && (l.inFlow || l.standsAlone) then l.valueMark
  else if ch == '*' then l.take fun c => (anchorName c).map fun r => (.alias r.1, r.2)
  else if ch == '&' then l.take fun c => (anchorName c).map fun r => (.anchor r.1, r.2)
  else if ch == '!' then l.take tagToken
  else if ch == '|' && !l.inFlow then l.block false
  else if ch == '>' && !l.inFlow then l.block true
  else if ch == '\'' then l.take (quoted false)
  else if ch == '"' then l.take (quoted true)
  else if l.startsPlain ch then l.plain
  else .error .malformed

/-- Takes the next token, none at the end of the text. Keys that this shows to be none are given up
at once. -/
def fetch (stop : Option Error) (l : Lexer) : Except Error (Option Lexer) := do
  let l ← (skipToToken (l.cursor.rest.length + 1) l).dropStaleKeys
  let l := l.unwind l.cursor.column
  match l.cursor.peek, stop with
  | none, some e => .error e
  | none, none =>
    let _ ← (l.unwind (-1)).dropKey
    .ok none
  | some ch, _ =>
    match l.takeToken ch with
    | .ok l => .ok (some (← l.dropStaleKeys))
    | .error e => .error (if isQuote ch && e == .malformed then stop.getD e else e)
where
  isQuote (ch : Char) : Bool := ch == '"' || ch == '\''

def settled (l : Lexer) : List Token :=
  l.tokens.reverse.take (l.possibleKeys.foldl (fun n k => min n k.2.position) l.count)

end Lexer

/-- The tokens of a text in order, up to what stops the reading, if something does. -/
structure Scan where
  tokens : List Token
  stop : Option Error := none

/-- Takes all tokens. Each takes a character at least, which bounds the fuel. -/
def Lexer.run (stop : Option Error) : Nat → Lexer → Scan
  | 0, l => { tokens := l.settled, stop := some .malformed }
  | fuel + 1, l =>
    match l.fetch stop with
    | .ok (some l) => run stop fuel l
    | .ok none => { tokens := (l.unwind (-1)).tokens.reverse }
    | .error e => { tokens := l.settled, stop := some e }

def Source.scan (s : Source) : Scan :=
  Lexer.run s.stop (s.chars.length + 2) { cursor := s.start }

end DrawnSchema.Yaml
