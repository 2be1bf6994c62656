import DrawnSchema.Yaml.Cursor
import DrawnSchema.Yaml.Error

namespace DrawnSchema.Yaml

def escapes : List (Char × Char) := [
  ('0', '\x00'), ('a', '\x07'), ('b', '\x08'), ('t', '\t'), ('\t', '\t'), ('n', '\n'),
  ('v', '\x0b'), ('f', '\x0c'), ('r', '\r'), ('e', '\x1b'), (' ', ' '), ('"', '"'), ('\\', '\\'),
  ('/', '/'), ('N', '\u0085'), ('_', '\u00a0'), ('L', '\u2028'), ('P', '\u2029')]

def codeLength? : Char → Option Nat
  | 'x' => some 2
  | 'u' => some 4
  | 'U' => some 8
  | _ => none

/-- What holds a code. Two halves of a pair are not joined. -/
def ofCode (n : Nat) : Except Error (List Char) :=
  if n < 0x110000 then .ok (Text.ofCode n)
  else if n < 0x80000000 then .error .noSuchCharacter
  else .error .codeTooLarge

def quotedBreaks : Nat → Cursor → Except Error (List Char × Cursor)
  | 0, c => .ok ([], c)
  | fuel + 1, c =>
    if c.atSeparator then .error .malformed
    else
      let c := c.skipWhile isBlank
      match c.lineBreak with
      | ([], _) => .ok ([], c)
      | (br, c) => do
        let (more, c) ← quotedBreaks fuel c
        .ok (br ++ more, c)

/-- What an escape stands for, after its backslash. A line break is left out, with the blanks of the
next line. -/
def escaped (c : Cursor) : Except Error (List Char × Cursor) :=
  match c.rest with
  | [] => .error .malformed
  | ch :: rest =>
    match escapes.lookup ch with
    | some r => .ok ([r], c.next)
    | none =>
      match codeLength? ch with
      | some n =>
        let ds := rest.take n
        if ds.length == n && ds.all Text.isHex then do
          .ok (← ofCode (Text.digitsValue 16 ds), c.skip (n + 1))
        else .error .malformed
      | none =>
        if isBreak ch then quotedBreaks (rest.length + 1) c.lineBreak.2
        else .error .malformed

def isPlainInQuotes (c : Char) : Bool :=
  !(c == '\'' || c == '"' || c == '\\' || isBlank c || isBreak c)

def quotedRun (double : Bool) : Nat → Cursor → Except Error (List Char × Cursor)
  | 0, c => .ok ([], c)
  | fuel + 1, c =>
    let (run, c) := c.span isPlainInQuotes
    let goOn (piece : List Char) (c : Cursor) : Except Error (List Char × Cursor) := do
      let (more, c) ← quotedRun double fuel c
      .ok (Text.hold run ++ piece ++ more, c)
    match double, c.rest with
    | false, '\'' :: '\'' :: _ => goOn ['\''] (c.skip 2)
    | false, '"' :: _ => goOn ['"'] c.next
    | false, '\\' :: _ => goOn ['\\'] c.next
    | true, '\'' :: _ => goOn ['\''] c.next
    | true, '\\' :: _ => do
      let (piece, c) ← escaped c.next
      goOn piece c
    | _, _ => .ok (Text.hold run, c)

/-- A line break with the empty lines after it: one break alone becomes a space, of several the
first is left out. -/
def foldBreaks (br more : List Char) : List Char :=
  if br != ['\n'] then br ++ more
  else if more.isEmpty then [' ']
  else more

def quotedGap (c : Cursor) : Except Error (List Char × Cursor) :=
  let (blanks, c) := c.span isBlank
  match c.rest with
  | [] => .error .malformed
  | _ :: rest =>
    match c.lineBreak with
    | ([], _) => .ok (blanks, c)
    | (br, c) => do
      let (more, c) ← quotedBreaks (rest.length + 1) c
      .ok (foldBreaks br more, c)

def quotedRest (double : Bool) : Nat → Cursor → Except Error (List Char × Cursor)
  | 0, _ => .error .malformed
  | fuel + 1, c =>
    if c.peek == some (if double then '"' else '\'') then .ok ([], c.next)
    else do
      let (gap, c) ← quotedGap c
      let (run, c) ← quotedRun double (c.rest.length + 1) c
      let (more, c) ← quotedRest double fuel c
      .ok (gap ++ run ++ more, c)

def quotedText (double : Bool) (c : Cursor) : Except Error (List Char × Cursor) := do
  let (run, c) ← quotedRun double (c.rest.length + 1) c.next
  let (more, c) ← quotedRest double (c.rest.length + 2) c
  .ok (run ++ more, c)

/-- Whether the final line breaks of a block are kept: all, none, or one. -/
inductive Chomping where
  | clip
  | strip
  | keep
deriving DecidableEq

def chomping? : Option Char → Option Chomping
  | some '+' => some .keep
  | some '-' => some .strip
  | _ => none

def indentDigit (c : Cursor) : Except Error (Option Nat × Cursor) :=
  match c.peek with
  | some d =>
    if Text.isDecimal d then
      if d == '0' then .error .malformed else .ok (some (Text.digitValue d), c.next)
    else .ok (none, c)
  | none => .ok (none, c)

def blockHeader (c : Cursor) : Except Error (Chomping × Option Nat × Cursor) := do
  let (chomp, indent, c) ← (match chomping? c.peek with
    | some chomp => do
      let (indent, c) ← indentDigit c.next
      .ok (chomp, indent, c)
    | none => do
      let (indent, c) ← indentDigit c
      match indent, chomping? c.peek with
      | some _, some chomp => .ok (chomp, indent, c.next)
      | _, _ => .ok (.clip, indent, c) : Except Error (Chomping × Option Nat × Cursor))
  if endsWord c.peek then .ok (chomp, indent, c) else .error .malformed

def restOfLine (c : Cursor) : Except Error Cursor :=
  let c := c.skipSpaces
  let c := if c.peek == some '#' then c.skipWhile fun ch => !isBreak ch else c
  if endsLine c.peek then .ok c.lineBreak.2 else .error .malformed

/-- The empty lines before a block whose indentation is not given, and the largest column that
spaces reach. -/
def blockStart : Nat → Cursor → Nat → List Char × Nat × Cursor
  | 0, c, widest => ([], widest, c)
  | fuel + 1, c, widest =>
    let c := c.skipSpaces
    let widest := max widest c.column
    match c.lineBreak with
    | ([], _) => ([], widest, c)
    | (br, c) =>
      let (more, widest, c) := blockStart fuel c widest
      (br ++ more, widest, c)

def blockBreaks (indent : Nat) : Nat → Cursor → List Char × Cursor
  | 0, c => ([], c)
  | fuel + 1, c =>
    let c := c.skipIndent indent
    match c.lineBreak with
    | ([], _) => ([], c)
    | (br, c) =>
      let (more, c) := blockBreaks indent fuel c
      (br ++ more, c)

def blockTail (chomp : Chomping) (br breaks : List Char) : List Char :=
  match chomp with
  | .strip => []
  | .clip => br
  | .keep => br ++ breaks

/-- The lines of a block, after the empty lines `breaks`. In a folded block a single break between
two lines that start with no blank becomes a space. -/
def blockLines (folded : Bool) (chomp : Chomping) (indent : Nat) :
    Nat → Cursor → List Char → List Char → List Char × Cursor
  | 0, c, br, breaks => (blockTail chomp br breaks, c)
  | fuel + 1, c, br, breaks =>
    if c.column == indent && c.peek.isSome then
      let leading := c.peek.any isBlank
      let (line, c) := c.span fun ch => !isBreak ch
      let (br', c) := c.lineBreak
      let (breaks', c) := blockBreaks indent (c.rest.length + 1) c
      let goesOn := c.column == indent && c.peek.isSome
      let joint :=
        if !goesOn then []
        else if folded && br' == ['\n'] && !leading && !c.peek.any isBlank then
          if breaks'.isEmpty then [' '] else []
        else br'
      let (more, c) := blockLines folded chomp indent fuel c br' breaks'
      (breaks ++ line ++ joint ++ more, c)
    else (blockTail chomp br breaks, c)

/-- A literal or folded block from its mark on; `parent` is the indentation around it. -/
def blockText (folded : Bool) (parent : Int) (c : Cursor) : Except Error (List Char × Cursor) := do
  let (chomp, given, c) ← blockHeader c.next
  let c ← restOfLine c
  let least := (max (parent + 1) 1).toNat
  let (indent, breaks, c) := match given with
    | some n =>
      let indent := least + n - 1
      let (breaks, c) := blockBreaks indent (c.rest.length + 1) c
      (indent, breaks, c)
    | none =>
      let (breaks, widest, c) := blockStart (c.rest.length + 1) c 0
      (max least widest, breaks, c)
  .ok (blockLines folded chomp indent (c.rest.length + 1) c [] breaks)

def endsPlain (inFlow : Bool) (ch : Char) (following : Option Char) : Bool :=
  isBlank ch || isBreak ch ||
  (ch == ':' && (endsToken following ||
    (inFlow && following.any fun f => [',', '[', ']', '\x7b', '\x7d'].contains f))) ||
  (inFlow && [',', '?', '[', ']', '\x7b', '\x7d'].contains ch)

def plainRun (inFlow : Bool) : List Char → List Char
  | [] => []
  | ch :: rest => if endsPlain inFlow ch rest.head? then [] else ch :: plainRun inFlow rest

/-- The empty lines within a plain text; none when documents are separated here. -/
def plainBreaks : Nat → Cursor → Option (List Char) × Cursor
  | 0, c => (some [], c)
  | fuel + 1, c =>
    if c.atSeparator then (none, c)
    else
      let c := c.skipSpaces
      match c.lineBreak with
      | ([], _) => (some [], c)
      | (br, c) =>
        let (more, c) := plainBreaks fuel c
        (more.map (br ++ ·), c)

/-- The spaces or line breaks after a run of a plain text, and whether there was a line break. -/
def plainGap (c : Cursor) : List Char × Bool × Cursor :=
  let (spaces, c) := c.span (· == ' ')
  match c.lineBreak with
  | ([], _) => (spaces, false, c)
  | (br, c) =>
    match plainBreaks (c.rest.length + 1) c with
    | (some more, c) => (foldBreaks br more, true, c)
    | (none, c) => ([], true, c)

/-- A plain text, after the gap `gap`. The flag tells whether it ends after a line break. -/
def plainFrom (inFlow : Bool) (indent : Nat) : Nat → Cursor → List Char → Bool →
    List Char × Bool × Cursor
  | 0, c, _, broken => ([], broken, c)
  | fuel + 1, c, gap, broken =>
    let run := if c.peek == some '#' then [] else plainRun inFlow c.rest
    if run.isEmpty then ([], broken, c)
    else
      let (gap', broken', c) := plainGap (c.skip run.length)
      if gap'.isEmpty || c.peek == some '#' || (!inFlow && c.column < indent) then
        (gap ++ run, broken', c)
      else
        let (more, broken'', c) := plainFrom inFlow indent fuel c gap' broken'
        (gap ++ run ++ more, broken'', c)

end DrawnSchema.Yaml
