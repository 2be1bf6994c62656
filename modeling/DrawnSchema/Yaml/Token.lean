import DrawnSchema.Yaml.Cursor
import DrawnSchema.Yaml.Error

namespace DrawnSchema.Yaml

inductive Directive where
  | version (major minor : Nat)
  | tag (handle lead : String)
  | reserved
deriving DecidableEq, Repr

/-- The marks and texts that a document is made of. Scalars that are not quoted and not in a block
are plain. -/
inductive Token where
  | directive (d : Directive)
  | documentStart
  | documentEnd
  | blockSequenceStart
  | blockMappingStart
  | blockEnd
  | flowSequenceStart
  | flowSequenceEnd
  | flowMappingStart
  | flowMappingEnd
  | flowEntry
  | blockEntry
  | key
  | value
  | alias (name : String)
  | anchor (name : String)
  | tag (handle : Option String) (suffix : String)
  | scalar (text : String) (plain : Bool)
deriving DecidableEq, Repr

def isWordChar (c : Char) : Bool :=
  Text.isDecimal c || ('A' ≤ c && c ≤ 'Z') || ('a' ≤ c && c ≤ 'z') || c == '-' || c == '_'

def isTagChar (c : Char) : Bool :=
  isWordChar c || ";/?:@&=+$,.!~*'()[]%".toList.contains c

def anchorName (c : Cursor) : Except Error (String × Cursor) :=
  let (name, c) := c.next.span isWordChar
  if name.isEmpty then .error .malformed
  else if endsToken c.peek || c.peek.any "?:,]\x7d%@`".toList.contains then
    .ok (String.ofList name, c)
  else .error .malformed

def tagOctets : Nat → Cursor → Except Error (List UInt8 × Cursor)
  | 0, c => .ok ([], c)
  | fuel + 1, c =>
    match c.rest with
    | '%' :: a :: b :: _ =>
      if Text.isHex a && Text.isHex b then do
        let (more, c) ← tagOctets fuel (c.skip 3)
        .ok (UInt8.ofNat (Text.digitsValue 16 [a, b]) :: more, c)
      else .error .malformed
    | '%' :: _ => .error .malformed
    | _ => .ok ([], c)

def tagChars : Nat → Cursor → Except Error (List Char × Cursor)
  | 0, c => .ok ([], c)
  | fuel + 1, c =>
    let (run, c) := c.span fun ch => isTagChar ch && ch != '%'
    if c.peek == some '%' then do
      let (octets, c) ← tagOctets (c.rest.length + 1) c
      match Text.ofOctets? octets with
      | none => .error .malformed
      | some s =>
        let (more, c) ← tagChars fuel c
        .ok (run ++ s.toList ++ more, c)
    else .ok (run, c)

/-- The part of a tag after its handle. Escapes may stand for nothing, but something must be
there. -/
def tagSuffix (c : Cursor) : Except Error (String × Cursor) :=
  if c.peek.any isTagChar then do
    let (cs, c) ← tagChars (c.rest.length + 1) c
    .ok (String.ofList cs, c)
  else .error .malformed

def tagHandle (c : Cursor) : Except Error (String × Cursor) :=
  match c.rest with
  | '!' :: rest =>
    if rest.head? == some ' ' then .ok ("!", c.next)
    else
      let word := rest.takeWhile isWordChar
      if (rest.drop word.length).head? == some '!' then
        .ok (String.ofList ('!' :: word ++ ['!']), c.skip (word.length + 2))
      else .error .malformed
  | _ => .error .malformed

def hasHandle (rest : List Char) : Bool :=
  (rest.takeWhile fun ch => !(endsWord (some ch))).contains '!'

def tagToken (c : Cursor) : Except Error (Token × Cursor) := do
  let (token, c) ← (match c.rest.tail with
    | '<' :: _ => do
      let (suffix, c) ← tagSuffix (c.skip 2)
      if c.peek == some '>' then .ok (.tag none suffix, c.next) else .error .malformed
    | rest =>
      if endsToken rest.head? then .ok (.tag none "!", c.next)
      else if hasHandle rest then do
        let (handle, c) ← tagHandle c
        let (suffix, c) ← tagSuffix c
        .ok (.tag (some handle) suffix, c)
      else do
        let (suffix, c) ← tagSuffix c.next
        .ok (.tag (some "!") suffix, c) : Except Error (Token × Cursor))
  if endsWord c.peek then .ok (token, c) else .error .malformed

def versionNumber (c : Cursor) : Except Error (Nat × Cursor) :=
  let (ds, c) := c.span Text.isDecimal
  if ds.isEmpty then .error .malformed
  else if ds.length > Text.digitLimit then .error (.tooManyDigits ds.length)
  else .ok (Text.digitsValue 10 ds, c)

def versionDirective (c : Cursor) : Except Error (Directive × Cursor) := do
  let (major, c) ← versionNumber c.skipSpaces
  if c.peek != some '.' then .error .malformed
  else
    let (minor, c) ← versionNumber c.next
    if endsWord c.peek then .ok (.version major minor, c) else .error .malformed

def tagDirective (c : Cursor) : Except Error (Directive × Cursor) := do
  let (handle, c) ← tagHandle c.skipSpaces
  if c.peek != some ' ' then .error .malformed
  else
    let (lead, c) ← tagSuffix c.skipSpaces
    if endsWord c.peek then .ok (.tag handle lead, c) else .error .malformed

def directiveToken (c : Cursor) : Except Error (Token × Cursor) := do
  let (name, c) := c.next.span isWordChar
  if name.isEmpty || !endsWord c.peek then .error .malformed
  else
    let (d, c) ← (match String.ofList name with
      | "YAML" => versionDirective c
      | "TAG" => tagDirective c
      | _ => .ok (.reserved, c.skipWhile fun ch => !isBreak ch) : Except Error (Directive × Cursor))
    let c := c.skipSpaces
    let c := if c.peek == some '#' then c.skipWhile fun ch => !isBreak ch else c
    if endsLine c.peek then .ok (.directive d, c.lineBreak.2) else .error .malformed

end DrawnSchema.Yaml
