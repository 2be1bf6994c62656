import DrawnSchema.Yaml.Lexer
import DrawnSchema.Yaml.Tag
import DrawnSchema.Yaml.Timestamp

namespace DrawnSchema.Yaml

/-- The tree of a document. Each collection has a label of its own, and where an alias stands for a
collection there is the label of that. -/
inductive Node where
  | scalar (tag : Tag) (text : String)
  | sequence (label : Nat) (tag : Tag) (items : List Node)
  | mapping (label : Nat) (tag : Tag) (entries : List (Node × Node))
  | again (label : Nat)

/-- The tag of a plain text. A line break at its end does not count. -/
def Tag.ofPlain (text : String) : Tag :=
  let cs := dropFinalBreak text.toList
  let word := String.ofList cs
  if truthWords.contains word then .bool
  else if isFloatText cs then .float
  else if isIntText cs then .int
  else if word == "<<" then .merge
  else if nullWords.contains word then .null
  else if Timestamp.isPlainText cs then .timestamp
  else if word == "=" then .value
  else .text

/-- Collections are not nested deeper than this. -/
def levelLimit : Nat := 485

/-- What is left of the tokens of a document and what stops them, the nodes with a name, the number
of labels in use and of collections around the place reached, and whether an alias stands for one of
those. -/
structure Parser where
  tokens : List Token
  stop : Option Error := none
  anchors : List (String × Node) := []
  labels : Nat := 0
  level : Nat := 0
  cyclic : Bool := false

abbrev Parse := StateT Parser (Except Error)

namespace Parse

def peek : Parse (Option Token) := do
  let p ← get
  match p.tokens, p.stop with
  | [], some e => throw e
  | ts, _ => return ts.head?

def drop : Parse Unit := modify fun p => { p with tokens := p.tokens.tail }

def fail {α : Type} : Parse α := throw .malformed

def expect (t : Token) : Parse Unit := do
  if (← peek) == some t then drop else fail

def isNext (ts : List Token) : Parse Bool := do
  return (← peek).any ts.contains

def endsWith (ts : List Token) : Parse Bool := do
  match ← peek with
  | some t => return ts.contains t
  | none => return true

def name (anchor : Option String) (n : Node) : Parse Unit :=
  match anchor with
  | some a => modify fun p => { p with anchors := (a, n) :: p.anchors }
  | none => pure ()

/-- Reads a collection. Within it, its anchor stands for its label only. -/
def collection {α : Type} (anchor : Option String) (form : Nat → α → Node) (parts : Parse α) :
    Parse Node := do
  let label := (← get).labels
  if (← get).level ≥ levelLimit then throw .tooDeep
  modify fun p => { p with labels := p.labels + 1, level := p.level + 1 }
  name anchor (.again label)
  let n := form label (← parts)
  modify fun p => { p with level := p.level - 1 }
  name anchor n
  return n

def named (a : String) : Parse Node := do
  match (← get).anchors.lookup a with
  | some (.again label) =>
    modify fun p => { p with cyclic := true }
    return .again label
  | some (.sequence label _ _) => return .again label
  | some (.mapping label _ _) => return .again label
  | some n => return n
  | none => fail

end Parse

open Parse

abbrev Handles := List (String × String)

def defaultHandles : Handles := [("!", "!"), ("!!", tagLead)]

def emptyNode : Node := .scalar .null ""

def anchorMark : Parse (Option String) := do
  match ← peek with
  | some (.anchor a) =>
    drop
    return some a
  | _ => return none

def tagMark : Parse (Option (Option String × String)) := do
  match ← peek with
  | some (.tag handle suffix) =>
    drop
    return some (handle, suffix)
  | _ => return none

def fullTag (handles : Handles) : Option (Option String × String) → Parse (Option String)
  | some (some h, suffix) =>
    match handles.lookup h with
    | some lead => return some (lead ++ suffix)
    | none => fail
  | some (none, suffix) => return some suffix
  | none => return none

def properties (handles : Handles) : Parse (Option String × Option String) := do
  match ← anchorMark with
  | some a => return (some a, ← fullTag handles (← tagMark))
  | none =>
    match ← tagMark with
    | some t =>
      let anchor ← anchorMark
      return (anchor, ← fullTag handles (some t))
    | none => return (none, none)

def isGiven (tag : Option String) : Bool := tag.any (· != "!")

def tagOr (default : Tag) (tag : Option String) : Tag :=
  match tag with
  | some uri => if uri == "!" then default else .ofUri uri
  | none => default

/-- A scalar: a given tag holds; without one a plain text may stand for something. The tag of a
single mark makes a quoted text count as a plain one. -/
def scalarNode (tag : Option String) (text : String) (plain : Bool) : Node :=
  let implicit := if plain || tag == some "!" then Tag.ofPlain text else .text
  .scalar (tagOr implicit tag) text

def checkAnchor (anchor : Option String) : Parse Unit := do
  match anchor with
  | some a => if ((← get).anchors.lookup a).isSome then fail
  | none => pure ()

mutual

/-- A node. Block collections may begin it only in a block context, and a sequence without
indentation of its own only as a part of a mapping. -/
def node (handles : Handles) (block indentless : Bool) : Nat → Parse Node
  | 0 => fail
  | fuel + 1 => do
    match ← peek with
    | some (.alias a) =>
      drop
      named a
    | _ =>
      let (anchor, tag) ← properties handles
      let sequence := fun label => Node.sequence label (tagOr .sequence tag)
      let mapping := fun label => Node.mapping label (tagOr .mapping tag)
      let next ← peek
      checkAnchor anchor
      match next with
      | some .blockEntry =>
        if indentless then collection anchor sequence (indentlessItems handles fuel)
        else leaf anchor tag
      | some (.scalar text plain) =>
        drop
        let n := scalarNode tag text plain
        name anchor n
        return n
      | some .flowSequenceStart =>
        drop
        collection anchor sequence (flowItems handles true fuel)
      | some .flowMappingStart =>
        drop
        collection anchor mapping (flowEntries handles true fuel)
      | some .blockSequenceStart =>
        if block then
          drop
          collection anchor sequence (blockItems handles fuel)
        else leaf anchor tag
      | some .blockMappingStart =>
        if block then
          drop
          collection anchor mapping (blockEntries handles fuel)
        else leaf anchor tag
      | _ => leaf anchor tag
where
  /-- A node without content, which needs an anchor or a tag. -/
  leaf (anchor tag : Option String) : Parse Node := do
    if anchor.isNone && tag.isNone then fail
    else
      let n := if isGiven tag then .scalar (tagOr .null tag) "" else emptyNode
      name anchor n
      return n

def nodeOrEmpty (handles : Handles) (block indentless : Bool) (ends : List Token) :
    Nat → Parse Node
  | 0 => fail
  | fuel + 1 => do
    if ← isNext ends then return emptyNode else node handles block indentless fuel

def blockItems (handles : Handles) : Nat → Parse (List Node)
  | 0 => fail
  | fuel + 1 => do
    match ← peek with
    | some .blockEntry =>
      drop
      let n ← nodeOrEmpty handles true false [.blockEntry, .blockEnd] fuel
      return n :: (← blockItems handles fuel)
    | some .blockEnd =>
      drop
      return []
    | _ => fail

def indentlessItems (handles : Handles) : Nat → Parse (List Node)
  | 0 => fail
  | fuel + 1 => do
    match ← peek with
    | some .blockEntry =>
      drop
      let n ← nodeOrEmpty handles true false [.blockEntry, .key, .value, .blockEnd] fuel
      return n :: (← indentlessItems handles fuel)
    | _ => return []

def blockEntries (handles : Handles) : Nat → Parse (List (Node × Node))
  | 0 => fail
  | fuel + 1 => do
    match ← peek with
    | some .key =>
      drop
      let k ← nodeOrEmpty handles true true [.key, .value, .blockEnd] fuel
      let v ← blockValue handles fuel
      return (k, v) :: (← blockEntries handles fuel)
    | some .blockEnd =>
      drop
      return []
    | _ => fail

def blockValue (handles : Handles) : Nat → Parse Node
  | 0 => fail
  | fuel + 1 => do
    match ← peek with
    | some .value =>
      drop
      nodeOrEmpty handles true true [.key, .value, .blockEnd] fuel
    | _ => return emptyNode

/-- The items of a flow sequence. An entry among them is a mapping of its own. -/
def flowItems (handles : Handles) (first : Bool) : Nat → Parse (List Node)
  | 0 => fail
  | fuel + 1 => do
    if ← isNext [.flowSequenceEnd] then
      drop
      return []
    else
      if !first then expect .flowEntry
      match ← peek with
      | some .key =>
        drop
        let n ← collection none (fun label => .mapping label .mapping) do
          let k ← nodeOrEmpty handles false false [.value, .flowEntry, .flowSequenceEnd] fuel
          let v ← flowValue handles [.flowEntry, .flowSequenceEnd] fuel
          return [(k, v)]
        return n :: (← flowItems handles false fuel)
      | some .flowSequenceEnd =>
        drop
        return []
      | _ =>
        let n ← node handles false false fuel
        return n :: (← flowItems handles false fuel)

def flowValue (handles : Handles) (ends : List Token) : Nat → Parse Node
  | 0 => fail
  | fuel + 1 => do
    match ← peek with
    | some .value =>
      drop
      nodeOrEmpty handles false false ends fuel
    | _ => return emptyNode

/-- The entries of a flow mapping. A node alone is a key with an empty value. -/
def flowEntries (handles : Handles) (first : Bool) : Nat → Parse (List (Node × Node))
  | 0 => fail
  | fuel + 1 => do
    if ← isNext [.flowMappingEnd] then
      drop
      return []
    else
      if !first then expect .flowEntry
      match ← peek with
      | some .key =>
        drop
        let k ← nodeOrEmpty handles false false [.value, .flowEntry, .flowMappingEnd] fuel
        let v ← flowValue handles [.flowEntry, .flowMappingEnd] fuel
        return (k, v) :: (← flowEntries handles false fuel)
      | some .flowMappingEnd =>
        drop
        return []
      | _ =>
        let k ← node handles false false fuel
        return (k, emptyNode) :: (← flowEntries handles false fuel)

end

def skipEnds : Nat → Parse Unit
  | 0 => pure ()
  | fuel + 1 => do
    if ← isNext [.documentEnd] then
      drop
      skipEnds fuel

def directives (version : Bool) (handles : Handles) : Nat → Parse Handles
  | 0 => fail
  | fuel + 1 => do
    match ← peek with
    | some (.directive (.version major _)) =>
      drop
      if version || major != 1 then fail else directives true handles fuel
    | some (.directive (.tag handle lead)) =>
      drop
      if (handles.lookup handle).isSome then fail
      else directives version ((handle, lead) :: handles) fuel
    | some (.directive .reserved) =>
      drop
      directives version handles fuel
    | _ => return handles

def isDirective : Option Token → Bool
  | some (.directive _) => true
  | _ => false

def document (fuel : Nat) : Parse (Option Node) := do
  let first ← peek
  if first.isNone then return none
  let content ← (if isDirective first || first == some .documentStart then do
      let handles ← directives false [] fuel
      expect .documentStart
      let next ← peek
      if isDirective next || (← endsWith [.documentStart, .documentEnd]) then
        return emptyNode
      else node (handles ++ defaultHandles) true false fuel
    else node defaultHandles true false fuel : Parse Node)
  skipEnds fuel
  if (← peek).isNone then return some content
  else
    let _ ← directives false [] fuel
    fail

/-- A document as a tree, the nodes with a name in the order in which they end, and whether any is
a part of itself. -/
structure Tree where
  root : Node
  named : List Node
  cyclic : Bool

def Tree.ofSource (s : Source) : Except Error (Option Tree) := do
  let scan := s.scan
  let start : Parser := { tokens := scan.tokens, stop := scan.stop }
  let (n, p) ← (document (3 * scan.tokens.length + 3)).run start
  .ok (n.map fun root => { root, named := (p.anchors.map (·.2)).reverse, cyclic := p.cyclic })

end DrawnSchema.Yaml
