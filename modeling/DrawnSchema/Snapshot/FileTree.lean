import DrawnSchema.Text.Case
import DrawnSchema.Text.Surrogate

namespace DrawnSchema

/-- A path as it is written: its leading slashes, and its steps without those that lead nowhere. -/
structure Path where
  root : String
  steps : List String
deriving DecidableEq, Repr

namespace Path

/-- Two slashes at the front are kept, any other number of them counts as one. -/
def rootOf (s : String) : String :=
  match (s.toList.takeWhile (· == '/')).length with
  | 0 => ""
  | 2 => "//"
  | _ => "/"

/-- What stands between the slashes of a path. -/
def parts (s : String) : List String := (s.toList.splitOn '/').map String.ofList

def ofText (s : String) : Path :=
  { root := rootOf s, steps := (parts s).filter fun step => step != "" && step != "." }

def text (p : Path) : String :=
  if p.root = "" && p.steps.isEmpty then "." else p.root ++ String.intercalate "/" p.steps

/-- What follows the last point of a name. A point at either end of the name does not count. -/
def suffixOf (name : List Char) : List Char :=
  let after := (name.reverse.takeWhile (· != '.')).reverse
  if after.isEmpty || after.length + 1 ≥ name.length then [] else after

def suffix (p : Path) : String :=
  match p.steps.getLast? with
  | some name => String.ofList (suffixOf name.toList)
  | none => ""

def namesFolder (s : String) : Bool :=
  match (parts s).getLast? with
  | some last => last == "" || last == "."
  | none => false

end Path

inductive FileEntry where
  | file (octets : List UInt8)
  | folder
deriving DecidableEq, Repr

def FileEntry.isFolder : FileEntry → Bool
  | .file _ => false
  | .folder => true

inductive PathError where
  | noFolder
  | notAFolder
  | tooLong
deriving DecidableEq, Repr

/-- Where a path leads, as steps from the current folder or from the root. -/
abbrev FilePlace := List String

structure FileTree where
  entries : List (FilePlace × FileEntry) := []
deriving DecidableEq, Repr

namespace FileTree

/-- The current folder, those above it and the root are always there. -/
def isGround (place : FilePlace) : Bool := place.all (· == "..") || place == ["/"]

def at? (t : FileTree) (place : FilePlace) : Option FileEntry :=
  if isGround place then some .folder else t.entries.lookup place

def up (place : FilePlace) : FilePlace :=
  if place == ["/"] then place
  else if isGround place then place ++ [".."]
  else place.dropLast

def nameLimit : Nat := 255

def pathLimit : Nat := 4095

def step (t : FileTree) (place : FilePlace) (name : String) : Except PathError FilePlace :=
  match t.at? place with
  | none => .error .noFolder
  | some (.file _) => .error .notAFolder
  | some .folder =>
    if (Text.octets name).length > nameLimit then .error .tooLong
    else .ok (if name = ".." then up place else place ++ [name])

def follow (t : FileTree) (p : Path) : Except PathError FilePlace :=
  if (Text.octets p.text).length > pathLimit then .error .tooLong
  else p.steps.foldlM t.step (if p.root = "" then [] else ["/"])

def find (t : FileTree) (p : Path) : Except PathError (Option FileEntry) := do
  .ok (t.at? (← t.follow p))

def entry? (t : FileTree) (p : Path) : Option FileEntry :=
  match t.find p with
  | .ok e => e
  | .error _ => none

def named? (t : FileTree) (s : String) : Option FileEntry :=
  if s = "" then none
  else (t.entry? (Path.ofText s)).filter fun e => e.isFolder || !Path.namesFolder s

def put (t : FileTree) (place : FilePlace) (e : FileEntry) : FileTree :=
  { entries := (place, e) :: t.entries.filter fun other => other.1 != place }

def insert (t : FileTree) (p : Path) (e : FileEntry) : FileTree :=
  let start : FilePlace := if p.root = "" then [] else ["/"]
  let places := (List.range p.steps.length).map fun n => start ++ p.steps.take n
  let opened := fun (t : FileTree) place => if (t.at? place).isSome then t else t.put place .folder
  (places.foldl opened t).put (start ++ p.steps) e

def write (t : FileTree) (p : Path) (text : String) : Except PathError FileTree := do
  .ok (t.put (← t.follow p) (.file (Text.octets text)))

end FileTree

end DrawnSchema
