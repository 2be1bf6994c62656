import DrawnSchema.Canvas
import DrawnSchema.Json.Reader
import DrawnSchema.Snapshot.FileTree
import DrawnSchema.Yaml.Reader

namespace DrawnSchema

/-- Why a snapshot cannot be loaded. The first five are refusals with a message; the others end
the loading without one. -/
inductive LoadError where
  | notFound (path : String)
  | notAFile (path : String)
  | invalidJson (complaint : Json.Complaint) (place : Json.Place)
  | invalidYaml
  | notAMapping (type : String)
  | notUnicode
  | pathTooLong
  | json (e : Json.Error)
  | yaml (e : Yaml.Error)
deriving DecidableEq

def LoadError.message? : LoadError → Option String
  | .notFound path => some s!"File not found: {path}"
  | .notAFile path => some s!"Not a file: {path}"
  | .invalidJson complaint place =>
    (Json.Error.syntaxError complaint place).message?.map ("Invalid JSON: " ++ ·)
  | .invalidYaml => some "Invalid YAML"
  | .notAMapping type => some s!"Expected mapping at root, got {type}"
  | _ => none

inductive DocumentError where
  | load (e : LoadError)
  | invalid (faults : List Fault)
  | shape (e : ShapeError)
deriving DecidableEq

def faultSummary (faults : List Fault) : String :=
  s!"Schema validation failed with {faults.length} error(s)"

namespace Snapshot

def unifyLines : List Char → List Char
  | [] => []
  | '\r' :: '\n' :: cs => '\n' :: unifyLines cs
  | '\r' :: cs => '\n' :: unifyLines cs
  | c :: cs => c :: unifyLines cs

def textOf? (octets : List UInt8) : Option (List Char) :=
  (String.fromUTF8? ⟨octets.toArray⟩).map fun s => unifyLines s.toList

def decode (octets : List UInt8) : Except LoadError String :=
  match textOf? octets with
  | some cs => .ok (String.ofList (Text.hold cs))
  | none => .error .notUnicode

/-- The octets that are decoded at a time. -/
def chunkSize : Nat := 8192

/-- The text of octets whose last character may lack its end. -/
def textOfPart? (octets : List UInt8) : Option (List Char) :=
  (List.range 4).findSome? fun n => textOf? (octets.take (octets.length - n))

/-- The text of the chunks at the front that can be decoded, of so many. -/
def soundText (octets : List UInt8) : Nat → List Char
  | 0 => []
  | chunks + 1 =>
    (textOfPart? (octets.take ((chunks + 1) * chunkSize))).getD (soundText octets chunks)

/-- The text of a file that is read in pieces, as far as it can be decoded. -/
def sourceOf (octets : List UInt8) : Yaml.Source :=
  match textOf? octets with
  | some cs => .ofPieces cs false
  | none => .ofPieces (soundText octets (octets.length / chunkSize)) true

def readJson (text : String) : Except LoadError Value :=
  match Json.parse text with
  | .ok v => .ok v
  | .error (.syntaxError complaint place) => .error (.invalidJson complaint place)
  | .error e => .error (.json e)

def readYaml (s : Yaml.Source) : Except LoadError Value :=
  match s.parse with
  | .ok v => .ok v
  | .error .malformed => .error .invalidYaml
  | .error .notUnicode => .error .notUnicode
  | .error e => .error (.yaml e)

/-- A snapshot is a map; null counts as an empty one. -/
def asSnapshot (v : Value) : Except LoadError Entries :=
  match v.exposed with
  | .null => .ok []
  | .map m => .ok m
  | v => .error (.notAMapping v.typeName)

def isJson (p : Path) : Bool := Text.lower p.suffix == "json"

def load (files : FileTree) (path : String) : Except LoadError Entries := do
  let p := Path.ofText path
  match files.find p with
  | .error .tooLong => .error .pathTooLong
  | .error _ => .error (.notFound p.text)
  | .ok none => .error (.notFound p.text)
  | .ok (some .folder) => .error (.notAFile p.text)
  | .ok (some (.file octets)) =>
    if isJson p then asSnapshot (← readJson (← decode octets))
    else asSnapshot (← readYaml (sourceOf octets))

end Snapshot

namespace Document

def ofSnapshot (m : Entries) : Except DocumentError Document :=
  match parse (.map m) with
  | .value d => .ok d
  | .faulty faults => .error (.invalid faults)
  | .broken e => .error (.shape e)

def load (files : FileTree) (path : String) : Except DocumentError Document :=
  match Snapshot.load files path with
  | .ok m => ofSnapshot m
  | .error e => .error (.load e)

/-- Reads a text of either format: what is JSON is YAML as well. -/
def ofText (text : String) : Except DocumentError Document :=
  match Snapshot.readYaml (.ofText text) >>= Snapshot.asSnapshot with
  | .ok m => ofSnapshot m
  | .error e => .error (.load e)

end Document

end DrawnSchema
