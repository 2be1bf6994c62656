import DrawnSchema.CommandLine.Invocation
import DrawnSchema.Graph.Edit
import DrawnSchema.Json.Printer
import DrawnSchema.Report.Checks
import DrawnSchema.Schema.Generation
import DrawnSchema.Snapshot.Load

namespace DrawnSchema.CommandLine

/-- What ends a run without a message of its own. -/
inductive Failure where
  | load (e : LoadError)
  | shape (e : ShapeError)
  | path (e : PathError)
  | zeroInPath
  | overlongNumber
  | notEncodable
deriving DecidableEq

structure Completion where
  exit : Nat := 0
  stdout : String := ""
  stderr : String := ""
  failure : Option Failure := none
  files : FileTree

/-- The length of the control sequence for a terminal that a text begins with, zero if there is
none. -/
def sequenceLength : List Char → Nat
  | '\x1b' :: '[' :: cs =>
    let numbers := cs.takeWhile (within 0x30 0x3f)
    let marks := (cs.drop numbers.length).takeWhile (within 0x20 0x2f)
    let length := numbers.length + marks.length
    if (cs[length]?).any (within 0x40 0x7e) then length + 3 else 0
  | _ => 0
where
  within (first last : Nat) (c : Char) : Bool := first ≤ c.toNat && c.toNat ≤ last

def withoutSequences : Nat → List Char → List Char
  | _, [] => []
  | skip + 1, _ :: cs => withoutSequences skip cs
  | 0, c :: cs =>
    match sequenceLength (c :: cs) with
    | 0 => c :: withoutSequences 0 cs
    | more + 1 => withoutSequences more cs

def printed (s : String) : String := String.ofList (withoutSequences 0 s.toList) ++ "\n"

def printedLines (ss : List String) : String := String.join (ss.map printed)

inductive LogSource where
  | synthesis
  | generation
deriving DecidableEq, Repr

def LogSource.label : LogSource → String
  | .synthesis => "schemaforge.compiler.relation_synthesizer"
  | .generation => "schemaforge.compiler.serializer"

def logLine (level : String) (source : LogSource) (message : String) : String :=
  s!"{level} {source.label}: {message}"

/-- The lines of the log about an implied field. That it was added is only told in detail. -/
def outcomeLines (verbose : Bool) : Outcome → List String
  | .added edge owner field =>
    if verbose then [logLine "DEBUG" .synthesis s!"Added {owner}.{field} for relation {edge}"]
    else []
  | o => o.warning?.toList.map (logLine "WARNING" .synthesis)

def log (lines : List String) : String := String.join (lines.map (· ++ "\n"))

def logOutcomes (verbose : Bool) (outcomes : List Outcome) : List String :=
  outcomes.flatMap (outcomeLines verbose)

def logGenerated (verbose : Bool) (g : Generated) : List String :=
  logOutcomes verbose g.outcomes ++
    if verbose then
      [logLine "DEBUG" .generation
        s!"Generating schema for {g.modelCount} model(s), {g.enumCount} enum(s)"]
    else []

def compileFailure (files : FileTree) (e : CompileError) : Completion :=
  { exit := 1, stderr := printed ("Compile error: " ++ e.message), files }

def refused (files : FileTree) (e : DocumentError) : Completion :=
  match e with
  | .load e =>
    match e.message? with
    | some message => { exit := 2, stderr := printed ("Error loading file: " ++ message), files }
    | none => { exit := 1, failure := some (.load e), files }
  | .invalid faults =>
    { exit := 2, files
      stderr := printedLines (("Schema validation error: " ++ faultSummary faults) ::
        faults.map fun f => s!"  - {f.location}: {f.complaint.message}") }
  | .shape e => { exit := 1, failure := some (.shape e), files }

def Overrides.apply (o : Overrides) (d : Document) : Document :=
  { d with
    datasource := { provider := o.provider.getD d.datasource.provider }
    generator := { d.generator with
      previewFeatures :=
        if o.previewFeatures.isEmpty then d.generator.previewFeatures else o.previewFeatures
      output := o.generatorOutput.or d.generator.output } }

/-- Writes a text to a file. The file is there even if the text cannot be encoded. -/
def save (files : FileTree) (path text stderr : String) : Completion :=
  match files.write (Path.ofText path) (if Text.isWhole text then text else "") with
  | .error e => { exit := 1, stderr, failure := some (.path e), files }
  | .ok files =>
    if Text.isWhole text then { stdout := printed ("Generated: " ++ path), stderr, files }
    else { exit := 1, stderr, failure := some .notEncodable, files }

def generate (files : FileTree) (verbose : Bool) (output : Option String) (d : Document) :
    Completion :=
  match d.generate with
  | .error e => compileFailure files e
  | .ok g =>
    let stderr := log (logGenerated verbose g)
    match d.schemaText? with
    | none => { exit := 1, stderr, failure := some .overlongNumber, files }
    | some text =>
      match setting? output with
      | none => { stdout := printed text, stderr, files }
      | some path => save files path (text ++ "\n") stderr

def validate (files : FileTree) (format : ReportFormat) (strict : Bool) (d : Document) :
    Completion :=
  let report := d.check (Graph.ofDocument d)
  let text := match format with
    | .text => report.text
    | .json => report.json
  { exit := if report.hasErrors || (strict && report.hasWarnings) then 1 else 0
    stdout := printed text, files }

def synthesize (files : FileTree) (verbose : Bool) (d : Document) : Completion :=
  let g := Graph.ofDocument d
  match g.synthesizeEdges g.relations with
  | .error e => compileFailure files e
  | .ok (g, outcomes) =>
    let stderr := log (logOutcomes verbose outcomes)
    let data := g.toDocument.toValue.brief
    if data.isWritable then { stdout := printed (Json.pretty data), stderr, files }
    else { exit := 1, stderr, failure := some .overlongNumber, files }

def Invocation.outputs (i : Invocation) : List String :=
  match i.command with
  | .generate output _ => output.toList
  | _ => []

/-- Whether the files that an invocation names can be used: the input is there, and the output is
not a folder. -/
def Invocation.fits (i : Invocation) (files : FileTree) : Bool :=
  (files.named? i.input).isSome && i.outputs.all fun s => files.named? s ≠ some .folder

/-- A completion as it can be encoded. Half of a surrogate pair is escaped in a message, but ends
the run where it is a part of what was asked for. -/
def Completion.encoded (c : Completion) : Completion :=
  let c := { c with stderr := Text.escapeHalves c.stderr }
  if Text.isWhole c.stdout then c
  else { c with exit := 1, stdout := "", failure := some .notEncodable }

def Invocation.run (i : Invocation) (files : FileTree) : Completion :=
  match Document.load files i.input with
  | .error e => (refused files e).encoded
  | .ok d =>
    match i.command with
    | .generate output overrides => (generate files i.verbose output (overrides.apply d)).encoded
    | .validate format strict => (validate files format strict d).encoded
    | .synthesize => (synthesize files i.verbose d).encoded

def pathFailure? (s : String) : Option Failure :=
  if !Text.isWhole s then some .notEncodable
  else if s.toList.contains '\x00' then some .zeroInPath
  else none

/-- Runs a command line. Nothing comes of it if it is not one that can be used. -/
def run (env : Environment) (files : FileTree) (args : List String) : Option Completion := do
  let i ← Invocation.read env args
  match (i.input :: i.outputs).findSome? pathFailure? with
  | some failure => some { exit := 1, failure := some failure, files }
  | none => if i.fits files then some (i.run files) else none

end DrawnSchema.CommandLine
