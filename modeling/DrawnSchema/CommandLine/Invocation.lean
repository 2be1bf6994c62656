import DrawnSchema.CommandLine.Arguments
import DrawnSchema.Document.Basic
import DrawnSchema.Text.Case

namespace DrawnSchema.CommandLine

/-- Settings from outside the command line. An empty one counts as not set. -/
structure Environment where
  provider : Option String := none
  generatorOutput : Option String := none

structure Overrides where
  provider : Option Provider := none
  previewFeatures : List String := []
  generatorOutput : Option String := none
deriving DecidableEq, Repr

inductive ReportFormat where
  | text
  | json
deriving DecidableEq, Repr

inductive Command where
  | generate (output : Option String) (overrides : Overrides)
  | validate (format : ReportFormat) (strict : Bool)
  | synthesize
deriving DecidableEq, Repr

structure Invocation where
  verbose : Bool
  command : Command
  input : String
deriving DecidableEq, Repr

def providerOfName? (name : String) : Option Provider :=
  Provider.all.find? fun p => Text.folded p.name = Text.folded name

def setting? : Option String → Option String
  | some "" => none
  | s => s

def generalOptions : List OptionName :=
  [{ long := "--verbose", letter := some 'v', takesValue := false }]

def generateOptions : List OptionName := [
  { long := "--output", letter := some 'o' }, { long := "--provider" },
  { long := "--preview-feature" }, { long := "--generator-output" }]

def validateOptions : List OptionName := [
  { long := "--format" }, { long := "--strict", takesValue := false }]

/-- An empty text given on the command line overrides nothing, but hides the outside setting. -/
def readOverrides (env : Environment) (a : Arguments) : Option Overrides := do
  let name := (a.value? "--provider").or (setting? env.provider)
  let provider ← match name with
    | some s => (providerOfName? s).map some
    | none => some none
  let output := (a.value? "--generator-output").or (setting? env.generatorOutput)
  some {
    provider, previewFeatures := a.values "--preview-feature", generatorOutput := setting? output }

def readFormat (a : Arguments) : Option ReportFormat :=
  match a.value? "--format" with
  | none => some .text
  | some "text" => some .text
  | some "json" => some .json
  | some _ => none

def onlyPlain (a : Arguments) : Option String :=
  match a.plain with
  | [input] => some input
  | _ => none

def readCommand (env : Environment) (name : String) (args : List String) :
    Option (Command × String) :=
  match name with
  | "generate" => do
    let a ← Arguments.read generateOptions true args
    let overrides ← readOverrides env a
    some (.generate (a.value? "--output") overrides, ← onlyPlain a)
  | "validate" => do
    let a ← Arguments.read validateOptions true args
    let format ← readFormat a
    some (.validate format (a.has "--strict"), ← onlyPlain a)
  | "synthesize" => do
    let a ← Arguments.read [] true args
    some (.synthesize, ← onlyPlain a)
  | _ => none

def Invocation.read (env : Environment) (args : List String) : Option Invocation := do
  let general ← Arguments.read generalOptions false args
  match general.plain with
  | name :: args =>
    let (command, input) ← readCommand env name args
    some { verbose := general.has "--verbose", command, input }
  | [] => none

end DrawnSchema.CommandLine
