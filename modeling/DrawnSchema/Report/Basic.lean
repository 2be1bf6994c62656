import DrawnSchema.Json.Printer
import DrawnSchema.Value.Text

namespace DrawnSchema

inductive Severity where
  | error
  | warning
  | info
deriving DecidableEq, Repr

def Severity.name : Severity → String
  | .error => "error"
  | .warning => "warning"
  | .info => "info"

def Severity.all : List Severity := [.error, .warning, .info]

def Severity.ofName? (name : String) : Option Severity := all.find? fun s => s.name = name

def Severity.title : Severity → String
  | .error => "ERROR"
  | .warning => "WARNING"
  | .info => "INFO"

def Severity.symbol : Severity → String
  | .error => "✘"
  | .warning => "⚠"
  | .info => "ℹ"

structure Issue where
  code : String
  message : String
  severity : Severity
  model : Option String := none
  field : Option String := none
  details : List (String × Value) := []

namespace Issue

def location (i : Issue) : String :=
  match i.model with
  | none => ""
  | some model =>
    if model = "" then ""
    else
      match i.field with
      | none => model
      | some field => if field = "" then model else model ++ "." ++ field

def text (i : Issue) : String :=
  let place := if i.location = "" then "" else s!" [{i.location}]"
  s!"{i.severity.title}: {i.code}{place} - {i.message}"

def detail? (i : Issue) (key : String) : Option Value := i.details.lookup key

end Issue

structure Report where
  issues : List Issue := []
deriving Inhabited

namespace Report

def withSeverity (r : Report) (s : Severity) : List Issue :=
  r.issues.filter fun i => i.severity = s

def errors (r : Report) : List Issue := r.withSeverity .error

def warnings (r : Report) : List Issue := r.withSeverity .warning

def hasErrors (r : Report) : Bool := !r.errors.isEmpty

def hasWarnings (r : Report) : Bool := !r.warnings.isEmpty

def isValid (r : Report) : Bool := !r.hasErrors

def forModel (r : Report) (name : Option String) : List Issue :=
  r.issues.filter fun i => i.model = name

def merge (r s : Report) : Report := { issues := r.issues ++ s.issues }

def summary (r : Report) : String :=
  if r.hasErrors then
    s!"Validation failed: {r.errors.length} error(s), {r.warnings.length} warning(s)"
  else if r.hasWarnings then s!"Validation passed with {r.warnings.length} warning(s)"
  else "Validation passed"

end Report

/-- An issue in a text report. An edge is named where there is no model to point at. -/
def Issue.line (i : Issue) : String :=
  let place := if i.location = "" then "" else s!"[{i.location}] "
  let edge := match i.detail? "edge_id" with
    | some v => if v.truthy && i.location = "" then s!" (edge {v.inMessage})" else ""
    | none => ""
  s!"{i.severity.symbol} {i.code}: {place}{i.message}{edge}"

namespace Report

def part (title : String) (issues : List Issue) : List String :=
  (title ++ ":") :: if issues.isEmpty then ["  (none)"] else issues.map fun i => "  " ++ i.line

def text (r : Report) : String :=
  String.intercalate "\n" (
    part "ERRORS" r.errors ++ "" :: part "WARNINGS" r.warnings ++ ["", r.summary])

def issueValue (i : Issue) : Value :=
  .record [
    ("code", .text i.code), ("message", .text i.message), ("severity", .text i.severity.name),
    ("model", .optionText i.model), ("field", .optionText i.field),
    ("location", if i.location = "" then .null else .text i.location),
    ("details", .record i.details)]

def toValue (r : Report) : Value :=
  .record [
    ("valid", .bool r.isValid), ("summary", .text r.summary),
    ("error_count", .int r.errors.length), ("warning_count", .int r.warnings.length),
    ("issues", .list (r.issues.map issueValue))]

def json (r : Report) : String := Json.pretty r.toValue

end Report

end DrawnSchema
