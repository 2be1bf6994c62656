namespace DrawnSchema.CommandLine

/-- An option of a command: its long name, perhaps a letter, and whether a value follows. -/
structure OptionName where
  long : String
  letter : Option Char := none
  takesValue : Bool := true
deriving DecidableEq, Repr

structure Given where
  name : String
  value : String := ""
deriving DecidableEq, Repr

structure Arguments where
  options : List Given := []
  plain : List String := []
deriving DecidableEq, Repr

namespace Arguments

def value? (a : Arguments) (name : String) : Option String :=
  (a.options.reverse.find? (·.name = name)).map (·.value)

def values (a : Arguments) (name : String) : List String :=
  (a.options.filter (·.name = name)).map (·.value)

def has (a : Arguments) (name : String) : Bool := a.options.any (·.name = name)

/-- What one argument gives, and the option that waits for the next argument as its value. -/
structure Scan where
  given : List Given := []
  waiting : Option String := none

/-- Reads letters after a single dash. The first one that takes a value takes what is left. -/
def scanLetters (names : List OptionName) (given : List Given) : List Char → Option Scan
  | [] => some { given }
  | c :: cs =>
    match names.find? (·.letter = some c) with
    | none => none
    | some o =>
      if !o.takesValue then scanLetters names (given ++ [{ name := o.long }]) cs
      else if cs.isEmpty then some { given, waiting := some o.long }
      else some { given := given ++ [{ name := o.long, value := String.ofList cs }] }

def splitValue (cs : List Char) : List Char × Option (List Char) :=
  match cs.span (· != '=') with
  | (name, '=' :: value) => (name, some value)
  | (name, _) => (name, none)

def scanOption (names : List OptionName) (arg : String) : Option Scan :=
  let (name, value) := splitValue arg.toList
  match names.find? (·.long = String.ofList name) with
  | some o =>
    match value, o.takesValue with
    | some v, true => some { given := [{ name := o.long, value := String.ofList v }] }
    | some _, false => none
    | none, true => some { waiting := some o.long }
    | none, false => some { given := [{ name := o.long }] }
  | none =>
    match arg.toList with
    | '-' :: '-' :: _ => none
    | _ :: letters => scanLetters names [] letters
    | [] => none

def isOption (arg : String) : Bool :=
  match arg.toList with
  | '-' :: _ :: _ => true
  | _ => false

def give (a : Arguments) (given : List Given) : Arguments :=
  { a with options := a.options ++ given }

def keep (a : Arguments) (args : List String) : Arguments := { a with plain := a.plain ++ args }

/-- Reads arguments. After a double dash all are plain; so are all from the first plain one on,
unless options may be mixed with them. -/
def readFrom (names : List OptionName) (mixed : Bool) (a : Arguments) (waiting : Option String) :
    List String → Option Arguments
  | [] => if waiting.isSome then none else some a
  | arg :: args =>
    match waiting with
    | some name => readFrom names mixed (a.give [{ name, value := arg }]) none args
    | none =>
      if arg = "--" then some (a.keep args)
      else if isOption arg then
        match scanOption names arg with
        | none => none
        | some scan => readFrom names mixed (a.give scan.given) scan.waiting args
      else if mixed then readFrom names mixed (a.keep [arg]) none args
      else some (a.keep (arg :: args))

def read (names : List OptionName) (mixed : Bool) (args : List String) : Option Arguments :=
  readFrom names mixed {} none args

end Arguments

end DrawnSchema.CommandLine
