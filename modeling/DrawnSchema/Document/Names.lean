import DrawnSchema.Document.Basic

namespace DrawnSchema

inductive NodeKind where
  | model
  | enum
deriving DecidableEq, Repr

def NodeKind.name : NodeKind → String
  | .model => "model"
  | .enum => "enum"

structure NamedNode where
  kind : NodeKind
  id : String
  name : String
deriving DecidableEq, Repr

namespace Document

def namedNodes (d : Document) : List NamedNode :=
  d.models.map (fun m => ⟨.model, m.id, m.name⟩) ++ d.enums.map (fun e => ⟨.enum, e.id, e.name⟩)

/-- Whether a name is free for a model or an enum, one node left out of account. -/
def nameFree (d : Document) (name : String) (exclude : Option String) : Bool :=
  d.namedNodes.all fun n => some n.id = exclude || n.name ≠ name

/-- The first free name among a base with the numbers from `counter` on. One of the first
`tries` is free when there are fewer names than that. -/
def freeSuffix (taken : List String) (base : String) : Nat → Nat → String
  | 0, counter => base ++ toString counter
  | tries + 1, counter =>
    let name := base ++ toString counter
    if name ∈ taken then freeSuffix taken base tries (counter + 1) else name

/-- The base, or the base with the first number that makes it free. -/
def uniqueName (d : Document) (base : String) : String :=
  if base ∈ d.names then freeSuffix d.names base d.names.length 1 else base

def repeatedNames (seen conflicts : List String) : List String → List String
  | [] => conflicts
  | name :: rest =>
    repeatedNames (name :: seen)
      (if name ∈ seen && name ∉ conflicts then conflicts ++ [name] else conflicts) rest

def nameConflicts (d : Document) : List String := repeatedNames [] [] d.names

end Document

end DrawnSchema
