import DrawnSchema.Document.Names
import DrawnSchema.Relation.Synthesis
import DrawnSchema.Schema.Rendering

namespace DrawnSchema

structure Generated where
  text : String
  outcomes : List Outcome
  modelCount : Nat
  enumCount : Nat
deriving DecidableEq, Repr

/-- Compiles a document: all checks come before the text. -/
def Document.generate (d : Document) : Except CompileError Generated :=
  match d.nameConflicts with
  | [] =>
    match synthesizeFields d.relationEdges d.models with
    | .error e => .error e
    | .ok s =>
      .ok { text := { d with models := s.models }.render
            outcomes := s.outcomes
            modelCount := s.models.length
            enumCount := d.enums.length }
  | names => .error (.nameConflict names)

/-- The schema text, if the document compiles and each number that it shows can be written. -/
def Document.schemaText? (d : Document) : Option String :=
  match d.generate with
  | .ok g => if d.isWritable then some g.text else none
  | .error _ => none

end DrawnSchema
