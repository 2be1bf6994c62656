import DrawnSchema.Proofs.CommandLine.Generation

/-!
# A generated schema is there as a whole or not at all

The options have no say in how a generation ends, except that what they bring into the text may keep
it from being encoded. The report calls for the same exit code: what does not compile is what has
errors. Of a number that cannot be written and of half of a surrogate pair it says nothing.
-/

namespace DrawnSchema

/-- Whether the command line has a message for a refusal. Any other error ends the run. -/
def DocumentError.isTold : DocumentError → Bool
  | .load e => e.message?.isSome
  | .invalid _ => true
  | .shape _ => false

def Report.shown (r : Report) : CommandLine.ReportFormat → String
  | .text => r.text
  | .json => r.json

namespace CommandLine

open Text (isWhole)

variable {files : FileTree} {output : Option String} {d : Document} {i : Invocation}
  {path : String}

variable {overrides : Overrides}

namespace Invocation.IsAccepted

end Invocation.IsAccepted

theorem refused_encoded {e : DocumentError} (htold : e.isTold = true) :
    ∃ stderr, (refused files e).encoded = { exit := 2, stderr, files } := by
  cases e with
  | load e =>
      obtain ⟨message, hmessage⟩ := Option.isSome_iff_exists.mp htold
      simp only [refused, hmessage]
      exact ⟨_, encoded_of_isWhole Text.isWhole_empty⟩
  | invalid faults => exact ⟨_, encoded_of_isWhole Text.isWhole_empty⟩
  | shape e => cases htold

/-- Every command refuses a file alike. -/
theorem run_of_refused {e : DocumentError} (hload : Document.load files i.input = .error e)
    (htold : e.isTold = true) : ∃ stderr, i.run files = { exit := 2, stderr, files } := by
  unfold Invocation.run
  simp only [hload]
  exact refused_encoded htold

end CommandLine

end DrawnSchema
