import DrawnSchema.Proofs.CommandLine.Printing
import DrawnSchema.Proofs.Report.Prediction
import DrawnSchema.Proofs.Snapshot.FileTree

/-!
# How the generation of a document ends

There are four ways: the document does not compile, it shows a number that is too long to be
written, its text has half of a surrogate pair in it and cannot be encoded, or the text goes to
where it is to go. Only the last one gives the exit code 0.
-/

namespace DrawnSchema

namespace FileTree

variable {t t' : FileTree} {output : Option String} {text path : String}

/-- Whether one tree becomes the other when a text is given to where an output is to go. -/
def Receives (t : FileTree) (output : Option String) (text : String) (t' : FileTree) : Prop :=
  match output with
  | none => t' = t
  | some path => t.write (Path.ofText path) text = .ok t'

theorem Receives.entry (h : t.Receives output text t') (hpath : path ∈ output)
    (hfolder : t.entry? (Path.ofText path) ≠ some .folder) :
    t'.entry? (Path.ofText path) = some (.ofText text) := by
  obtain rfl := Option.mem_def.mp hpath
  obtain ⟨place, hfollow, rfl⟩ := write_eq_ok h
  exact entry?_put hfolder hfollow

end FileTree

namespace Document

open CommandLine (Overrides)

variable {d : Document} {overrides : Overrides}

end Document

namespace CommandLine

open Text (isWhole)

/-- The ways in which the generation of a document can end. -/
inductive GenerationEnds (files : FileTree) (output : Option String) (d : Document) :
    Completion → Prop
  | failed {error : CompileError} {stderr : String} (h : d.generate = .error error) :
      GenerationEnds files output d { exit := 1, stderr, files }
  | overlong {g : Generated} {stderr : String} (h : d.generate = .ok g)
      (hwritable : d.isWritable = false) :
      GenerationEnds files output d
        { exit := 1, stderr, failure := some .overlongNumber, files }
  | halved {g : Generated} {stderr : String} {after : FileTree} (h : d.generate = .ok g)
      (hwritable : d.isWritable = true) (hwhole : isWhole g.text = false)
      (hfiles : files.Receives (setting? output) "" after) :
      GenerationEnds files output d
        { exit := 1, stderr, failure := some .notEncodable, files := after }
  | done {g : Generated} {stdout stderr : String} {after : FileTree} (h : d.generate = .ok g)
      (hwritable : d.isWritable = true) (hwhole : isWhole g.text = true)
      (hstdout : setting? output = none → stdout = printed g.text)
      (hfiles : files.Receives (setting? output) (g.text ++ "\n") after) :
      GenerationEnds files output d { stdout, stderr, files := after }

section Completion

variable {exit : Nat} {stdout stderr : String} {failure : Option Failure} {files : FileTree}

theorem encoded_of_isWhole (h : isWhole stdout = true) :
    Completion.encoded { exit, stdout, stderr, failure, files } =
      { exit, stdout, stderr := Text.escapeHalves stderr, failure, files } := by
  simp [Completion.encoded, h]

end Completion

variable {files : FileTree} {output : Option String} {d : Document} {g : Generated}
  {path text stderr : String} {place : FilePlace} {verbose : Bool}

namespace GenerationEnds

variable {c : Completion}

/-- What is written is what is printed where there is no output. -/
theorem written {p : Completion} (h : GenerationEnds files output d c)
    (hprints : GenerationEnds files none d p) (hexit : c.exit = 0)
    (hcompiles : d.generate = .ok g) (hplain : IsPlain g.text) :
    p.stdout = g.text ++ "\n" ∧
      ∀ path ∈ setting? output, files.entry? (Path.ofText path) ≠ some .folder →
        c.files.entry? (Path.ofText path) = some (.ofText p.stdout) := by
  cases h with
  | failed | overlong | halved => cases hexit
  | done h hwritable hwhole hstdout hfiles =>
      obtain rfl := Except.ok.inj (hcompiles.symm.trans h)
      have hprinted : p.stdout = g.text ++ "\n" := by
        cases hprints with
        | failed h' => cases h'.symm.trans h
        | overlong _ hoverlong => cases hoverlong.symm.trans hwritable
        | halved h' _ hhalved =>
            obtain rfl := Except.ok.inj (h.symm.trans h')
            cases hhalved.symm.trans hwhole
        | done h' _ _ hstdout' =>
            obtain rfl := Except.ok.inj (h.symm.trans h')
            exact (hstdout' rfl).trans hplain.printed
      refine ⟨hprinted, fun path hpath hfolder => ?_⟩
      rw [hprinted]
      exact hfiles.entry hpath hfolder

end GenerationEnds

end CommandLine

end DrawnSchema
