import DrawnSchema.Proofs.Relation.Relabeling
import DrawnSchema.Schema.Generation

/-!
# A schema does not show ids

Blocks are written from names and fields, and the fields that relations add are the same under other
ids. So ids that are changed, no two of them into one, change nothing in the text. An error that
gives the ids of missing models gives them as they are now.
-/

namespace DrawnSchema

def Enumeration.relabel (r : String → String) (e : Enumeration) : Enumeration :=
  { e with id := r e.id }

namespace Document

/-- The document with other ids of models and enums. Its relations join what they joined. -/
def relabel (r : String → String) (d : Document) : Document :=
  { d with
    models := d.models.map (Model.relabel r)
    enums := d.enums.map (Enumeration.relabel r)
    relationEdges := d.relationEdges.map (RelationEdge.relabel r) }

variable {r : String → String}

theorem nameConflicts_relabel (r : String → String) (d : Document) :
    (d.relabel r).nameConflicts = d.nameConflicts := by
  have hnames : (d.relabel r).names = d.names := by
    simp only [names, relabel, List.map_map]
    rfl
  rw [nameConflicts, nameConflicts, hnames]

theorem render_relabel (r : String → String) (d : Document) : (d.relabel r).render = d.render := by
  have hmodels : (d.models.map (Model.relabel r)).map Model.block = d.models.map Model.block := by
    rw [List.map_map]
    rfl
  have henums : (d.enums.map (Enumeration.relabel r)).map Enumeration.block =
      d.enums.map Enumeration.block := by
    rw [List.map_map]
    rfl
  unfold render
  simp only [blocks, relabel, hmodels, henums]

theorem isWritable_relabel (r : String → String) (d : Document) :
    (d.relabel r).isWritable = d.isWritable := by
  simp only [isWritable, relabel, List.all_map]
  rfl

/-- Under other ids a document compiles to the same text, with the same outcomes, or it fails with
the same error. Only the ids of missing models in that error are the other ones. -/
theorem generate_relabel (hr : Function.Injective r) (d : Document) :
    (d.relabel r).generate = d.generate.mapError (CompileError.relabel r) ∧
      (d.relabel r).isWritable = d.isWritable ∧
      (d.relabel r).schemaText? = d.schemaText? := by
  have hgenerate : (d.relabel r).generate = d.generate.mapError (CompileError.relabel r) := by
    have hrun : synthesizeFields (d.relabel r).relationEdges (d.relabel r).models =
        ((synthesizeFields d.relationEdges d.models).map (Synthesis.relabel r)).mapError
          (CompileError.relabel r) :=
      Synthesis.synthesizeFields_relabel hr d.relationEdges d.models
    unfold generate
    rw [nameConflicts_relabel, hrun]
    cases d.nameConflicts with
    | cons name names => rfl
    | nil =>
        cases synthesizeFields d.relationEdges d.models with
        | error error => rfl
        | ok s =>
            have htext := render_relabel r { d with models := s.models }
            simp only [Except.map, Except.mapError, Except.ok.injEq, Generated.mk.injEq]
            refine ⟨htext, rfl, ?_, ?_⟩
            · simp [Synthesis.relabel]
            · simp [relabel]
  refine ⟨hgenerate, isWritable_relabel r d, ?_⟩
  unfold schemaText?
  rw [hgenerate, isWritable_relabel]
  cases d.generate <;> rfl

/-- Two models go by one id. Posts are related to the later one. -/
def shared : Document :=
  { models := [{ id := "u", name := "Guest" }, { id := "p", name := "Post" },
      { id := "u", name := "User" }]
    enums := [{ id := "p", name := "Role", values := ["READER"] }]
    relationEdges := [{ id := "e", source := "u", target := "p" }] }

/-- A relation between two models that are both not there. -/
def adrift : Document :=
  { models := [{ id := "u", name := "User" }]
    relationEdges := [{ id := "e", source := "p", target := "q" }] }

theorem generate_relabel_shared :
    Function.Injective ("n-" ++ ·) ∧
      (shared.relabel ("n-" ++ ·)).schemaText? = shared.schemaText? ∧
      shared.schemaText?.isSome = true ∧
      (adrift.relabel ("n-" ++ ·)).generate = .error (.missingEndpoint "e" ["n-p", "n-q"]) := by
  have hr : Function.Injective ("n-" ++ ·) := fun _ _ h => (String.append_right_inj "n-").mp h
  refine ⟨hr, (generate_relabel hr shared).2.2, by decide, ?_⟩
  rw [(generate_relabel hr adrift).1]
  rfl

end Document

end DrawnSchema
