import DrawnSchema.Proofs.Relation.Idempotence
import DrawnSchema.Schema.Generation

/-!
# Compiling a document and compiling what synthesis makes of it

Names are the same before and after synthesis, the fields that it adds show no numbers, and a second
synthesis adds nothing. So a document compiles to the text that its synthesized document is rendered
to, and that document compiles to the same text.
-/

namespace DrawnSchema

/-! ### What synthesis leaves as it is -/

theorem Model.withMore_isWritable {m : Model} {added : List Field}
    (h : ∀ f ∈ added, f.isWritable = true) : (m.withMore added).isWritable = m.isWritable := by
  have hshown : (added.filter fun f => !f.ignore).all Field.isWritable = true :=
    List.all_eq_true.mpr fun f hf => h f (List.mem_filter.mp hf).1
  simp [isWritable, shownFields, withMore, hshown]

theorem RelationEdge.impliedFields_isWritable {e : RelationEdge} {source target : Model}
    {implied : EdgeEnd × Field} (h : implied ∈ e.impliedFields source target) :
    implied.2.isWritable = true := by
  obtain ⟨id, hlist⟩ | ⟨id, key, hsingle⟩ | ⟨key, isUnique, hkey⟩ := impliedFields_cases h
  · exact congrArg Field.isWritable hlist
  · exact congrArg Field.isWritable hsingle
  · exact congrArg Field.isWritable hkey

namespace Synthesis

variable {edges : List RelationEdge} {models : List Model} {s : Synthesis}

theorem demands_isWritable {d : Demand} (h : d ∈ demands edges models) :
    d.field.isWritable = true := by
  obtain ⟨e, -, hd⟩ := List.mem_flatMap.mp h
  obtain ⟨source, target, end_, -, -, himplied, -⟩ := demandsOf_implied hd
  exact RelationEdge.impliedFields_isWritable himplied

theorem insertInto_isWritable {f : Field} (h : f.isWritable = true) (edge : String)
    (owner : Model) : (insertInto edge owner f).isWritable = owner.isWritable := by
  obtain ⟨added, hinsert, hadded⟩ := insertInto_withMore edge owner f
  rw [hinsert]
  exact Model.withMore_isWritable fun g hg => hadded g hg ▸ h

theorem synthesizeFields_isWritable (hrun : synthesizeFields edges models = .ok s) :
    s.models.all Model.isWritable = models.all Model.isWritable := by
  obtain ⟨-, hs⟩ := synthesizeFields_eq_ok_iff.mp hrun
  have hmap : s.models.map Model.isWritable = models.map Model.isWritable := by
    rw [hs]
    refine foldl_meet_map (fun d hd owner => ?_) { models }
    exact insertInto_isWritable (demands_isWritable hd) d.edge owner
  have hall (l : List Model) : l.all Model.isWritable = (l.map Model.isWritable).all id := by
    rw [List.all_map]
    rfl
  rw [hall, hall, hmap]

end Synthesis

namespace Document

/-- What a document is rendered to as it is, if each number that it shows can be written. -/
def text? (d : Document) : Option String := if d.isWritable then some d.render else none

variable {d : Document} {s : Synthesis}

theorem nameConflicts_synthesized (hrun : synthesizeFields d.relationEdges d.models = .ok s)
    (enumEdges : List EnumEdge) :
    nameConflicts { d with models := s.models, enumEdges } = d.nameConflicts := by
  have hnames : names { d with models := s.models, enumEdges } = d.names := by
    simp only [names, Model.names_of_headings (Synthesis.synthesizeFields_grown hrun).2]
  rw [nameConflicts, hnames]
  rfl

theorem generate_text (hrun : synthesizeFields d.relationEdges d.models = .ok s)
    (hnames : d.nameConflicts = []) :
    ∃ g, d.generate = .ok g ∧ g.text = render { d with models := s.models } := by
  unfold generate
  rw [hnames, hrun]
  exact ⟨_, rfl, rfl⟩

/-- A document and its synthesized document compile to the text of the latter. The enum edges of a
document make no difference. -/
theorem generate_synthesized (hrun : synthesizeFields d.relationEdges d.models = .ok s)
    (hnames : d.nameConflicts = []) (enumEdges : List EnumEdge) :
    (∃ g, d.generate = .ok g ∧ g.text = render { d with models := s.models, enumEdges }) ∧
      ∃ g, generate { d with models := s.models, enumEdges } = .ok g ∧
        g.text = render { d with models := s.models, enumEdges } := by
  obtain ⟨s', hagain, hmodels, -⟩ := Synthesis.synthesizeFields_settled hrun
  obtain ⟨g, hg, htext⟩ := generate_text hrun hnames
  have hnames' := (nameConflicts_synthesized hrun enumEdges).trans hnames
  obtain ⟨g', hg', htext'⟩ :=
    generate_text (d := { d with models := s.models, enumEdges }) hagain hnames'
  refine ⟨⟨g, hg, htext⟩, g', hg', ?_⟩
  rw [htext', hmodels]

theorem schemaText?_synthesized (hrun : synthesizeFields d.relationEdges d.models = .ok s)
    (hnames : d.nameConflicts = []) (enumEdges : List EnumEdge) :
    d.schemaText? = text? { d with models := s.models, enumEdges } ∧
      schemaText? { d with models := s.models, enumEdges } =
        text? { d with models := s.models, enumEdges } := by
  obtain ⟨⟨g, hg, htext⟩, g', hg', htext'⟩ := generate_synthesized hrun hnames enumEdges
  have hwritable : isWritable { d with models := s.models, enumEdges } = d.isWritable :=
    Synthesis.synthesizeFields_isWritable hrun
  constructor
  · simp only [schemaText?, hg, htext, text?, hwritable]
  · simp only [schemaText?, hg', htext', text?]

end Document

end DrawnSchema
