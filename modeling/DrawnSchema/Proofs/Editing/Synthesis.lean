import DrawnSchema.Proofs.Editing.Outcome
import DrawnSchema.Proofs.Graph.Synthesis
import DrawnSchema.Proofs.Schema.Generation

/-!
# Synthesizing a graph and compiling its document

A graph that is synthesized comes to the models that its document is compiled with. The way through
the graph keeps all else: the order of models and enums, the relations, and the settings.
-/

namespace DrawnSchema.Session

open DrawnSchema.Graph (ofDocument)

/-- A session on the graph of a document. -/
def opening (s : Session) (d : Document) : Session := { s with graph := ofDocument d }

theorem apply_synthesize (s : Session) :
    s.apply .synthesize =
      match s.graph.synthesizeEdges s.graph.relations with
      | .error e => { session := s, answer := .error (.compile e) }
      | .ok (g, outcomes) =>
        { session := { s with graph := g }, answer := .ok .done, outcomes } := by
  unfold apply
  simp only [Edit.editing, Editing.synthesize, Editing.synthesizeEdges, EStateM.run_bind,
    EStateM.run_get, Editing.run_ask]
  cases s.graph.synthesizeEdges s.graph.relations with
  | error e => rfl
  | ok done => rfl

section

variable {d : Document} (h : d.HasDistinctIds) (s : Session)
include h

theorem synthesize_opening_of_error {e : CompileError}
    (hrun : synthesizeFields d.relationEdges d.models = .error e) :
    ((s.opening d).apply .synthesize).answer = .error (.compile e) := by
  have hedges : (ofDocument d).synthesizeEdges (ofDocument d).relations = .error e := by
    rw [Graph.synthesizeEdges_eq_error_iff, h.ofDocument_relations, h.ofDocument_models]
    exact hrun
  rw [apply_synthesize]
  simp only [opening, hedges]

theorem synthesize_opening_of_ok {r : Synthesis}
    (hrun : synthesizeFields d.relationEdges d.models = .ok r) :
    ((s.opening d).apply .synthesize).answer = .ok .done ∧
      ((s.opening d).apply .synthesize).session.graph.toDocument = d.withModels r.models := by
  have hgraph : synthesizeFields (ofDocument d).relations (ofDocument d).models = .ok r := by
    rw [h.ofDocument_relations, h.ofDocument_models]
    exact hrun
  obtain ⟨done, hdone, -, hdocument⟩ := (Graph.ofDocument_anchored d).synthesizeEdges hgraph
  have hsynthesized : done.toDocument = d.withModels r.models :=
    calc done.toDocument
        = (ofDocument d).toDocument.withModels r.models := hdocument
      _ = d.linked.withModels r.models := by rw [h.ofDocument_toDocument]
      _ = d.withModels r.models := rfl
  rw [apply_synthesize]
  simp only [opening, hdone, true_and]
  exact hsynthesized

end

/-- Where ids are distinct, synthesizing the graph of a document fails as synthesis of its models
does, or comes to these models. All else in the document stays, and the enum edges are derived anew.
If no names are in conflict, the document and the synthesized one compile to one text, that to which
the synthesized document is rendered as it is. There is no such text if the document is to show a
number that is too long to be written. -/
theorem synthesize_opening_agrees {d : Document} (h : d.HasDistinctIds) (s : Session) :
    (∀ e, ((s.opening d).apply .synthesize).answer = .error (.compile e) ↔
        synthesizeFields d.relationEdges d.models = .error e) ∧
      ∀ r, synthesizeFields d.relationEdges d.models = .ok r →
        ((s.opening d).apply .synthesize).answer = .ok .done ∧
          ((s.opening d).apply .synthesize).session.graph.toDocument = d.withModels r.models ∧
          (d.nameConflicts = [] →
            (∃ g, d.generate = .ok g ∧ g.text = (d.withModels r.models).render) ∧
            (∃ g, (d.withModels r.models).generate = .ok g ∧
              g.text = (d.withModels r.models).render) ∧
            d.schemaText? = (d.withModels r.models).text? ∧
            (d.withModels r.models).schemaText? = (d.withModels r.models).text? ∧
            (d.schemaText?.isSome = true ↔ d.isWritable = true)) := by
  refine ⟨fun e => ⟨fun herror => ?_, synthesize_opening_of_error h s⟩, fun r hrun => ?_⟩
  · cases hrun : synthesizeFields d.relationEdges d.models with
    | error e' =>
        rw [synthesize_opening_of_error h s hrun] at herror
        cases herror
        rfl
    | ok r =>
        rw [(synthesize_opening_of_ok h s hrun).1] at herror
        cases herror
  · obtain ⟨hanswer, hdocument⟩ := synthesize_opening_of_ok h s hrun
    refine ⟨hanswer, hdocument, fun hnames => ?_⟩
    obtain ⟨hgenerate, hagain⟩ :=
      Document.generate_synthesized hrun hnames (d.withModels r.models).enumEdges
    obtain ⟨htext, htextAgain⟩ :=
      Document.schemaText?_synthesized hrun hnames (d.withModels r.models).enumEdges
    refine ⟨hgenerate, hagain, htext, htextAgain, ?_⟩
    rw [Document.schemaText?_isSome_iff]
    obtain ⟨g, hg, -⟩ := hgenerate
    exact ⟨fun hsome => hsome.2, fun hwritable => ⟨⟨g, hg⟩, hwritable⟩⟩

/-- Users with roles and posts, which have a field of their own where the author is to go. -/
def roles : Document :=
  { models := [
      { id := "u", name := "User", fields := [
        { name := "role", type := "Role", content := .enum {} }] },
      { id := "p", name := "Post", fields := [{ name := "user", type := "String" }] }]
    enums := [{ id := "r", name := "Role", values := ["READER", "WRITER"] }]
    relationEdges := [{ id := "e", source := "u", target := "p" },
      { id := "f", type := "MANY_TO_MANY", source := "p", target := "p" }] }

theorem synthesize_opening_agrees_roles :
    roles.HasDistinctIds ∧
      ∃ r : Synthesis, synthesizeFields roles.relationEdges roles.models = .ok r ∧
        (r.models.map fun m => m.fields.map (·.name)) =
          [["role", "posts"], ["user", "user_id", "posts"]] ∧
        ((({} : Session).opening roles).apply .synthesize).session.graph.toDocument =
          roles.withModels r.models ∧
        ∃ text, roles.schemaText? = some text ∧
          (roles.withModels r.models).schemaText? = some text ∧
          (roles.withModels r.models).text? = some text := by
  have hids : roles.HasDistinctIds := ⟨by decide, by decide⟩
  have hrun : synthesizeFields roles.relationEdges roles.models = .ok _ := rfl
  obtain ⟨-, hagree⟩ := synthesize_opening_agrees hids {}
  obtain ⟨-, hdocument, htexts⟩ := hagree _ hrun
  obtain ⟨-, -, htext, htextAgain, hsome⟩ := htexts (by decide)
  obtain ⟨text, hroles⟩ := Option.isSome_iff_exists.mp (hsome.mpr rfl)
  rw [hroles] at htext
  exact ⟨hids, _, hrun, rfl, hdocument, text, hroles, htextAgain.trans htext.symm, htext.symm⟩

/-- A document that shows a number of 4301 digits compiles to no text, synthesized or not. -/
theorem synthesize_opening_overlong :
    ¬ ∀ d : Document, d.HasDistinctIds → d.nameConflicts = [] →
      ((({} : Session).opening d).apply .synthesize).answer = .ok .done →
        ∃ text, d.schemaText? = some text ∧
          ((({} : Session).opening d).apply .synthesize).session.graph.toDocument.schemaText? =
            some text ∧
          ((({} : Session).opening d).apply .synthesize).session.graph.toDocument.text? =
            some text := by
  intro hall
  have hids : Document.overlongDocument.HasDistinctIds := ⟨by decide, by decide⟩
  obtain ⟨text, htext, -⟩ := hall Document.overlongDocument hids (by decide) rfl
  have hwritable : Document.overlongDocument.isWritable = true := by
    refine (Document.schemaText?_isSome_iff.mp ?_).2
    rw [htext]
    rfl
  have hoverlong : Document.overlongDocument.isWritable = false := by decide +kernel
  rw [hoverlong] at hwritable
  cases hwritable

end DrawnSchema.Session
