import DrawnSchema.Proofs.Document.RoundTrip
import DrawnSchema.Proofs.Editing.Alike
import DrawnSchema.Proofs.Editing.EnumOrder
import DrawnSchema.Proofs.Editing.Invariant

/-!
# Saving and reopening a session

The document of a graph does not tell how the graph came to be: in which order models and enums were
added between each other, or which relations were drawn, removed and drawn again. The graph of that
document is a twin of the one that was saved, so nothing that is done later tells them apart. This is
so unless an edit gives the name of a field in octets: such a name passes for a new one even if it
is taken, and a document with two fields of one name is not read back.
-/

namespace DrawnSchema

namespace Graph

variable {g g' : Graph}

theorem Sound.isTidy (h : g.Sound) : g.toDocument.IsTidy :=
  ⟨fun _ hm => h.tidy _ (mem_models.mp hm), fun _ he => h.tidy _ (mem_enums.mp he)⟩

theorem Twin.toDocument_eq (h : g.Twin g') (hg : g.InOrder) (hg' : g'.InOrder) :
    g'.toDocument = g.toDocument := by
  rw [← hg.toDocument_linked, ← hg'.toDocument_linked, h.linked_eq]

namespace InOrder

variable (h : g.InOrder)
include h

theorem hasDistinctIds : g.toDocument.HasDistinctIds :=
  ⟨h.anchored.nodup, h.linked.keyed.relations⟩

/-- The graph of its document is a twin of a graph. -/
theorem twin_ofDocument : g.Twin (ofDocument g.toDocument) := by
  refine ⟨h.anchored.ids, (ofDocument_anchored _).ids, h.hasDistinctIds.ofDocument_models,
    h.hasDistinctIds.ofDocument_enums, h.hasDistinctIds.ofDocument_relations, ?_, ?_⟩
  all_goals rw [ofDocument_eq]; rfl

theorem ofDocument_inOrder : (ofDocument g.toDocument).InOrder := by
  have htwin := h.twin_ofDocument
  refine ⟨ofDocument_anchored _, ?_, fun r hr => ?_, ?_⟩
  · rw [ofDocument_eq_relinkEnums]
    exact (drawn_keyed _).relinkEnums_linked.1
  · rw [htwin.relations] at hr
    rw [Resolves, htwin.modelIds_eq]
    exact h.resolves r hr
  · exact congrArg Document.enumEdges (ofDocument_linked g.toDocument).symm

end InOrder

end Graph

namespace Session

/-- What is seen of a session under some edits: for each of them the answer, what became of implied
fields, and the document that is then shown. -/
def course : Session → List Edit → List (Except EditError Answer × List Outcome × Document)
  | _, [] => []
  | s, e :: edits =>
    ((s.apply e).answer, (s.apply e).outcomes, (s.apply e).session.graph.toDocument) ::
      (s.apply e).session.course edits

theorem apply_inOrder {s : Session} {e : Edit} (h : s.graph.InOrder) (hfresh : e.IsFresh s) :
    (s.apply e).session.graph.InOrder := by
  obtain hsame | hled := s.apply_cases e
  · rw [hsame]
    exact h
  · exact hled.inOrder hfresh h

namespace Twin

variable {s t : Session}

theorem isFresh {e : Edit} (h : s.Twin t) (hfresh : e.IsFresh s) : e.IsFresh t := by
  cases e with
  | addModel name id =>
      intro hgiven
      rw [h.nextId_eq, h.graph.hasNode_eq]
      exact hfresh hgiven
  | addEnum name values id =>
      intro hgiven
      rw [h.nextId_eq, h.graph.hasNode_eq]
      exact hfresh hgiven
  | _ => exact trivial

/-- Nothing that is seen of sessions on twins tells them apart. -/
theorem course_eq {edits : List Edit} (h : s.Twin t) (hs : s.graph.InOrder) (ht : t.graph.InOrder)
    (hfresh : s.IsFreshAlong edits) : t.course edits = s.course edits := by
  induction edits generalizing s t with
  | nil => rfl
  | cons e edits ih =>
      obtain ⟨hanswer, houtcomes, htwin⟩ := h.apply hfresh.1
      have hs' := apply_inOrder hs hfresh.1
      have ht' := apply_inOrder ht (h.isFresh hfresh.1)
      rw [course, course, hanswer, houtcomes, htwin.graph.toDocument_eq hs' ht',
        ih htwin hs' ht' hfresh.2]

end Twin

theorem run_inOrder {s : Session} {edits : List Edit} (h : s.graph.InOrder)
    (hfresh : s.IsFreshAlong edits) : (s.run edits).graph.InOrder :=
  run_keeps Graph.InOrder _ (fun _ _ _ h hfresh hled => hled.inOrder hfresh h) h
    (isFreshAlong_iff.mp hfresh)

theorem run_inOrder_of_empty {s : Session} {edits : List Edit}
    (hempty : ∃ generator datasource, s.graph = { generator, datasource })
    (hfresh : s.IsFreshAlong edits) : (s.run edits).graph.InOrder := by
  obtain ⟨generator, datasource, hgraph⟩ := hempty
  refine run_inOrder ?_ hfresh
  rw [hgraph]
  exact .empty generator datasource

/-- Whatever was done to an empty graph, with success or not: its document is read back from both of
its dumps, the graph of that document shows it again, and to whatever is done next, both graphs give
the same answers and show the same documents. -/
theorem run_reopening_agrees {s : Session} {edits : List Edit}
    (hempty : ∃ generator datasource, s.graph = { generator, datasource })
    (htyped : ∀ e ∈ edits, e.IsTyped) (hfresh : s.IsFreshAlong edits) :
    Document.parse (s.run edits).graph.toDocument.toValue =
        .value (s.run edits).graph.toDocument ∧
      Document.parse (s.run edits).graph.toDocument.toValue.brief =
        .value (s.run edits).graph.toDocument ∧
      ((s.run edits).opening (s.run edits).graph.toDocument).graph.toDocument =
        (s.run edits).graph.toDocument ∧
      ∀ more, (s.run edits).IsFreshAlong more →
        ((s.run edits).opening (s.run edits).graph.toDocument).course more =
          (s.run edits).course more := by
  obtain ⟨generator, datasource, hgraph⟩ := hempty
  have hstart : s.graph.InOrder := by
    rw [hgraph]
    refine ⟨⟨List.nodup_nil, by simp⟩, ⟨⟨List.nodup_nil, List.nodup_nil, List.nodup_nil⟩, by simp⟩,
      by simp, rfl⟩
  have hsound : s.graph.Sound := by
    rw [hgraph]
    exact ⟨List.nodup_nil, List.nodup_nil, by simp, by simp⟩
  have htidy := (run_sound hsound htyped hfresh).isTidy
  have horder := run_inOrder hstart hfresh
  have htwin : (s.run edits).Twin ((s.run edits).opening (s.run edits).graph.toDocument) :=
    ⟨horder.twin_ofDocument, rfl, rfl⟩
  refine ⟨Document.parse_written .full htidy, Document.parse_written .brief htidy, ?_, ?_⟩
  · exact htwin.graph.toDocument_eq horder horder.ofDocument_inOrder
  · exact fun more hmore => htwin.course_eq horder horder.ofDocument_inOrder hmore

/-- A blog that is saved and opened again refuses a name that is taken, draws another relation, and
has its entries deleted with both relations. -/
theorem run_reopening_agrees_blog :
    (∀ e ∈ blog, e.IsTyped) ∧ ({} : Session).IsFreshAlong blog ∧
      Document.parse (({} : Session).run blog).graph.toDocument.toValue.brief =
        .value (({} : Session).run blog).graph.toDocument ∧
      ((({} : Session).run blog).opening (({} : Session).run blog).graph.toDocument).course
          [.addModel (some "Entry") none,
            .addRelation (.text "p") (.text "p") none none [], .delete "p"] =
        (({} : Session).run blog).course
          [.addModel (some "Entry") none,
            .addRelation (.text "p") (.text "p") none none [], .delete "p"] ∧
      ((({} : Session).run blog).course
          [.addModel (some "Entry") none,
            .addRelation (.text "p") (.text "p") none none [], .delete "p"]).map (·.1) =
        [.error (.compile (.nameConflict ["Entry"])),
          .ok (.relation { id := "edge-000000000005", source := "p", target := "p" }),
          .ok .done] := by
  have htyped : ∀ e ∈ blog, e.IsTyped := by
    simp [blog, Edit.IsTyped, Entries.NamesInText]
  have hfresh : ({} : Session).IsFreshAlong blog :=
    ⟨fun _ => rfl, fun _ => rfl, fun _ => rfl, trivial, trivial, trivial, trivial, trivial⟩
  have hmore : (({} : Session).run blog).IsFreshAlong [.addModel (some "Entry") none,
      .addRelation (.text "p") (.text "p") none none [], .delete "p"] :=
    ⟨fun _ => rfl, trivial, trivial, trivial⟩
  obtain ⟨-, hbrief, -, hcourse⟩ := run_reopening_agrees ⟨{}, {}, rfl⟩ htyped hfresh
  exact ⟨htyped, hfresh, hbrief, hcourse _ hmore, rfl⟩

/-- Users, and a field that is named in octets as the key of theirs is. -/
def namesakes : List Edit := [
  .addModel (some "User") (some "u"),
  .addField "u" [(.text "name", .scalar (.bytes [0x69, 0x64])), (.text "type", .text "String")]]

/-- The edit that names a field in octets is accepted, and neither dump is read back. -/
theorem run_reopening_namesakes :
    (¬∀ (s : Session) (edits : List Edit),
      (∃ generator datasource, s.graph = { generator, datasource }) → s.IsFreshAlong edits →
        Document.parse (s.run edits).graph.toDocument.toValue =
          .value (s.run edits).graph.toDocument) ∧
    ¬∀ (s : Session) (edits : List Edit),
      (∃ generator datasource, s.graph = { generator, datasource }) → s.IsFreshAlong edits →
        Document.parse (s.run edits).graph.toDocument.toValue.brief =
          .value (s.run edits).graph.toDocument := by
  have hfresh : ({} : Session).IsFreshAlong namesakes := ⟨nofun, trivial, trivial⟩
  have hrefused (v : Value)
      (hv : v = (({} : Session).run namesakes).graph.toDocument.toValue ∨
        v = (({} : Session).run namesakes).graph.toDocument.toValue.brief) :
      (Document.parse v).value? = none := by
    obtain rfl | rfl := hv <;> decide +kernel
  refine ⟨fun hall => ?_, fun hall => ?_⟩
  · have hread := hall {} namesakes ⟨{}, {}, rfl⟩ hfresh
    have hnone := hrefused _ (.inl rfl)
    rw [hread] at hnone
    cases hnone
  · have hread := hall {} namesakes ⟨{}, {}, rfl⟩ hfresh
    have hnone := hrefused _ (.inr rfl)
    rw [hread] at hnone
    cases hnone

end Session

end DrawnSchema
