import DrawnSchema.Document.Dump
import DrawnSchema.Proofs.Editing.Synthesis

/-!
# Drawing relations one by one

Each relation that is drawn brings its fields and has the enum edges derived anew. A document with
all of these relations is synthesized at once. Both ways lead to the same document: fields are added
in the order of the edges either way, and enum edges are told by the models in the end.
-/

namespace DrawnSchema

/-! ### Drawing a relation -/

namespace RelationEdge

/-- What is said of a relation besides its ends, its type and its id. -/
def extras (e : RelationEdge) : Entries := [
  (.text "name", .optionText e.name),
  (.text "on_delete", .optional ReferentialAction.toValue e.onDelete),
  (.text "on_update", .optional ReferentialAction.toValue e.onUpdate),
  (.text "is_optional", .bool e.isOptional), (.text "origin", .text e.origin.name)]

/-- The edit that draws a relation. -/
def drawing (e : RelationEdge) : Edit :=
  .addRelation (.text e.source) (.text e.target) (some (.text e.type)) (some e.id) e.extras

theorem readEntries_drawing (e : RelationEdge) :
    readEntries (Graph.edgeEntries e.id (.text e.source) (.text e.target) (some (.text e.type))
      e.extras) = .value e := by
  obtain ⟨id, type, source, target, name, onDelete, onUpdate, isOptional, origin⟩ := e
  generalize hentries : Graph.edgeEntries _ _ _ _ _ = m
  have hid : m.required Key.id readText = .value id := hentries ▸ rfl
  have htype : m.withDefault Key.type RelationType.oneToMany.name readText = .value type :=
    hentries ▸ rfl
  have hsource : m.required Key.source readText = .value source := hentries ▸ rfl
  have htarget : m.required Key.target readText = .value target := hentries ▸ rfl
  have hname : m.optional Key.name readText = .value name := by
    rw [← hentries]
    cases name <;> rfl
  have honDelete : m.optional Key.onDelete ReferentialAction.read = .value onDelete := by
    rw [← hentries]
    rcases onDelete with _ | action
    · rfl
    · cases action <;> rfl
  have honUpdate : m.optional Key.onUpdate ReferentialAction.read = .value onUpdate := by
    rw [← hentries]
    rcases onUpdate with _ | action
    · rfl
    · cases action <;> rfl
  have hisOptional : m.withDefault Key.isOptional true readTruth = .value isOptional :=
    hentries ▸ rfl
  have horigin : m.withDefault Key.origin .user Origin.read = .value origin := by
    rw [← hentries]
    cases origin <;> rfl
  unfold readEntries
  rw [hid, htype, hsource, htarget, hname, honDelete, honUpdate, hisOptional, horigin]
  rfl

end RelationEdge

/-- What is asked of a relation that is to be drawn, besides an id of its own. -/
structure Graph.Draws (g : Graph) (source target : Value) (type : Option Value) (id : String)
    (attributes : Entries) (e : RelationEdge) : Prop where
  parameters : Graph.checkAbsent attributes Graph.relationParameters = .ok ()
  settled : Graph.checkAbsent attributes Graph.settledAttributes = .ok ()
  read : RelationEdge.readEntries (Graph.edgeEntries id source target type attributes) = .value e
  joins : e.Joins g.modelIds

namespace Session

theorem apply_addRelation {s : Session} {source target : Value} {type : Option Value} {id : String}
    {attributes : Entries} {e : RelationEdge} (hgiven : id ≠ "")
    (hfresh : s.graph.relation? id = none)
    (hdraws : s.graph.Draws source target type id attributes e) {done : Graph × List Outcome}
    (hdone : (s.graph.insertRelation e).synthesizeEdges [e] = .ok done) :
    s.apply (.addRelation source target type (some id) attributes) =
      { session := { s with graph := done.1 }
        answer := .ok (.relation e), outcomes := done.2 } := by
  have hnew : s.graph.checkNewRelation (some id) = .ok () := by
    simp [Graph.checkNewRelation, hfresh]
  have hgives : givesId (some id) = true := decide_eq_true hgiven
  have hid : s.idFor "edge" (some id) = id := by
    rw [idFor, if_pos hgives]
    rfl
  have hedge : s.graph.checkEdge e = .ok () := Graph.checkEdge_eq_ok_iff.mpr hdraws.joins
  unfold apply
  simp only [Edit.editing, Editing.addRelation, Editing.synthesizeEdges, EStateM.run_bind,
    Editing.run_ask, Editing.run_idFor, Editing.run_change, hdraws.parameters, hdraws.settled,
    hnew, hgives, hid, if_true, hdraws.read, Reading.orRefuse, hedge, changing_graph, hdone,
    Except.mapError]
  rfl

/-- A relation with an id of its own that joins models is drawn. -/
theorem apply_drawing {s : Session} {e : RelationEdge} (hgiven : e.id ≠ "")
    (hfresh : s.graph.relation? e.id = none) (hjoins : e.Joins s.graph.modelIds)
    {done : Graph × List Outcome}
    (hdone : (s.graph.insertRelation e).synthesizeEdges [e] = .ok done) :
    s.apply e.drawing =
      { session := { s with graph := done.1 }
        answer := .ok (.relation e), outcomes := done.2 } :=
  apply_addRelation hgiven hfresh ⟨rfl, rfl, e.readEntries_drawing, hjoins⟩ hdone

end Session

/-! ### Steps of synthesis -/

namespace Synthesis

theorem step_headings (s : Synthesis) (e : RelationEdge) :
    (s.step e).models.map Model.heading = s.models.map Model.heading := by
  rw [step_eq_foldl_meet, foldl_meet_headings]

theorem meet_models (s : Synthesis) (d : Demand) :
    (s.meet d).models = (meet { models := s.models } d).models := by
  unfold meet
  cases s.models[d.place]? <;> rfl

theorem foldl_meet_models (ds : List Demand) (s : Synthesis) :
    (ds.foldl meet s).models = (ds.foldl meet { models := s.models }).models := by
  induction ds generalizing s with
  | nil => rfl
  | cons d ds ih =>
      rw [List.foldl_cons, List.foldl_cons, ih (s.meet d), ih (meet { models := s.models } d),
        meet_models]

/-- What became of fields so far makes no difference to the models. -/
theorem foldl_step_models (edges : List RelationEdge) (s : Synthesis) :
    (edges.foldl step s).models = (edges.foldl step { models := s.models }).models := by
  rw [foldl_step_eq_foldl_meet, foldl_step_eq_foldl_meet, foldl_meet_models]

theorem synthesizeFields_of_joins {edges : List RelationEdge} {models : List Model}
    (h : ∀ e ∈ edges, e.Joins (models.map (·.id))) :
    synthesizeFields edges models = .ok (edges.foldl step { models }) := by
  have hfault : firstEdgeFault? edges models = none :=
    firstEdgeFault?_eq_none_iff.mpr h
  rw [synthesizeFields, hfault]

theorem synthesizeFields_singleton {e : RelationEdge} {models : List Model}
    (h : e.Joins (models.map (·.id))) : synthesizeFields [e] models = .ok (step { models } e) := by
  refine synthesizeFields_of_joins fun e' he' => ?_
  obtain rfl := List.mem_singleton.mp he'
  exact h

end Synthesis

/-! ### Documents that grow by a relation -/

namespace Document

def withEdges (d : Document) (edges : List RelationEdge) : Document :=
  { d with relationEdges := edges }

/-- A document with one more relation and the fields that it implies. -/
def draw (d : Document) (e : RelationEdge) : Document :=
  (d.withEdges (d.relationEdges ++ [e])).withModels
    (Synthesis.step { models := d.models } e).models

/-- Relations that are drawn one by one bring the fields that they bring together. -/
theorem foldl_draw {d : Document} (hlinked : d.linked = d) (edges : List RelationEdge) :
    edges.foldl draw d = (d.withEdges (d.relationEdges ++ edges)).withModels
      (edges.foldl Synthesis.step { models := d.models }).models := by
  induction edges generalizing d with
  | nil =>
      rw [List.append_nil]
      exact hlinked.symm
  | cons e edges ih =>
      have hrelations : (d.draw e).relationEdges ++ edges = d.relationEdges ++ e :: edges :=
        (List.append_cons d.relationEdges e edges).symm
      have hmodels : (edges.foldl Synthesis.step { models := (d.draw e).models }).models =
          ((e :: edges).foldl Synthesis.step { models := d.models }).models :=
        (Synthesis.foldl_step_models edges _).symm
      calc (e :: edges).foldl draw d
          = edges.foldl draw (d.draw e) := rfl
        _ = ((d.draw e).withEdges ((d.draw e).relationEdges ++ edges)).withModels
              (edges.foldl Synthesis.step { models := (d.draw e).models }).models := ih rfl
        _ = (d.withEdges (d.relationEdges ++ e :: edges)).withModels
              ((e :: edges).foldl Synthesis.step { models := d.models }).models := by
            rw [hrelations, hmodels]
            rfl

end Document

namespace Graph

variable {g : Graph} {e : RelationEdge}

theorem insertRelation_toDocument (g : Graph) (e : RelationEdge) (models : List Model) :
    (g.insertRelation e).toDocument.withModels models =
      (g.toDocument.withEdges (placeOrAppend (fun r => r.id = e.id) e g.relations)).withModels
        models := by
  rw [insertRelation_eq]
  rfl

/-- A graph whose document is that of another one with a relation drawn into it. -/
structure Drew (g : Graph) (e : RelationEdge) (g' : Graph) : Prop where
  anchored : g'.Anchored
  document : g'.toDocument = g.toDocument.draw e

namespace Drew

variable {g' : Graph} (h : g.Drew e g')
include h

theorem relations : g'.relations = g.relations ++ [e] :=
  congrArg Document.relationEdges h.document

theorem models : g'.models = (Synthesis.step { models := g.models } e).models :=
  congrArg Document.models h.document

theorem modelIds : g'.modelIds = g.modelIds := by
  rw [Graph.modelIds, h.models]
  exact Model.ids_of_headings (Synthesis.step_headings _ e)

end Drew

theorem Anchored.insertRelation_synthesizeEdges (h : g.Anchored)
    (hfresh : ∀ r ∈ g.relations, r.id ≠ e.id) (hjoins : e.Joins g.modelIds) :
    ∃ done : Graph × List Outcome, (g.insertRelation e).synthesizeEdges [e] = .ok done ∧
      g.Drew e done.1 := by
  have hmodels : (g.insertRelation e).models = g.models := by
    simp only [models, insertRelation_nodes]
  have hrun : synthesizeFields [e] (g.insertRelation e).models =
      .ok (Synthesis.step { models := g.models } e) := by
    rw [hmodels]
    exact Synthesis.synthesizeFields_singleton hjoins
  obtain ⟨done, hdone, hanchored, hdocument⟩ := (h.insertRelation e).synthesizeEdges hrun
  have hrelations : placeOrAppend (fun r => r.id = e.id) e g.relations = g.relations ++ [e] :=
    placeOrAppend_of_none fun r hr => decide_eq_false (hfresh r hr)
  rw [insertRelation_toDocument, hrelations] at hdocument
  exact ⟨_, hdone, hanchored, hdocument⟩

end Graph

namespace Session

/-- What a session answers to edits that are made one after the other. -/
def answers : Session → List Edit → List (Except EditError Answer)
  | _, [] => []
  | s, e :: edits => (s.apply e).answer :: (s.apply e).session.answers edits

/-- Each of the relations is drawn, and the document grows by them one after the other. -/
theorem run_drawing {edges : List RelationEdge} {s : Session} (h : s.graph.Anchored)
    (hids : ((s.graph.relations ++ edges).map (·.id)).Nodup) (hgiven : ∀ e ∈ edges, e.id ≠ "")
    (hjoins : ∀ e ∈ edges, e.Joins s.graph.modelIds) :
    s.answers (edges.map (·.drawing)) = edges.map (fun e => .ok (.relation e)) ∧
      (s.run (edges.map (·.drawing))).graph.toDocument =
        edges.foldl Document.draw s.graph.toDocument := by
  induction edges generalizing s with
  | nil => exact ⟨rfl, rfl⟩
  | cons e edges ih =>
      have hfresh : ∀ r ∈ s.graph.relations, r.id ≠ e.id := by
        rw [List.map_append, List.nodup_append] at hids
        exact fun r hr => hids.2.2 _ (List.mem_map_of_mem hr) _ (by simp)
      have hunknown : s.graph.relation? e.id = none := by
        simpa [Graph.relation?] using hfresh
      obtain ⟨done, hdone, hdrew⟩ :=
        h.insertRelation_synthesizeEdges hfresh (hjoins e List.mem_cons_self)
      have hstep := apply_drawing (hgiven e List.mem_cons_self) hunknown
        (hjoins e List.mem_cons_self) hdone
      obtain ⟨hanswers, hrun⟩ := ih (s := { s with graph := done.1 }) hdrew.anchored
        (by rwa [hdrew.relations, ← List.append_cons])
        (fun e' he' => hgiven e' (List.mem_cons_of_mem e he'))
        (fun e' he' => hdrew.modelIds ▸ hjoins e' (List.mem_cons_of_mem e he'))
      constructor
      · rw [List.map_cons, answers, hstep, hanswers, List.map_cons]
      · rw [List.map_cons, run, List.foldl_cons, hstep, List.foldl_cons, ← hdrew.document]
        exact hrun

/-- Relations with distinct ids that join models: drawn one by one, each of them is accepted, and
they lead to the document that synthesis makes of all of them at once. If no names are in conflict,
both compile, and to the same text. -/
theorem run_drawing_agrees {d : Document} {edges : List RelationEdge} (s : Session)
    (hnone : d.relationEdges = []) (hids : (d.withEdges edges).HasDistinctIds)
    (hgiven : ∀ e ∈ edges, e.id ≠ "") (hjoins : ∀ e ∈ edges, e.Joins (d.models.map (·.id))) :
    (s.opening d).answers (edges.map (·.drawing)) = edges.map (fun e => .ok (.relation e)) ∧
      ((s.opening (d.withEdges edges)).apply .synthesize).answer = .ok .done ∧
      ((s.opening d).run (edges.map (·.drawing))).graph.toDocument =
        ((s.opening (d.withEdges edges)).apply .synthesize).session.graph.toDocument ∧
      (d.nameConflicts = [] →
        (∃ g g', ((s.opening d).run (edges.map (·.drawing))).graph.toDocument.generate = .ok g ∧
          (d.withEdges edges).generate = .ok g' ∧ g.text = g'.text) ∧
        ((s.opening d).run (edges.map (·.drawing))).graph.toDocument.schemaText? =
          (d.withEdges edges).schemaText?) := by
  have hbare : d.HasDistinctIds := ⟨hids.nodes, by simp [hnone]⟩
  have hsynthesis : synthesizeFields (d.withEdges edges).relationEdges (d.withEdges edges).models =
      .ok (edges.foldl Synthesis.step { models := d.models }) :=
    Synthesis.synthesizeFields_of_joins hjoins
  obtain ⟨hanswer, hbatch⟩ := synthesize_opening_of_ok hids s hsynthesis
  have hrelations : (s.opening d).graph.relations = [] := by
    rw [opening, hbare.ofDocument_relations, hnone]
  have hmodelIds : (s.opening d).graph.modelIds = d.models.map (·.id) := by
    rw [opening, Graph.modelIds, hbare.ofDocument_models]
  obtain ⟨hanswers, hdrawn⟩ := run_drawing (s := s.opening d) (Graph.ofDocument_anchored d)
    (by rw [hrelations]; exact hids.relations) hgiven (hmodelIds.symm ▸ hjoins)
  have hstart : (s.opening d).graph.toDocument = d.linked := hbare.ofDocument_toDocument
  have hnoEdges : d.linked.relationEdges = [] := hnone
  have hsame :=
    calc ((s.opening d).run (edges.map (·.drawing))).graph.toDocument
        = edges.foldl Document.draw d.linked := by rw [hdrawn, hstart]
      _ = (d.linked.withEdges (d.linked.relationEdges ++ edges)).withModels
            (edges.foldl Synthesis.step { models := d.models }).models :=
          Document.foldl_draw rfl edges
      _ = (d.withEdges edges).withModels
            (edges.foldl Synthesis.step { models := d.models }).models := by
          rw [hnoEdges]
          rfl
  refine ⟨hanswers, hanswer, hsame.trans hbatch.symm, fun hnames => ?_⟩
  rw [hsame]
  obtain ⟨⟨g', hg', htext'⟩, g, hg, htext⟩ := Document.generate_synthesized hsynthesis hnames
    ((d.withEdges edges).withModels _).enumEdges
  obtain ⟨hschema', hschema⟩ := Document.schemaText?_synthesized hsynthesis hnames
    ((d.withEdges edges).withModels _).enumEdges
  exact ⟨⟨g, g', hg, hg', htext.trans htext'.symm⟩, hschema.trans hschema'.symm⟩

theorem run_drawing_agrees_roles :
    (roles.withEdges []).relationEdges = [] ∧
      (({} : Session).opening (roles.withEdges [])).answers (roles.relationEdges.map (·.drawing)) =
        roles.relationEdges.map (fun e => .ok (.relation e)) ∧
      ((({} : Session).opening (roles.withEdges [])).run
          (roles.relationEdges.map (·.drawing))).graph.toDocument =
        ((({} : Session).opening roles).apply .synthesize).session.graph.toDocument ∧
      ((({} : Session).opening (roles.withEdges [])).run
          (roles.relationEdges.map (·.drawing))).graph.toDocument.schemaText? =
        roles.schemaText? := by
  have hids : roles.HasDistinctIds := ⟨by decide, by decide⟩
  have hgiven : ∀ e ∈ roles.relationEdges, e.id ≠ "" := by decide
  have hjoins : ∀ e ∈ roles.relationEdges, e.Joins (roles.models.map (·.id)) := by decide
  obtain ⟨hanswers, -, hsame, htexts⟩ := run_drawing_agrees (d := roles.withEdges [])
    {} rfl hids hgiven hjoins
  exact ⟨rfl, hanswers, hsame, (htexts (by decide)).2⟩

/-- A relation with an empty id is drawn with an id from the supply. -/
theorem run_drawing_with_empty_id :
    ¬ ∀ (d : Document) (edges : List RelationEdge), d.relationEdges = [] →
      (d.withEdges edges).HasDistinctIds → (∀ e ∈ edges, e.Joins (d.models.map (·.id))) →
        ((({} : Session).opening d).run (edges.map (·.drawing))).graph.toDocument =
          ((({} : Session).opening (d.withEdges edges)).apply
            .synthesize).session.graph.toDocument := by
  intro hall
  have hsame := hall { models := [{ id := "u", name := "User" }, { id := "p", name := "Post" }] }
    [{ id := "", source := "u", target := "p" }] rfl ⟨by decide, by decide⟩ (by decide)
  have hids := congrArg (fun d : Document => d.relationEdges.map (·.id)) hsame
  have hdiffer : (["edge-000000000001"] : List String) ≠ [""] := by decide
  exact hdiffer hids

end Session

end DrawnSchema
