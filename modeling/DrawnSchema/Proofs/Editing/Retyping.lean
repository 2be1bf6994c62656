import DrawnSchema.Proofs.Editing.Drawing
import DrawnSchema.Proofs.Editing.EnumOrder

/-!
# Changing the type of a relation

The fields that a relation brings show the relation in their ids, so they can be told from all
others, and dropping them leaves the models as they were before it was drawn. Which ones its old
type had brought, and which of them had found their names taken, makes no difference to those of the
new type.
-/

namespace DrawnSchema

/-! ### Dropping what a relation brought -/

namespace Model

/-- A model without the fields that were derived from an edge. -/
def withoutDerived (edge : String) (m : Model) : Model :=
  { m with fields := m.fields.filter fun f =>
      !(f.origin = .derived && f.id.any (RelationEdge.derivedIds edge).contains) }

/-- No field of a model has an id that is derived from an edge. -/
def IsClearOf (edge : String) (m : Model) : Prop :=
  ∀ f ∈ m.fields, ∀ id ∈ RelationEdge.derivedIds edge, f.id ≠ some id

instance (edge : String) (m : Model) : Decidable (m.IsClearOf edge) :=
  inferInstanceAs (Decidable (∀ f ∈ m.fields, ∀ id ∈ RelationEdge.derivedIds edge, f.id ≠ some id))

theorem IsClearOf.withoutDerived_eq {edge : String} {m : Model} (h : m.IsClearOf edge) :
    m.withoutDerived edge = m := by
  have hkept : ∀ f ∈ m.fields,
      (!(f.origin = .derived && f.id.any (RelationEdge.derivedIds edge).contains)) = true := by
    intro f hf
    cases hid : f.id with
    | none => simp
    | some id =>
        have hother : id ∉ RelationEdge.derivedIds edge := fun hmem => h f hf id hmem hid
        simp [hother]
  rw [withoutDerived, List.filter_eq_self.mpr hkept]

end Model

namespace Synthesis

theorem insertInto_withoutDerived {edge : String} {f : Field} (horigin : f.origin = .derived)
    (hid : ∃ id ∈ RelationEdge.derivedIds edge, f.id = some id) (label : String) (owner : Model) :
    (insertInto label owner f).withoutDerived edge = owner.withoutDerived edge := by
  obtain ⟨id, hmem, hid⟩ := hid
  rw [insertInto_eq]
  split
  · rfl
  · simp [Model.withoutDerived, Model.withMore, List.filter_append, horigin, hid, hmem]

/-- Models that an edge has brought fields to are as before without the fields derived from it. -/
theorem step_withoutDerived (s : Synthesis) (e : RelationEdge) :
    (s.step e).models.map (Model.withoutDerived e.id) =
      s.models.map (Model.withoutDerived e.id) := by
  rw [step_eq_foldl_meet]
  refine foldl_meet_map (fun d hd owner => ?_) s
  obtain ⟨horigin, hid⟩ := demandsOf_derived hd
  exact insertInto_withoutDerived horigin hid d.edge owner

theorem step_models_restored {models : List Model} {e : RelationEdge}
    (hclear : ∀ m ∈ models, m.IsClearOf e.id) :
    (step { models } e).models.map (Model.withoutDerived e.id) = models :=
  calc (step { models } e).models.map (Model.withoutDerived e.id)
      = models.map (Model.withoutDerived e.id) := step_withoutDerived _ e
    _ = models.map id := List.map_congr_left fun m hm => (hclear m hm).withoutDerived_eq
    _ = models := List.map_id models

end Synthesis

/-- The types that a relation can have. -/
def RelationType.isSupported (type : String) : Bool := (RelationType.ofName? type).isSome

theorem RelationEdge.Joins.retype {e : RelationEdge} {type : String} {modelIds : List String}
    (h : e.Joins modelIds) (htype : RelationType.isSupported type = true) :
    { e with type }.Joins modelIds :=
  ⟨htype, h.2⟩

namespace Graph

variable {g g' : Graph} {e : RelationEdge}

/-- A relation that can be drawn can be drawn with any type. -/
theorem Draws.retype {source target : Value} {type type' id : String} {attributes : Entries}
    (h : g.Draws source target (some (.text type)) id attributes e)
    (htype : RelationType.isSupported type' = true) :
    g.Draws source target (some (.text type')) id attributes { e with type := type' } :=
  ⟨h.parameters, h.settled, RelationEdge.readEntries_retype type' h.read, h.joins.retype htype⟩

namespace Drew

variable (h : g.Drew e g')
include h

theorem relation? (hunused : g.relation? e.id = none) : g'.relation? e.id = some e := by
  have hnone : g.relations.find? (fun r => r.id = e.id) = none := hunused
  rw [Graph.relation?, h.relations, List.find?_append, hnone]
  simp

theorem models_restored (hclear : ∀ m ∈ g.models, m.IsClearOf e.id) (type : String) :
    ((g'.insertRelation { e with type }).dropDerived e.id).models = g.models :=
  calc ((g'.insertRelation { e with type }).dropDerived e.id).models
      = (g'.insertRelation { e with type }).models.map (Model.withoutDerived e.id) :=
        mapModels_models _ _
    _ = g'.models.map (Model.withoutDerived e.id) := by
        simp only [Graph.models, insertRelation_nodes]
    _ = (Synthesis.step { models := g.models } e).models.map (Model.withoutDerived e.id) := by
        rw [h.models]
    _ = g.models := Synthesis.step_models_restored hclear

theorem relations_replaced (hunused : g.relation? e.id = none) (type : String) :
    placeOrAppend (fun r => r.id = e.id) { e with type } g'.relations =
      g.relations ++ [{ e with type }] := by
  have hothers : ∀ r ∈ g.relations, decide (r.id = e.id) = false := fun r hr =>
    decide_eq_false (relation?_eq_none_iff.mp hunused r hr)
  rw [h.relations, placeOrAppend_append hothers]
  simp [placeOrAppend]

/-- With another type, a relation is as if it had been drawn with that type. -/
theorem retype (hunused : g.relation? e.id = none) (hclear : ∀ m ∈ g.models, m.IsClearOf e.id)
    {type : String} (hjoins : { e with type }.Joins g.modelIds) :
    ∃ done : Graph × List Outcome,
      ((g'.insertRelation { e with type }).dropDerived e.id).synthesizeEdges [{ e with type }] =
        .ok done ∧ g.Drew { e with type } done.1 := by
  have hrun : synthesizeFields [{ e with type }]
      ((g'.insertRelation { e with type }).dropDerived e.id).models =
        .ok (Synthesis.step { models := g.models } { e with type }) := by
    rw [h.models_restored hclear]
    exact Synthesis.synthesizeFields_singleton hjoins
  have hdropped : ((g'.insertRelation { e with type }).dropDerived e.id).Anchored :=
    (h.anchored.insertRelation _).mapModels fun _ => rfl
  obtain ⟨done, hdone, hanchored, hdocument⟩ := hdropped.synthesizeEdges hrun
  refine ⟨_, hdone, hanchored, ?_⟩
  calc done.toDocument
      = ((g'.insertRelation { e with type }).dropDerived e.id).toDocument.withModels
          (Synthesis.step { models := g.models } { e with type }).models := hdocument
    _ = (g'.insertRelation { e with type }).toDocument.withModels
          (Synthesis.step { models := g.models } { e with type }).models :=
        mapModels_toDocument _ _ _
    _ = (g'.toDocument.withEdges (g.relations ++ [{ e with type }])).withModels
          (Synthesis.step { models := g.models } { e with type }).models := by
        rw [insertRelation_toDocument, h.relations_replaced hunused]
    _ = g.toDocument.draw { e with type } := by
        rw [h.document]
        rfl

end Drew

end Graph

/-! ### The two edits -/

namespace Editing

variable {s : Session} {id : String}

theorem addRelation_ends (hgiven : id ≠ "") (source target : Value) (type : Option Value)
    (attributes : Entries) : Ends (addRelation source target type (some id) attributes) s
      (fun _ _ => ∃ e, s.graph.Draws source target type id attributes e) fun _ => True := by
  have hid : s.idFor "edge" (some id) = id := if_pos (decide_eq_true hgiven)
  unfold addRelation
  refine .ask_bind trivial fun _ hparameters => .ask_bind trivial fun _ _ => ?_
  refine .idFor_bind fun t ht => .ask_bind trivial fun _ hsettled => ?_
  refine .ask_bind trivial fun e hread => .ask_bind trivial fun _ hedge => .change_bind ?_
  rw [hid] at hread
  rw [ht] at hedge
  refine synthesizeEdges_ends.bind fun _ _ _ => .pure ⟨e, hparameters, hsettled, ?_, ?_⟩
  · exact Reading.orRefuse_eq_ok_iff.mp hread
  · exact Graph.checkEdge_eq_ok_iff.mp hedge

theorem setType_ends (type : String) : Ends (setType id type) s
    (fun _ _ => (∃ e, s.graph.relation? id = some e) ∧ RelationType.isSupported type = true)
    fun _ => True := by
  unfold setType
  refine .ask_bind trivial fun e hfound => .ask_bind trivial fun _ hedge => ?_
  refine .change_bind <| .change_bind <| synthesizeEdges_ends.bind fun _ _ _ => .pure ?_
  exact ⟨⟨e, EditError.orNotFound_eq_ok_iff.mp hfound⟩, (Graph.checkEdge_eq_ok_iff.mp hedge).1⟩

end Editing

namespace Session

variable {s : Session} {e : RelationEdge} {id type : String} {source target : Value}
  {attributes : Entries}

theorem apply_setType (hfound : s.graph.relation? e.id = some e)
    (hjoins : { e with type }.Joins s.graph.modelIds) {done : Graph × List Outcome}
    (hdone : ((s.graph.insertRelation { e with type }).dropDerived e.id).synthesizeEdges
      [{ e with type }] = .ok done) :
    s.apply (.setType e.id type) =
      { session := { s with graph := done.1 }
        answer := .ok (.relation { e with type }), outcomes := done.2 } := by
  have hrelation : s.graph.relationOrFail e.id = .ok e :=
    EditError.orNotFound_eq_ok_iff.mpr hfound
  have hedge : s.graph.checkEdge { e with type } = .ok () :=
    Graph.checkEdge_eq_ok_iff.mpr hjoins
  unfold apply
  simp only [Edit.editing, Editing.setType, Editing.synthesizeEdges, EStateM.run_bind,
    Editing.run_ask, Editing.run_change, hrelation, hedge, changing_graph, hdone, Except.mapError]
  rfl

/-- Only a relation that is there is given another type, and only one that relations can have. -/
theorem apply_setType_unchanged
    (h : s.graph.relation? id = none ∨ RelationType.isSupported type = false) :
    (s.apply (.setType id type)).session.graph = s.graph := by
  obtain hgraph | ⟨-, ⟨e, hfound⟩, htype⟩ :=
    unchanged_or_of_ends (e := .setType id type) (Editing.setType_ends type)
  · exact hgraph
  · obtain hnone | hunsupported := h
    · rw [hnone] at hfound
      cases hfound
    · rw [hunsupported] at htype
      cases htype

theorem apply_addRelation_unchanged (hgiven : id ≠ "")
    (h : ∀ e, ¬ s.graph.Draws source target (some (.text type)) id attributes e) :
    (s.apply (.addRelation source target (some (.text type)) (some id) attributes)).session.graph =
      s.graph := by
  obtain hgraph | ⟨-, e, hdraws⟩ := unchanged_or_of_ends
    (e := .addRelation source target (some (.text type)) (some id) attributes)
    (Editing.addRelation_ends hgiven source target _ attributes)
  · exact hgraph
  · exact absurd hdraws (h e)

theorem apply_addRelation_drew (h : s.graph.Anchored) (hgiven : id ≠ "")
    (hunused : s.graph.relation? id = none)
    (hdraws : s.graph.Draws source target (some (.text type)) id attributes e) :
    s.graph.Drew e (s.apply
      (.addRelation source target (some (.text type)) (some id) attributes)).session.graph := by
  have hfresh : ∀ r ∈ s.graph.relations, r.id ≠ e.id := by
    rw [RelationEdge.id_of_readEntries hdraws.read]
    exact Graph.relation?_eq_none_iff.mp hunused
  obtain ⟨done, hdone, hdrew⟩ := h.insertRelation_synthesizeEdges hfresh hdraws.joins
  rw [apply_addRelation hgiven hunused hdraws hdone]
  exact hdrew

/-- A relation that is given one type after the other is as if it had been drawn with the last one
that relations can have. -/
theorem run_setType_drew {g : Graph} (h : g.Drew e s.graph) (hunused : g.relation? e.id = none)
    (hclear : ∀ m ∈ g.models, m.IsClearOf e.id) (hjoins : e.Joins g.modelIds)
    (types : List String) :
    g.Drew { e with type := (types.filter RelationType.isSupported).getLastD e.type }
      (s.run (types.map (.setType e.id))).graph := by
  induction types generalizing s e with
  | nil => exact h
  | cons type types ih =>
      rw [List.map_cons, run, List.foldl_cons]
      -- The graph that the relation was drawn into stays the same; what moves on is its type.
      cases htype : RelationType.isSupported type with
      | true =>
          have hretyped : { e with type }.Joins g.modelIds := hjoins.retype htype
          obtain ⟨done, hdone, hdrew⟩ := h.retype hunused hclear hretyped
          rw [apply_setType (h.relation? hunused) (h.modelIds ▸ hretyped) hdone,
            List.filter_cons_of_pos htype, List.getLastD_cons]
          exact ih (s := { s with graph := done.1 }) hdrew hunused hclear hretyped
      | false =>
          rw [List.filter_cons_of_neg (by simp [htype])]
          refine ih ?_ hunused hclear hjoins
          rw [apply_setType_unchanged (.inr htype)]
          exact h

theorem run_setType_unchanged (hunused : s.graph.relation? id = none) (types : List String) :
    (s.run (types.map (.setType id))).graph = s.graph := by
  induction types generalizing s with
  | nil => rfl
  | cons type types ih =>
      have hsame : (s.apply (.setType id type)).session.graph = s.graph :=
        apply_setType_unchanged (.inl hunused)
      rw [← hsame] at hunused ⊢
      exact ih hunused

theorem isSupported_getLastD {type : String} (h : RelationType.isSupported type = true)
    (types : List String) :
    RelationType.isSupported ((types.filter RelationType.isSupported).getLastD type) = true := by
  obtain hfirst | hlast := List.mem_cons.mp
    (List.getLastD_mem_cons : (types.filter RelationType.isSupported).getLastD type ∈ _)
  · rwa [hfirst]
  · exact (List.mem_filter.mp hlast).2

/-- A relation that was drawn, whether it was accepted or not, and then given types one after the
other, some of which may have been refused: the document is the one that comes of drawing it with
the last type that relations can have. -/
theorem run_retyping_agrees {edits : List Edit} (hbegins : s.Begins)
    (hfresh : s.IsFreshAlong edits) (htype : RelationType.isSupported type = true)
    (hgiven : id ≠ "") (hunused : (s.run edits).graph.relation? id = none)
    (hclear : ∀ m ∈ (s.run edits).graph.models, m.IsClearOf id) (types : List String) :
    ((s.run edits).run (.addRelation source target (some (.text type)) (some id) attributes ::
        types.map (.setType id))).graph.toDocument =
      ((s.run edits).apply (.addRelation source target
        (some (.text ((types.filter RelationType.isSupported).getLastD type))) (some id)
        attributes)).session.graph.toDocument := by
  have hanchored : (s.run edits).graph.Anchored := by
    obtain ⟨d, hgraph⟩ := hbegins.eq_ofDocument
    exact run_keeps Graph.Anchored _ (fun _ _ _ h hfresh hled => hled.anchored hfresh h)
      (hgraph ▸ Graph.ofDocument_anchored d) (isFreshAlong_iff.mp hfresh)
  generalize s.run edits = s at hunused hclear hanchored ⊢
  rw [run, List.foldl_cons]
  by_cases hdraws : ∃ e, s.graph.Draws source target (some (.text type)) id attributes e
  · obtain ⟨e, hdraws⟩ := hdraws
    have hlast := isSupported_getLastD htype types
    have hdrew := apply_addRelation_drew hanchored hgiven hunused hdraws
    have hdirect := apply_addRelation_drew hanchored hgiven hunused (hdraws.retype hlast)
    obtain rfl := RelationEdge.id_of_readEntries hdraws.read
    obtain rfl := RelationEdge.type_of_readEntries hdraws.read
    have hretyped := run_setType_drew hdrew hunused hclear hdraws.joins types
    exact hretyped.document.trans hdirect.document.symm
  · -- Attributes that are refused with one type are refused with any, and no relation is there to
    -- be given another type.
    generalize (types.filter RelationType.isSupported).getLastD type = last
    have hlast : ∀ e, ¬ s.graph.Draws source target (some (.text last)) id attributes e :=
      fun e h => hdraws ⟨_, h.retype htype⟩
    have hrefused := apply_addRelation_unchanged hgiven (not_exists.mp hdraws)
    have hunchanged := run_setType_unchanged (hrefused ▸ hunused) types
    rw [apply_addRelation_unchanged hgiven hlast]
    exact congrArg Graph.toDocument (hunchanged.trans hrefused)

/-- Pages with a field of their own where the linked pages are to go. -/
def pages : List Edit :=
  [.addModel (some "Page") (some "p"),
    .addField "p" [(.text "name", .text "pages"), (.text "type", .text "Int")]]

/-- A page that is linked to itself: what each type before the last brought is gone, and the field
that was in its way has stayed. -/
theorem run_retyping_agrees_pages :
    ((({} : Session).run pages).run
        (.addRelation (.text "p") (.text "p") (some (.text "ONE_TO_MANY")) (some "e") [] ::
          ["MANY_TO_MANY", "ONE_TO_ONE", "MANY"].map (.setType "e"))).graph.toDocument =
        ((({} : Session).run pages).apply (.addRelation (.text "p") (.text "p")
          (some (.text "ONE_TO_ONE")) (some "e") [])).session.graph.toDocument ∧
      ((({} : Session).run pages).run
          (.addRelation (.text "p") (.text "p") (some (.text "ONE_TO_MANY")) (some "e") [] ::
            ["MANY_TO_MANY", "ONE_TO_ONE", "MANY"].map (.setType "e"))).graph.models.map
          (fun m => m.fields.map (·.name)) =
        [["id", "pages", "page", "page_id"]] := by
  have hbegins : ({} : Session).Begins := .inl ⟨{}, {}, rfl⟩
  have hfresh : ({} : Session).IsFreshAlong pages := ⟨fun _ => rfl, trivial, trivial⟩
  have hclear : ∀ m ∈ (({} : Session).run pages).graph.models, m.IsClearOf "e" := by decide
  exact ⟨run_retyping_agrees hbegins hfresh rfl (by decide) rfl hclear _, rfl⟩

/-- A relation with an empty id is drawn with an id from the supply, and is not found under its
own. -/
theorem run_retyping_with_empty_id :
    ¬ ∀ (s : Session) (edits : List Edit) (source target type id : String)
      (attributes : Entries) (types : List String), s.Begins → s.IsFreshAlong edits →
        source ∈ (s.run edits).graph.modelIds → target ∈ (s.run edits).graph.modelIds →
        RelationType.isSupported type = true → (s.run edits).graph.relation? id = none →
        (∀ m ∈ (s.run edits).graph.models, m.IsClearOf id) →
          ((s.run edits).run (.addRelation (.text source) (.text target) (some (.text type))
              (some id) attributes :: types.map (.setType id))).graph.toDocument =
            ((s.run edits).apply (.addRelation (.text source) (.text target)
              (some (.text ((types.filter RelationType.isSupported).getLastD type))) (some id)
              attributes)).session.graph.toDocument := by
  intro hall
  have hsame := hall
    (({} : Session).opening
      { models := [{ id := "u", name := "User" }, { id := "p", name := "Post" }] })
    [] "u" "p" "ONE_TO_MANY" "" [] ["ONE_TO_ONE"] (.inr ⟨_, rfl⟩) trivial (by decide) (by decide)
    rfl rfl (by decide)
  have htypes := congrArg (fun d : Document => d.relationEdges.map (·.type)) hsame
  have hdiffer : (["ONE_TO_MANY"] : List String) ≠ ["ONE_TO_ONE"] := by decide
  exact hdiffer htypes

end Session

end DrawnSchema
