import DrawnSchema.Proofs.Document.Reading
import DrawnSchema.Proofs.Editing.Atomicity
import DrawnSchema.Proofs.Graph.Sound

/-!
# Editing keeps a graph sound

An edit that is accepted has put its questions first, and what they were answered is what the
changes after them need: that a name or an id is free, that values are distinct, that an edge joins
models. An edit that is refused has changed nothing. So every graph that edits lead to from the
empty one is sound.
-/

namespace DrawnSchema

/-- The names among raw attributes are not octets. Those would be read as a text only after the name
was looked up. -/
def Entries.NamesInText (data : Entries) : Prop :=
  ∀ octets, (.text "name", .scalar (.bytes octets)) ∉ data

theorem Entries.NamesInText.insertNew_id {data : Entries} (h : data.NamesInText) (id : String) :
    (data.insertNew "id" (.text id)).NamesInText := by
  intro octets hmem
  unfold Entries.insertNew at hmem
  by_cases hhas : data.has "id" = true
  · rw [if_pos hhas] at hmem
    exact h octets hmem
  · rw [if_neg hhas] at hmem
    obtain hmem | hmem := List.mem_append.mp hmem
    · exact h octets hmem
    · simp at hmem

namespace Edit

/-- The names of fields are given as texts. -/
def IsTyped : Edit → Prop
  | .addField _ data => data.NamesInText
  | .updateField _ _ changes => changes.NamesInText
  | _ => True

/-- The id that a session would generate for a new node is not in use. -/
def IsFresh (s : Session) : Edit → Prop
  | .addModel _ id => Session.givesId id = false → s.graph.hasNode (s.nextId "model") = false
  | .addEnum _ _ id => Session.givesId id = false → s.graph.hasNode (s.nextId "enum") = false
  | _ => True

end Edit

/-- Along some edits, every id that is generated for a node is not in use. -/
def Session.IsFreshAlong : Session → List Edit → Prop
  | _, [] => True
  | s, e :: edits => e.IsFresh s ∧ (s.apply e).session.IsFreshAlong edits

/-! ### What the questions tell -/

namespace Graph

variable {g : Graph}

theorem name_free_of_newName {base name : String} {given : Option String}
    (h : g.newName base given = .ok name) : name ∉ g.nodes.map Node.name := by
  rw [← mem_names]
  cases given with
  | none =>
      obtain rfl := Except.ok.inj h
      exact Document.uniqueName_not_mem _ base
  | some given =>
      obtain ⟨_, hcheck, hname⟩ := bind_eq_ok_iff.mp h
      obtain rfl := Except.ok.inj hname
      exact Document.nameFree_none_iff.mp (EditError.refuseUnless_eq_ok_iff.mp hcheck)

theorem mem_namedNodes {n : Node} (h : n ∈ g.nodes) :
    ⟨n.kind, n.id, n.name⟩ ∈ g.namesDocument.namedNodes := by
  cases n with
  | model m =>
      exact List.mem_append_left _ (List.mem_map.mpr ⟨m, mem_models.mpr h, rfl⟩)
  | enum e =>
      have he : e ∈ g.enums := List.mem_filterMap.mpr ⟨_, h, rfl⟩
      exact List.mem_append_right _ (List.mem_map.mpr ⟨e, he, rfl⟩)

theorem name_free_of_checkName {name id : String} (h : g.checkName name (some id) = .ok ()) :
    ∀ n ∈ g.nodes, n.name = name → n.id = id := by
  intro n hn hname
  have hfree := Document.nameFree_iff.mp (EditError.refuseUnless_eq_ok_iff.mp h)
  exact Option.some.inj (hfree _ (mem_namedNodes hn) hname)

theorem nodup_of_checkValues {enum : String} {values : List String}
    (h : checkValues enum values = .ok ()) : values.Nodup := by
  have hnone : firstRepeated [] values = none := by simpa [checkValues] using h
  exact (Document.firstRepeated_eq_none_iff.mp hnone).1

theorem Sound.hasDistinctFields {id : String} {m : Model} (h : g.Sound)
    (hm : g.modelOrFail id = .ok m) : m.HasDistinctFields := by
  have hnode := node?_of_model? (EditError.orNotFound_eq_ok_iff.mp hm)
  exact h.tidy _ (mem_nodes_of_node? hnode).1

theorem get?_name_of_buildField {data : Entries} {f : Field} (h : g.buildField data = .ok f)
    (htext : ∀ octets, data.get? "name" ≠ some (.scalar (.bytes octets))) :
    data.get? "name" = some (.text f.name) := by
  obtain ⟨v, hv, hread⟩ := buildField_name h
  obtain rfl | ⟨octets, rfl⟩ := eq_text_of_readText hread
  · exact hv
  · exact absurd hv (htext octets)

theorem not_mem_of_checkFieldName {m : Model} {name : String}
    (h : checkFieldName m (.text name) = .ok ()) : name ∉ m.fields.map (·.name) := by
  intro hmem
  obtain ⟨f, hf, hname⟩ := List.mem_map.mp hmem
  have htaken : m.hasField name = true := Model.hasField_iff.mpr ⟨f, hf, hname⟩
  simp [checkFieldName, htaken] at h

theorem getElem?_of_fieldOrFail {m : Model} {key : String} {old : Nat × Field}
    (h : fieldOrFail m key = .ok old) : m.fields[old.1]? = some old.2 := by
  obtain ⟨n, -, hfound⟩ := Option.bind_eq_some_iff.mp (EditError.orNotFound_eq_ok_iff.mp h)
  obtain ⟨f, hfield, hold⟩ := Option.bind_eq_some_iff.mp hfound
  obtain rfl := Option.some.inj hold
  exact hfield

theorem get?_overlay {data changes : Entries} {key : String} {v : Value}
    (h : (overlay data changes).get? key = some v) :
    data.get? key = some v ∨ (.text key, v) ∈ changes := by
  induction changes generalizing data with
  | nil => exact Or.inl h
  | cons e changes ih =>
      obtain hfirst | hrest := ih h
      · rw [Entries.get?_insertScalar] at hfirst
        by_cases he : e.1 = .text key
        · rw [if_pos he] at hfirst
          obtain rfl := Option.some.inj hfirst
          rw [← he]
          exact Or.inr List.mem_cons_self
        · rw [if_neg he] at hfirst
          exact Or.inl hfirst
      · exact Or.inr (List.mem_cons_of_mem e hrest)

theorem get?_entriesOfField_name (f : Field) :
    (entriesOfField f).get? "name" = some (.text f.name) := by
  simp [entriesOfField, Field.attributes, Field.sharedAttributes, Entries.get?_cons]

theorem hasDistinctFields_of_addField {m : Model} {data : Entries} {f : Field} {name : Value}
    (hm : m.HasDistinctFields) (htext : data.NamesInText) (hname : nameOrFail data = .ok name)
    (hcheck : checkFieldName m name = .ok ()) (hbuild : g.buildField data = .ok f) :
    ((m.fields ++ [f]).map (·.name)).Nodup := by
  have hf : data.get? "name" = some (.text f.name) :=
    get?_name_of_buildField hbuild fun octets h => htext octets (Entries.mem_of_get? h)
  unfold nameOrFail at hname
  rw [hf] at hname
  obtain rfl := Except.ok.inj hname
  rw [List.map_append]
  exact List.nodup_append_comm.mp (List.nodup_cons.mpr ⟨not_mem_of_checkFieldName hcheck, hm⟩)

/-- A field that is updated keeps its name or takes one that is free. -/
theorem hasDistinctFields_of_updateField {m : Model} {changes : Entries} {key : String}
    {old : Nat × Field} {f : Field} (hm : m.HasDistinctFields) (htext : changes.NamesInText)
    (hold : fieldOrFail m key = .ok old)
    (hcheck : checkChangedName m old.2 (overlay (entriesOfField old.2) changes) = .ok ())
    (hbuild : g.buildField (overlay (entriesOfField old.2) changes) = .ok f) :
    ((m.fields.set old.1 f).map (·.name)).Nodup := by
  have hf : (overlay (entriesOfField old.2) changes).get? "name" = some (.text f.name) := by
    refine get?_name_of_buildField hbuild fun octets h => ?_
    obtain hkept | hchanged := get?_overlay h
    · rw [get?_entriesOfField_name] at hkept
      cases hkept
    · exact htext octets hchanged
  have hnames : (m.fields.map (·.name))[old.1]? = some old.2.name := by
    rw [List.getElem?_map, getElem?_of_fieldOrFail hold, Option.map_some]
  rw [List.map_set]
  by_cases hsame : f.name = old.2.name
  · obtain ⟨hplace, hget⟩ := List.getElem?_eq_some_iff.mp hnames
    rw [hsame, ← hget, List.set_getElem_self]
    exact hm
  · unfold checkChangedName at hcheck
    rw [hf] at hcheck
    simp only [hsame, if_false] at hcheck
    exact List.Nodup.set hm (not_mem_of_checkFieldName hcheck)

end Graph

namespace Editing

def EndsSound {α : Type} (p : Editing α) (s : Session) : Prop :=
  Ends p s (fun _ t => t.graph.Sound) (fun _ => True)

/-- An id for a new node is not in use: one that is given was checked, and one that is generated is
fresh. -/
theorem hasNode_idFor {label : String} {given : Option String} {s : Session}
    (hcheck : s.graph.checkNewId given = .ok ())
    (hfresh : Session.givesId given = false → s.graph.hasNode (s.nextId label) = false) :
    s.graph.hasNode (s.idFor label given) = false := by
  unfold Session.idFor
  by_cases hgiven : Session.givesId given = true
  · rw [if_pos hgiven]
    cases given with
    | none => cases hgiven
    | some id => simpa [Graph.checkNewId] using hcheck
  · rw [if_neg hgiven]
    exact hfresh (by simpa using hgiven)

/-! ### Each edit in turn -/

section Edits

variable {s : Session}

theorem addModel_endsSound {name id : Option String} (h : s.graph.Sound)
    (hfresh : (Edit.addModel name id).IsFresh s) : EndsSound (addModel name id) s := by
  unfold addModel
  refine .ask_bind trivial fun _ hnew => ?_
  refine .ask_bind trivial fun name hname => ?_
  refine .idFor_bind fun t ht => ?_
  apply Ends.nextId_bind
  refine .change_bind <| .change_bind <| .pure ?_
  simp only [Session.changing_graph, Session.taking_graph, ht]
  apply Graph.Sound.relinkEnums
  apply Graph.Sound.attachRelations
  refine h.insertNode (hasNode_idFor hnew hfresh) (Graph.name_free_of_newName hname) ?_
  exact List.nodup_singleton _

theorem addEnum_endsSound {name : Option String} {values : Option (List String)}
    {id : Option String} (h : s.graph.Sound) (hfresh : (Edit.addEnum name values id).IsFresh s) :
    EndsSound (addEnum name values id) s := by
  unfold addEnum
  refine .ask_bind trivial fun _ hnew => ?_
  refine .ask_bind trivial fun name hname => ?_
  refine .ask_bind trivial fun _ hvalues => ?_
  refine .idFor_bind fun t ht => ?_
  refine .change_bind <| .change_bind <| .pure ?_
  simp only [Session.changing_graph, ht]
  apply Graph.Sound.relinkEnums
  refine h.insertNode (hasNode_idFor hnew hfresh) (Graph.name_free_of_newName hname) ?_
  exact Graph.nodup_of_checkValues hvalues

theorem rename_endsSound {id name : String} (h : s.graph.Sound) :
    EndsSound (rename id name) s := by
  unfold rename
  refine .ask_bind trivial fun n _ => ?_
  refine .ask_bind trivial fun _ hname => ?_
  refine .change_bind <| .change_bind <| .change_bind <| .pure ?_
  have hrenamed : (s.graph.renameNode id name).Sound :=
    h.renameNode (Graph.name_free_of_checkName hname)
  exact (hrenamed.retypeFields n.name name).relinkEnums

theorem delete_endsSound {id : String} (h : s.graph.Sound) : EndsSound (delete id) s := by
  unfold delete
  refine .ask_bind trivial fun _ _ => ?_
  refine .change_bind <| .change_bind <| .change_bind <| .pure ?_
  exact (h.removeNode id).relinkEnums

theorem addField_endsSound {model : String} {data : Entries} (h : s.graph.Sound)
    (htext : data.NamesInText) : EndsSound (addField model data) s := by
  unfold addField
  refine .ask_bind trivial fun m hm => ?_
  apply Ends.nextId_bind
  refine .ask_bind trivial fun name hname => ?_
  refine .ask_bind trivial fun _ hcheck => ?_
  refine .ask_bind trivial fun f hbuild => ?_
  refine .change_bind <| .change_bind <| .pure ?_
  have hdistinct : ((m.fields ++ [f]).map (·.name)).Nodup :=
    Graph.hasDistinctFields_of_addField (h.hasDistinctFields hm) (htext.insertNew_id _) hname
      hcheck hbuild
  exact (h.setFields model hdistinct).relinkEnums

theorem updateField_endsSound {model field : String} {changes : Entries} (h : s.graph.Sound)
    (htext : changes.NamesInText) : EndsSound (updateField model field changes) s := by
  unfold updateField
  refine .ask_bind trivial fun _ _ => ?_
  refine .ask_bind trivial fun _ _ => ?_
  refine .ask_bind trivial fun m hm => ?_
  refine .ask_bind trivial fun old hold => ?_
  refine .ask_bind trivial fun _ hcheck => ?_
  refine .ask_bind trivial fun f hbuild => ?_
  refine .change_bind <| .change_bind <| .pure ?_
  have hdistinct : ((m.fields.set old.1 f).map (·.name)).Nodup :=
    Graph.hasDistinctFields_of_updateField (h.hasDistinctFields hm) htext hold hcheck hbuild
  exact (h.setFields model hdistinct).relinkEnums

theorem removeField_endsSound {model field : String} (h : s.graph.Sound) :
    EndsSound (removeField model field) s := by
  unfold removeField
  refine .ask_bind trivial fun m hm => ?_
  refine .ask_bind trivial fun old _ => ?_
  refine .change_bind <| .change_bind <| .pure ?_
  have hdistinct : ((m.fields.eraseIdx old.1).map (·.name)).Nodup :=
    (h.hasDistinctFields hm).sublist ((List.eraseIdx_sublist _ _).map _)
  exact (h.setFields model hdistinct).relinkEnums

theorem setValues_endsSound {id : String} {values : List String} (h : s.graph.Sound) :
    EndsSound (setValues id values) s := by
  unfold setValues
  refine .ask_bind trivial fun e he => ?_
  refine .ask_bind trivial fun _ hvalues => ?_
  refine .change_bind <| .pure ?_
  exact h.setValues (EditError.orNotFound_eq_ok_iff.mp he) (Graph.nodup_of_checkValues hvalues)

theorem synthesizeEdges_endsSound {edges : List RelationEdge} (h : s.graph.Sound) :
    EndsSound (synthesizeEdges edges) s := by
  unfold synthesizeEdges
  refine .ask_bind trivial fun done hdone => ?_
  refine .change_bind <| .pure ?_
  cases hrun : s.graph.synthesizeEdges edges with
  | error e =>
      rw [hrun] at hdone
      cases hdone
  | ok done' =>
      rw [hrun] at hdone
      obtain rfl := Except.ok.inj hdone
      exact h.synthesizeEdges hrun

theorem addRelation_endsSound {source target : Value} {type : Option Value} {id : Option String}
    {attributes : Entries} (h : s.graph.Sound) :
    EndsSound (addRelation source target type id attributes) s := by
  unfold addRelation
  refine .ask_bind trivial fun _ _ => ?_
  refine .ask_bind trivial fun _ _ => ?_
  refine .idFor_bind fun t ht => ?_
  refine .ask_bind trivial fun _ _ => ?_
  refine .ask_bind trivial fun e _ => ?_
  refine .ask_bind trivial fun _ hedge => ?_
  apply Ends.change_bind
  rw [ht] at hedge
  have hdrawn : (t.changing (·.insertRelation e)).graph.Sound := by
    rw [Session.changing_graph, ht]
    exact h.insertRelation (Graph.checkEdge_eq_ok_iff.mp hedge)
  exact (synthesizeEdges_endsSound hdrawn).bind fun _ _ hdone => .pure hdone

theorem removeRelation_endsSound {id : String} (h : s.graph.Sound) :
    EndsSound (removeRelation id) s := by
  unfold removeRelation
  refine .bind_of_run (EStateM.run_get s) ?_
  apply Ends.change_bind
  have hpopped : (s.changing (·.popRelation id)).graph.Sound := h.popRelation id
  cases s.graph.relation? id with
  | none => exact trivial
  | some e => exact .change_bind <| .pure (hpopped.detach e)

theorem setType_endsSound {id type : String} (h : s.graph.Sound) :
    EndsSound (setType id type) s := by
  unfold setType
  refine .ask_bind trivial fun old _ => ?_
  refine .ask_bind trivial fun _ hedge => ?_
  refine .change_bind <| .change_bind ?_
  have hdropped : ((s.graph.insertRelation { old with type }).dropDerived id).Sound :=
    (h.insertRelation (Graph.checkEdge_eq_ok_iff.mp hedge)).dropDerived id
  exact (synthesizeEdges_endsSound hdropped).bind fun _ _ hdone => .pure hdone

theorem synthesize_endsSound (h : s.graph.Sound) : EndsSound synthesize s := by
  unfold synthesize
  refine .bind_of_run (EStateM.run_get s) ?_
  exact (synthesizeEdges_endsSound h).bind fun _ _ hdone => .pure hdone

theorem editing_endsSound {e : Edit} (h : s.graph.Sound) (htyped : e.IsTyped)
    (hfresh : e.IsFresh s) : EndsSound e.editing s := by
  cases e with
  | addModel name id => exact addModel_endsSound h hfresh
  | addEnum name values id => exact addEnum_endsSound h hfresh
  | rename id name => exact rename_endsSound h
  | delete id => exact delete_endsSound h
  | addField model field => exact addField_endsSound h htyped
  | updateField model field changes => exact updateField_endsSound h htyped
  | removeField model field => exact removeField_endsSound h
  | setValues id values => exact setValues_endsSound h
  | addRelation source target type id attributes => exact addRelation_endsSound h
  | removeRelation id => exact removeRelation_endsSound h
  | setType id type => exact setType_endsSound h
  | synthesize => exact synthesize_endsSound h

end Edits

end Editing

namespace Session

theorem apply_sound {s : Session} {e : Edit} (h : s.graph.Sound) (htyped : e.IsTyped)
    (hfresh : e.IsFresh s) : (s.apply e).session.graph.Sound := by
  obtain hgraph | ⟨-, hsound⟩ := unchanged_or_of_ends (Editing.editing_endsSound h htyped hfresh)
  · rwa [hgraph]
  · exact hsound

theorem run_sound {s : Session} {edits : List Edit} (h : s.graph.Sound)
    (htyped : ∀ e ∈ edits, e.IsTyped) (hfresh : s.IsFreshAlong edits) :
    (s.run edits).graph.Sound := by
  induction edits generalizing s with
  | nil => exact h
  | cons e edits ih =>
      have hstep := apply_sound h (htyped e List.mem_cons_self) hfresh.1
      exact ih hstep (fun e' he' => htyped e' (List.mem_cons_of_mem e he')) hfresh.2

/-- Whatever is done to an empty graph, with success or not: names and ids are distinct, no model
repeats a field name and no enum a value, every relation has a supported type and joins models. So
the document compiles, and its report has no errors. -/
theorem run_from_empty_sound {s : Session} {edits : List Edit} (hnodes : s.graph.nodes = [])
    (hrelations : s.graph.relations = []) (htyped : ∀ e ∈ edits, e.IsTyped)
    (hfresh : s.IsFreshAlong edits) :
    (s.run edits).graph.Sound ∧
      (∃ t, (s.run edits).graph.toDocument.generate = .ok t) ∧
      ((s.run edits).graph.toDocument.check (s.run edits).graph).errors = [] := by
  have hempty : s.graph.Sound := by
    refine ⟨?_, ?_, ?_, ?_⟩
    all_goals simp [hnodes, hrelations]
  have hrun : (s.run edits).graph.Sound := run_sound hempty htyped hfresh
  exact ⟨hrun, hrun.generate, hrun.check_errors⟩

/-- Two models that are related, one of them renamed; a second model of a name is refused. -/
def blog : List Edit :=
  [.addModel (some "User") none, .addModel (some "Post") (some "p"), .addModel (some "User") none,
    .addField "p" [(.text "name", .text "title"), (.text "type", .text "String")],
    .addRelation (.text "model-000000000001") (.text "p") none (some "e") [],
    .rename "p" "Entry", .setType "e" "ONE_TO_ONE"]

theorem run_from_empty_sound_blog :
    (({} : Session).run blog).graph.modelIds = ["model-000000000001", "p"] ∧
      (({} : Session).run blog).graph.Sound ∧
      (∃ t, (({} : Session).run blog).graph.toDocument.generate = .ok t) ∧
      ((({} : Session).run blog).graph.toDocument.check (({} : Session).run blog).graph).errors =
        [] := by
  have htyped : ∀ e ∈ blog, e.IsTyped := by
    simp [blog, Edit.IsTyped, Entries.NamesInText]
  have hfresh : ({} : Session).IsFreshAlong blog :=
    ⟨fun _ => rfl, fun _ => rfl, fun _ => rfl, trivial, trivial, trivial, trivial, trivial⟩
  exact ⟨rfl, run_from_empty_sound rfl rfl htyped hfresh⟩

end Session

end DrawnSchema
