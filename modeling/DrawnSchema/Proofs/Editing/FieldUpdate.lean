import DrawnSchema.Proofs.Document.Attributes
import DrawnSchema.Proofs.Document.Classification
import DrawnSchema.Proofs.Editing.EnumIndex

/-!
# What an update of a field changes

A field that is updated is taken apart, its attributes are overlaid with the changes, and a field is
built of the result. So the update leaves alone what it does not name, in every place but one: the
kind is told anew by the type, whether the type is changed or not. Where the type has come to name
something else since, or nothing any more, the field changes its kind and loses what only the old
kind has.
-/

namespace DrawnSchema

/-- What changes do not name has its value after them. -/
def Entries.Spare (changes : Entries) (before after : List (String × Value)) : Prop :=
  ∀ a ∈ before, changes.has a.1 = false → a ∈ after

namespace Graph

/-! ### Attributes under changes -/

section

variable {changes : Entries} {old : Field} {name : String}

theorem checkAttributes_eq_ok_iff :
    checkAttributes changes = .ok () ↔ ∀ k ∈ textKeys changes, k ∈ fieldAttributes := by
  have hunknown : checkAttributes changes = .ok () ↔ unknownAttributes changes = [] := by
    unfold checkAttributes
    cases unknownAttributes changes <;> simp
  have hsorted : unknownAttributes changes = [] ↔
      (textKeys changes).filter (fun k => !fieldAttributes.contains k) = [] := by
    rw [← List.length_eq_zero_iff, unknownAttributes, List.length_mergeSort,
      List.length_eq_zero_iff]
  rw [hunknown, hsorted, List.filter_eq_nil_iff]
  simp

theorem mem_fieldAttributes_of_has (hcheck : checkAttributes changes = .ok ())
    (hname : changes.has name = true) : name ∈ fieldAttributes := by
  obtain ⟨v, hv⟩ := Option.isSome_iff_exists.mp hname
  refine checkAttributes_eq_ok_iff.mp hcheck name ?_
  exact List.mem_filterMap.mpr ⟨_, Entries.mem_of_get? hv, rfl⟩

theorem get?_overlay_of_has_eq_false {data : Entries} (h : changes.has name = false) :
    (overlay data changes).get? name = data.get? name := by
  induction changes generalizing data with
  | nil => rfl
  | cons e changes ih =>
      rw [Entries.has, Entries.get?_cons] at h
      by_cases he : e.1 = .text name
      · rw [if_pos he] at h
        cases h
      · rw [if_neg he] at h
        change (overlay (data.insertScalar e.1 e.2) changes).get? name = _
        rw [ih h, Entries.get?_insertScalar, if_neg he]

/-- Under a name that is not one of an attribute, there is nothing among changed attributes. -/
theorem get?_overlay_eq_none (hcheck : checkAttributes changes = .ok ())
    (hname : name ∉ fieldAttributes) :
    (overlay (entriesOfField old) changes).get? name = none := by
  have hspared : changes.has name = false := by
    rw [← Bool.not_eq_true]
    exact fun hhas => hname (mem_fieldAttributes_of_has hcheck hhas)
  rw [get?_overlay_of_has_eq_false hspared, Field.get?_entriesOfField_eq_none hname]

/-- What changes do not name is shown after them as it was. -/
theorem shows_of_spared {normal : Entries} (hcheck : checkAttributes changes = .ok ())
    (hnormal : RawField.normalize (overlay (entriesOfField old) changes) {} = .ok normal)
    {p : Key × Value} (hp : p ∈ old.pairs) (hspared : changes.has p.1.snake = false) :
    normal.Shows .full p.1.underscored p.2 := by
  have hflat : RawField.hasFlatKey (overlay (entriesOfField old) changes) = false := by
    refine List.any_eq_false.mpr fun k hk => ?_
    have hunknown : k.flat ∉ fieldAttributes := by
      revert k
      decide
    rw [Entries.has, get?_overlay_eq_none hcheck hunknown]
    exact Bool.false_ne_true
  have haccepted : ∀ kind : FieldKind, ∀ k ∈ kind.attributeKeys, ∀ name ∈ k.accepted,
      name ≠ "kind" ∧ (name = k.snake ∨ name ∉ fieldAttributes) := by
    intro kind
    cases kind <;> decide
  have hget : ∀ name ∈ p.1.accepted, normal.get? name = (entriesOfField old).get? name := by
    intro name hname
    obtain ⟨hkind, rfl | hunknown⟩ :=
      haccepted old.kind p.1 (old.pairs_keys ▸ List.mem_map_of_mem hp) name hname
    · rw [RawField.get?_normalize_of_no_flat hflat hnormal hkind,
        get?_overlay_of_has_eq_false hspared]
    · rw [RawField.get?_normalize_of_no_flat hflat hnormal hkind,
        get?_overlay_eq_none hcheck hunknown, Field.get?_entriesOfField_eq_none hunknown]
  have hpick : normal.pick p.1.underscored = (entriesOfField old).pick p.1.underscored :=
    Entries.pick_congr hget
  exact hpick.trans (Field.entriesOfField_shows hp)

/-- A field of changed attributes is of the kind of its type. What the changes do not name is as it
was among the attributes that all fields have, and among all if the kind is. -/
theorem buildField_spares {g : Graph} {new : Field} (hcheck : checkAttributes changes = .ok ())
    (htype : changes.has "type" = false)
    (hbuild : g.buildField (overlay (entriesOfField old) changes) = .ok new) :
    new.kind = g.knownNames.kindFor old.type ∧
      changes.Spare (old.sharedAttributes .snake) (new.sharedAttributes .snake) ∧
      (new.kind = old.kind → changes.Spare (old.attributes .snake) (new.attributes .snake)) := by
  obtain ⟨kind, normal, hnormal, hbuilt, hread⟩ := buildField_eq_ok hbuild
  have hdata : (overlay (entriesOfField old) changes).get? "type" = some (.text old.type) := by
    rw [get?_overlay_of_has_eq_false htype]
    rfl
  have hshared : ∀ p ∈ old.sharedPairs, changes.has p.1.snake = false → p ∈ new.sharedPairs :=
    fun p hp hspared => Field.mem_sharedPairs_of_readAs hread hp
      (shows_of_spared hcheck hnormal (List.mem_append_left _ hp) hspared)
  refine ⟨Field.kind_of_build hdata hbuilt, fun a ha hspared => ?_, fun hkind a ha hspared => ?_⟩
  · rw [Field.sharedAttributes_eq] at ha ⊢
    obtain ⟨p, hp, rfl⟩ := List.mem_map.mp ha
    exact List.mem_map.mpr ⟨p, hshared p hp hspared, rfl⟩
  · rw [Field.attributes_eq] at ha ⊢
    obtain ⟨p, hp, rfl⟩ := List.mem_map.mp ha
    refine List.mem_map.mpr ⟨p, ?_, rfl⟩
    have hshown := shows_of_spared hcheck hnormal hp hspared
    obtain hp | hp := List.mem_append.mp hp
    · exact List.mem_append_left _ (hshared p hp hspared)
    · have hcontent := (Field.readAs_eq_value_iff.mp hread).2.2.2.2.2.2.2.2
      obtain rfl : kind = old.kind := (Field.kind_of_readAs hread).symm.trans hkind
      exact List.mem_append_right _ (Field.mem_contentPairs_of_read hcontent hp hshown)

end

/-! ### The field in its place -/

variable {g : Graph} {m : Model}

theorem key_of_fieldOrFail {key : String} {old : Nat × Field} (h : fieldOrFail m key = .ok old) :
    old.2.key = key := by
  obtain ⟨n, hfound, hplace⟩ := Option.bind_eq_some_iff.mp (EditError.orNotFound_eq_ok_iff.mp h)
  obtain ⟨f, hfield, hold⟩ := Option.bind_eq_some_iff.mp hplace
  obtain rfl := Option.some.inj hold
  obtain ⟨hlt, hkey, -⟩ := List.findIdx?_eq_some_iff_getElem.mp hfound
  obtain rfl := Option.some.inj ((List.getElem?_eq_getElem hlt).symm.trans hfield)
  exact of_decide_eq_true hkey

/-- Among models with distinct ids, a change to the one of an id is a change in one place. -/
theorem map_of_id_eq_set {models : List Model} (hids : (models.map (·.id)).Nodup) {place : Nat}
    (hm : models[place]? = some m) (change : Model → Model) :
    (models.map fun m' => if m'.id = m.id then change m' else m') =
      models.set place (change m) := by
  induction models generalizing place with
  | nil => cases hm
  | cons m' models ih =>
      rw [List.map_cons, List.nodup_cons] at hids
      obtain ⟨hfirst, hids⟩ := hids
      cases place with
      | zero =>
          obtain rfl := Option.some.inj hm
          have hothers : (models.map fun m'' => if m''.id = m'.id then change m'' else m'') =
              models := by
            refine (List.map_congr_left fun m'' hm'' => if_neg fun hsame => ?_).trans
              (List.map_id' models)
            exact hfirst (hsame ▸ List.mem_map_of_mem hm'')
          rw [List.map_cons, if_pos rfl, hothers, List.set_cons_zero]
      | succ place =>
          have hother : m'.id ≠ m.id := fun hsame =>
            hfirst (hsame ▸ List.mem_map_of_mem (List.mem_of_getElem? hm))
          rw [List.map_cons, if_neg hother, ih hids hm, List.set_cons_succ]

/-- Where ids tell nodes apart, setting the fields of a model leaves all other models alone. -/
theorem setFields_models (hids : (g.nodes.map Node.id).Nodup) {id : String}
    (hm : g.model? id = some m) (fields : List Field) :
    ∃ place, g.models[place]? = some m ∧ m.id = id ∧
      (g.setFields id fields).models = g.models.set place { m with fields } := by
  have hmodelIds : (g.models.map (·.id)).Nodup :=
    ((ids_perm g.nodes).nodup_iff.mpr hids).of_append_left
  obtain ⟨hmem, rfl⟩ := (model?_eq_some_iff hids).mp hm
  obtain ⟨place, hplace⟩ := List.mem_iff_getElem?.mp hmem
  refine ⟨place, hplace, rfl, ?_⟩
  rw [setFields, mapModels_models]
  exact map_of_id_eq_set hmodelIds hplace fun m => { m with fields }

end Graph

/-- A field of a model under its key, and the graph that has another field in its place. -/
structure Graph.Replaces (g g' : Graph) (model key : String) (old new : Field) : Prop where
  models : ∃ place m n, g.models[place]? = some m ∧ m.id = model ∧ m.fields[n]? = some old ∧
    g'.models = g.models.set place { m with fields := m.fields.set n new }
  key_eq : old.key = key
  enums_eq : g'.enums = g.enums
  relations_eq : g'.relations = g.relations

theorem Graph.Replaces.exists_mem {g g' : Graph} {model key : String} {old new : Field}
    (h : g.Replaces g' model key old new) :
    ∃ m ∈ g.models, m.id = model ∧ old ∈ m.fields ∧ old.key = key := by
  obtain ⟨place, m, n, hm, hid, hold, -⟩ := h.models
  exact ⟨m, List.mem_of_getElem? hm, hid, List.mem_of_getElem? hold, h.key_eq⟩

namespace Editing

variable {s : Session}

theorem updateField_endsReplaced (hids : (s.graph.nodes.map Node.id).Nodup) (model key : String)
    (changes : Entries) :
    Ends (Edit.updateField model key changes).editing s
      (fun r t => ∃ old new, r.answer = .field new ∧ s.graph.Replaces t.graph model key old new ∧
        Graph.checkAttributes changes = .ok () ∧
        s.graph.buildField (Graph.overlay (Graph.entriesOfField old) changes) = .ok new)
      (fun _ => True) := by
  unfold Edit.editing updateField
  refine .ask_bind trivial fun _ _ => .ask_bind trivial fun _ hcheck => ?_
  refine .ask_bind trivial fun m hm => .ask_bind trivial fun old hold => ?_
  refine .ask_bind trivial fun _ _ => .ask_bind trivial fun new hbuild => ?_
  refine .change_bind <| .change_bind <| .pure ⟨old.2, new, rfl, ?_, hcheck, hbuild⟩
  obtain ⟨place, hplace, hid, hmodels⟩ := Graph.setFields_models hids
    (EditError.orNotFound_eq_ok_iff.mp hm) (m.fields.set old.1 new)
  refine ⟨⟨place, m, old.1, hplace, hid, Graph.getElem?_of_fieldOrFail hold, ?_⟩,
    Graph.key_of_fieldOrFail hold, ?_, ?_⟩
  · exact (Graph.relinkEnums_models _).trans hmodels
  · exact (Graph.relinkEnums_enums _).trans (Graph.mapModels_enums _ _)
  · exact Graph.relinkEnums_relations _

end Editing

namespace Session

theorem apply_updateField {s : Session} {model key : String} {changes : Entries} {m : Model}
    {old : Nat × Field} {new : Field}
    (habsent : Graph.checkAbsent changes ["model_id", "field_id"] = .ok ())
    (hattributes : Graph.checkAttributes changes = .ok ())
    (hm : s.graph.modelOrFail model = .ok m) (hold : Graph.fieldOrFail m key = .ok old)
    (hname : Graph.checkChangedName m old.2
      (Graph.overlay (Graph.entriesOfField old.2) changes) = .ok ())
    (hbuild : s.graph.buildField (Graph.overlay (Graph.entriesOfField old.2) changes) = .ok new) :
    (s.apply (.updateField model key changes)).answer = .ok (.field new) := by
  have hends : Editing.Ends (Edit.updateField model key changes).editing s
      (fun r _ => r.answer = .field new) (fun _ => False) := by
    unfold Edit.editing Editing.updateField
    refine .ask_bind_of_eq habsent <| .ask_bind_of_eq hattributes <| .ask_bind_of_eq hm ?_
    refine .ask_bind_of_eq hold <| .ask_bind_of_eq hname <| .ask_bind_of_eq hbuild ?_
    exact .change_bind <| .change_bind <| .pure rfl
  obtain ⟨r, hanswer, hfield⟩ := apply_of_ends_accepted hends
  rw [hanswer, hfield]

/-- Whatever was done to a graph: an update of a field that does not name its type puts the new field
in the place of the old one and changes nothing else. The new field has the type of the old one, the
kind that this type has among the names of the graph as it is, and of the attributes that all fields
have, those that the update does not name. If that kind is the one that the field had, it has all
attributes that the update does not name. -/
theorem run_updateField_spares {s : Session} (hbegins : s.Begins) (edits : List Edit)
    {model key : String} {changes : Entries} (htype : changes.has "type" = false) {answer : Answer}
    (haccepted : ((s.run edits).apply (.updateField model key changes)).answer = .ok answer) :
    ∃ old new, answer = .field new ∧
      (s.run edits).graph.Replaces
        ((s.run edits).apply (.updateField model key changes)).session.graph model key old new ∧
      new.type = old.type ∧ new.kind = (s.run edits).graph.knownNames.kindFor old.type ∧
      changes.Spare (old.sharedAttributes .snake) (new.sharedAttributes .snake) ∧
      (new.kind = old.kind → changes.Spare (old.attributes .snake) (new.attributes .snake)) := by
  have hlinked : (s.run edits).graph.Linked :=
    run_keeps Graph.Linked (fun _ _ => True) (fun _ _ _ h _ hled => (hled.linked h).1)
      hbegins.linked.1 (along_of_forall (fun _ _ => trivial) s edits)
  obtain ⟨r, hanswer, old, new, hnew, hreplaces, hcheck, hbuild⟩ | ⟨⟨error, herror⟩, -⟩ :=
    apply_of_ends (Editing.updateField_endsReplaced hlinked.keyed.ids model key changes)
  · obtain rfl := Except.ok.inj (haccepted.symm.trans hanswer)
    obtain ⟨hkind, hshared, hall⟩ := Graph.buildField_spares hcheck htype hbuild
    have hsame : ("type", Value.text old.type) ∈ new.sharedAttributes .snake :=
      hshared _ (by simp [Field.sharedAttributes]) htype
    refine ⟨old, new, hnew, hreplaces, ?_, hkind, hshared, hall⟩
    simpa [Field.sharedAttributes, Key.isOptional, Key.isArray, Key.mapName, Key.spelled,
      eq_comm] using hsame
  · rw [haccepted] at herror
    cases herror

/-- Posts of users. -/
def authorship : List Edit :=
  [.addModel (some "User") (some "u"), .addModel (some "Post") (some "p"),
    .addRelation (.text "u") (.text "p") none (some "e") []]

/-- Posts of users that are gone. -/
def orphaned : List Edit := authorship ++ [.delete "u"]

/-- A change of the name under which a field is stored. -/
def stored : Entries := [(.text "map_name", .text "author")]

theorem checkAttributes_stored : Graph.checkAttributes stored = .ok () :=
  Graph.checkAttributes_eq_ok_iff.mpr (by decide)

/-- The user of a post is stored under another name, and refers to the user as before. -/
theorem run_updateField_spares_authorship :
    ∃ new, ((({} : Session).run authorship).apply
        (.updateField "p" "rel-e-target" stored)).answer = .ok (.field new) ∧
      new.kind = .relation ∧
        ("relation", RelationInfo.toValue .snake ⟨none, ["user_id"], ["id"], none, none⟩) ∈
          new.attributes .snake := by
  have hbegins : ({} : Session).Begins := .inl ⟨{}, {}, rfl⟩
  have haccepted : ((({} : Session).run authorship).apply
      (.updateField "p" "rel-e-target" stored)).answer = .ok _ :=
    apply_updateField rfl checkAttributes_stored rfl rfl rfl rfl
  obtain ⟨old, new, hnew, hreplaces, -, hkind, -, hspares⟩ :=
    run_updateField_spares hbegins authorship rfl haccepted
  obtain ⟨m, hm, -, hold, hkey⟩ := hreplaces.exists_mem
  have hfound : ∀ m ∈ (({} : Session).run authorship).graph.models, ∀ f ∈ m.fields,
      f.key = "rel-e-target" → f.type = "User" ∧ f.content =
        .relation (some ⟨none, ["user_id"], ["id"], none, none⟩) := by
    decide
  obtain ⟨htype, hcontent⟩ := hfound m hm old hold hkey
  have hrelation : new.kind = .relation := by
    rw [hkind, htype]
    rfl
  have hsame : new.kind = old.kind := by
    rw [hrelation, Field.kind, hcontent]
    rfl
  refine ⟨new, haccepted.trans (congrArg Except.ok hnew), hrelation, hspares hsame _ ?_ rfl⟩
  rw [Field.attributes, hcontent]
  exact List.mem_append_right _ (List.mem_singleton_self _)

/-- Once users are gone, the same change makes the user of a post a scalar. -/
theorem run_updateField_orphan :
    ¬∀ (s : Session) (edits : List Edit) (model key : String) (changes : Entries)
      (answer : Answer), s.Begins → changes.has "type" = false →
      ((s.run edits).apply (.updateField model key changes)).answer = .ok answer →
      ∃ old new, answer = .field new ∧
        (s.run edits).graph.Replaces
          ((s.run edits).apply (.updateField model key changes)).session.graph model key old new ∧
        new.kind = old.kind := by
  intro hclaim
  have hbegins : ({} : Session).Begins := .inl ⟨{}, {}, rfl⟩
  have haccepted : ((({} : Session).run orphaned).apply
      (.updateField "p" "rel-e-target" stored)).answer = .ok _ :=
    apply_updateField rfl checkAttributes_stored rfl rfl rfl rfl
  obtain ⟨old, new, hnew, hreplaces, hkind⟩ :=
    hclaim {} orphaned "p" "rel-e-target" stored _ hbegins rfl haccepted
  obtain ⟨m, hm, -, hold, hkey⟩ := hreplaces.exists_mem
  have hfound : ∀ m ∈ (({} : Session).run orphaned).graph.models,
      ∀ f ∈ m.fields, f.key = "rel-e-target" → f.kind = .relation := by
    decide
  rw [hfound m hm old hold hkey] at hkind
  cases hnew
  cases hkind

end Session

end DrawnSchema
