import DrawnSchema.Proofs.Document.Normalization
import DrawnSchema.Proofs.Value.Record

/-!
# Relations given in two places

A raw field may say of its relation in flat keys beside a nested one. Folding gives a flat key to
the nested relation under one spelling of its attribute, unless that spelling is there. The relation
is then read by the first spelling that it has. So the nested relation comes first for an attribute
that it gives under the spelling that folding looks at, which is the preferred one of each
attribute; the fields that it gives under another spelling only are passed over for those of the
flat key.
-/

namespace DrawnSchema

/-! ### Attributes that have a second source -/

namespace Entries

variable {m nested field : Entries} {key : String} {v : Value}

theorem get?_append (m m' : Entries) (key : String) :
    (m ++ m').get? key = (m.get? key).or (m'.get? key) := by
  induction m with
  | nil => rfl
  | cons e m ih =>
      rw [List.cons_append, get?_cons, get?_cons, ih]
      by_cases he : e.1 = .text key <;> simp [he]

theorem get?_insertNew_self : (m.insertNew key v).get? key = (m.get? key).or (some v) := by
  unfold insertNew has
  cases hget : m.get? key with
  | some w => simp [hget]
  | none => simp [get?_append, get?_cons, hget]

theorem get?_insertNew_of_ne {other : String} (hne : key ≠ other) :
    (m.insertNew other v).get? key = m.get? key := by
  have hother : Scalar.text other ≠ .text key := by simpa using hne.symm
  unfold insertNew
  split
  · rfl
  · rw [get?_append, get?_cons, if_neg hother, get?_nil, Option.or_none]

variable {α : Type} {k : Key} {name flat : String} {others : List String} {default given a : α}
  {read : Value → Reading α}

/-- An attribute whose first spelling has a second source: read as it was given if the first source
has that spelling, otherwise from the second one if that has it. -/
theorem withDefault_of_two_sources (hk : k.accepted = name :: others)
    (hname : m.get? name = (nested.get? name).or (field.get? flat))
    (hothers : ∀ other ∈ others, m.get? other = nested.get? other)
    (hgiven : nested.withDefault k default read = .value given) :
    m.withDefault k default read = .value a ↔
      if nested.has name then a = given
      else field.withDefault (.plain flat) given read = .value a := by
  cases hnested : nested.get? name with
  | some v =>
      have hm : m.pick k = nested.pick k := by
        rw [pick_of_head hk hnested, pick_of_head hk (by rw [hname, hnested, Option.some_or])]
      rw [withDefault_congr hm, hgiven, has, hnested]
      simp [eq_comm]
  | none =>
      rw [has, hnested, withDefault_plain_eq_value_iff]
      rw [hnested, Option.none_or] at hname
      cases hflat : field.get? flat with
      | some v =>
          rw [hflat] at hname
          unfold withDefault
          simp [pick_of_head hk hname]
      | none =>
          have hm : m.pick k = nested.pick k := by
            refine pick_congr fun other hother => ?_
            rw [hk] at hother
            obtain rfl | hother := List.mem_cons.mp hother
            · rw [hname, hflat, hnested]
            · exact hothers other hother
          rw [withDefault_congr hm, hgiven]
          simp

end Entries

theorem RelationInfo.read_eq_value_iff {m : Entries} {info : RelationInfo} :
    read (.map m) = .value info ↔
      m.optional Key.name readText = .value info.name ∧
      m.withDefault Key.relationFields [] readTexts = .value info.fields ∧
      m.withDefault Key.references [] readTexts = .value info.references ∧
      m.optional Key.onDelete ReferentialAction.read = .value info.onDelete ∧
      m.optional Key.onUpdate ReferentialAction.read = .value info.onUpdate := by
  unfold read readRecord
  rw [Value.exposed_map]
  constructor
  · intro h
    obtain ⟨_, onUpdate, h4, honUpdate, rfl⟩ := Reading.exists_of_seq_eq_value h
    obtain ⟨_, onDelete, h3, honDelete, rfl⟩ := Reading.exists_of_seq_eq_value h4
    obtain ⟨_, references, h2, hreferences, rfl⟩ := Reading.exists_of_seq_eq_value h3
    obtain ⟨_, fields, h1, hfields, rfl⟩ := Reading.exists_of_seq_eq_value h2
    obtain ⟨name, hname, rfl⟩ := Reading.map_eq_value_iff.mp h1
    exact ⟨hname, hfields, hreferences, honDelete, honUpdate⟩
  · rintro ⟨hname, hfields, hreferences, honDelete, honUpdate⟩
    simp only [hname, hfields, hreferences, honDelete, honUpdate]
    rfl

/-- A relation that is there is read, whether it is a part of itself or not. -/
theorem RelationInfo.optional_eq_value_iff {m relation : Entries} {info : RelationInfo}
    (h : (m.getD "relation").exposed = .map relation) :
    m.optional Key.relation read = .value (some info) ↔ read (.map relation) = .value info := by
  have hread {v : Value} (hv : v.exposed = .map relation) : read v = read (.map relation) := by
    simp only [read, readRecord, hv, Value.exposed_map]
  unfold Entries.optional Key.relation
  rw [Entries.withDefault_plain_eq_value_iff]
  cases hget : m.get? "relation" with
  | none =>
      rw [Entries.getD, hget] at h
      cases h
  | some v =>
      rw [Entries.getD, hget, Option.getD_some] at h
      have hnull : v.isNull = false := by
        cases v with
        | scalar s => cases h
        | _ => rfl
      rw [Option.elim_some, readOptional_of_isNull_eq_false hnull, hread h,
        Reading.map_eq_value_iff]
      simp

namespace RawField

variable {field nested normal : Entries} {known : KnownNames} {given : RelationInfo}

/-! ### Folding -/

theorem get?_foldl_foldKey_other {name : String} (keys : List FlatKey) (state : Entries × Entries)
    (hkeys : ∀ k ∈ keys, name ≠ k.nested) :
    (keys.foldl foldKey state).2.get? name = state.2.get? name := by
  induction keys generalizing state with
  | nil => rfl
  | cons k keys ih =>
      obtain ⟨field, relation⟩ := state
      rw [List.foldl_cons, ih _ fun k' hk' => hkeys k' (List.mem_cons_of_mem k hk')]
      dsimp only [foldKey]
      cases field.get? k.flat with
      | none => rfl
      | some v => exact Entries.get?_insertNew_of_ne (hkeys k List.mem_cons_self)

/-- A flat key stands in for the attribute that the relation does not have. -/
theorem get?_foldl_foldKey_nested {k : FlatKey} (keys : List FlatKey) (state : Entries × Entries)
    (hflat : (keys.map (·.flat)).Nodup) (hnested : (keys.map (·.nested)).Nodup) (hk : k ∈ keys) :
    (keys.foldl foldKey state).2.get? k.nested =
      (state.2.get? k.nested).or (state.1.get? k.flat) := by
  induction keys generalizing state with
  | nil => cases hk
  | cons k' keys ih =>
      obtain ⟨field, relation⟩ := state
      rw [List.map_cons, List.nodup_cons] at hflat hnested
      rw [List.foldl_cons]
      obtain rfl | hk := List.mem_cons.mp hk
      · have hothers : ∀ k' ∈ keys, k.nested ≠ k'.nested := fun k' hk' heq =>
          hnested.1 (List.mem_map.mpr ⟨k', hk', heq.symm⟩)
        rw [get?_foldl_foldKey_other keys _ hothers]
        dsimp only [foldKey]
        cases hget : field.get? k.flat with
        | none => rw [Option.or_none]
        | some v => exact Entries.get?_insertNew_self
      · have hother : k.flat ≠ k'.flat := fun heq => hflat.1 (heq ▸ List.mem_map_of_mem hk)
        have hother' : k.nested ≠ k'.nested := fun heq => hnested.1 (heq ▸ List.mem_map_of_mem hk)
        rw [ih _ hflat.2 hnested.2 hk]
        dsimp only [foldKey]
        cases field.get? k'.flat with
        | none => rfl
        | some v =>
            rw [Entries.get?_erase_of_ne hother, Entries.get?_insertNew_of_ne hother']

theorem startOfRelation_of_map (h : (field.getD "relation").exposed = .map nested) :
    startOfRelation field = .ok nested := by
  unfold startOfRelation
  generalize field.getD "relation" = v at h
  by_cases htruthy : v.truthy = true
  · simp only [if_pos htruthy, Value.asEntries, h]
  · rw [if_neg htruthy]
    cases v with
    | map m =>
        obtain rfl := Value.map.inj h
        cases m with
        | nil => rfl
        | cons e m => exact absurd rfl htruthy
    | loop label body => exact absurd rfl htruthy
    | _ => cases h

/-- The relation of a field after folding: its attributes that have a flat key fall back on that,
all others are as they were nested. -/
theorem relation_of_foldRelation (h : (field.getD "relation").exposed = .map nested) :
    ∃ folded, ∃ relation : Entries, foldRelation field = .ok folded ∧
      (folded.getD "relation").exposed = .map relation ∧
      (∀ k ∈ flatKeys, relation.get? k.nested = (nested.get? k.nested).or (field.get? k.flat)) ∧
      ∀ name, (∀ k ∈ flatKeys, name ≠ k.nested) → relation.get? name = nested.get? name := by
  cases hflat : hasFlatKey field with
  | true =>
      refine ⟨_, (flatKeys.foldl foldKey (field, nested)).2,
        foldRelation_of_flat hflat (startOfRelation_of_map h), ?_, fun k hk => ?_,
        fun name hname => ?_⟩
      · rw [Entries.getD, Entries.get?_insert_self, Option.getD_some, Value.exposed_map]
      · exact get?_foldl_foldKey_nested flatKeys (field, nested) (by decide) (by decide) hk
      · exact get?_foldl_foldKey_other flatKeys (field, nested) hname
  | false =>
      refine ⟨field, nested, foldRelation_of_no_flat hflat, h, fun k hk => ?_, fun _ _ => rfl⟩
      rw [hasFlatKey_eq_false_iff.mp hflat k hk, Option.or_none]

/-! ### Normalizing -/

/-- A field whose type can be looked up is put in order, if its flat keys can be folded. -/
theorem normalize_isOk_of_hashable {folded : Entries} {type : Scalar}
    (hfold : foldRelation field = .ok folded) (htype : (field.getD "type").hashable = .ok type)
    (known : KnownNames) : ∃ normal, normalize field known = .ok normal := by
  have htype' : (folded.getD "type").hashable = .ok type := by
    rwa [Entries.getD, get?_foldRelation hfold (by decide) (by decide)]
  have hmentions (names : List Scalar) :
      ∃ named, mentions names (folded.getD "type") = .ok named := by
    unfold mentions
    split
    · exact ⟨false, rfl⟩
    · exact ⟨_, by rw [htype']; rfl⟩
  obtain ⟨isModel, hmodel⟩ := hmentions known.models
  obtain ⟨isEnum, henum⟩ := hmentions known.enums
  have hkind : ∃ kind, kindOf folded known = .ok kind := by
    simp only [kindOf, hmodel, henum, bind, Except.bind]
    split_ifs <;> exact ⟨_, rfl⟩
  obtain ⟨kind, hkind⟩ := hkind
  unfold normalize
  rw [hfold]
  by_cases htruthy : (folded.getD "kind").truthy = true
  · exact ⟨folded, if_pos htruthy⟩
  · refine ⟨folded.insert "kind" (.text kind.name), ?_⟩
    simp only [bind, Except.bind, hkind, if_neg htruthy]

/-- The relation of a field that has one nested is read with the attributes that are nested. A name,
fields or references that the nested relation does not give under their preferred spelling are those
of the flat key, if there is one. The fields that it gives under another spelling come last. -/
theorem relation_of_normalize (hrelation : (field.getD "relation").exposed = .map nested)
    (hgiven : RelationInfo.read (.map nested) = .value given) (known : KnownNames) :
    ((∃ type, (field.getD "type").hashable = .ok type) →
      ∃ normal, normalize field known = .ok normal) ∧
    ∀ normal, normalize field known = .ok normal → ∀ info,
      normal.optional Key.relation RelationInfo.read = .value (some info) ↔
        (if nested.has "name" then info.name = given.name
          else field.withDefault (.plain "relationName") given.name (readOptional readText) =
            .value info.name) ∧
        (if nested.has "fields" then info.fields = given.fields
          else field.withDefault (.plain "relationFields") given.fields readTexts =
            .value info.fields) ∧
        (if nested.has "references" then info.references = given.references
          else field.withDefault (.plain "relationReferences") given.references readTexts =
            .value info.references) ∧
        info.onDelete = given.onDelete ∧ info.onUpdate = given.onUpdate := by
  obtain ⟨folded, relation, hfold, hfolded, hnested, hothers⟩ := relation_of_foldRelation hrelation
  obtain ⟨hname, hfields, hreferences, honDelete, honUpdate⟩ :=
    RelationInfo.read_eq_value_iff.mp hgiven
  refine ⟨fun ⟨type, htype⟩ => normalize_isOk_of_hashable hfold htype known,
    fun normal hnormal info => ?_⟩
  have hnormalRelation : (normal.getD "relation").exposed = .map relation := by
    obtain ⟨folded', hfold', hget⟩ := normalize_eq_ok hnormal
    obtain rfl := Except.ok.inj (hfold.symm.trans hfold')
    rwa [Entries.getD, hget "relation" (by decide)]
  rw [RelationInfo.optional_eq_value_iff hnormalRelation, RelationInfo.read_eq_value_iff]
  have hkept {α : Type} {k : Key} {given a : α} {default : α} {read : Value → Reading α}
      (hk : ∀ name ∈ k.accepted, ∀ k ∈ flatKeys, name ≠ k.nested)
      (hgiven : nested.withDefault k default read = .value given) :
      relation.withDefault k default read = .value a ↔ a = given := by
    have hpick : relation.pick k = nested.pick k :=
      Entries.pick_congr fun name hname => hothers name (hk name hname)
    rw [Entries.withDefault_congr hpick, hgiven, Reading.value.injEq, eq_comm]
  refine and_congr ?_ (and_congr ?_ (and_congr ?_ (and_congr ?_ ?_)))
  · exact Entries.withDefault_of_two_sources rfl
      (hnested ⟨"relationName", "name"⟩ (by simp [flatKeys])) (by simp) hname
  · refine Entries.withDefault_of_two_sources rfl
      (hnested ⟨"relationFields", "fields"⟩ (by simp [flatKeys])) (fun other hother => ?_) hfields
    exact hothers other (by revert other; decide)
  · exact Entries.withDefault_of_two_sources rfl
      (hnested ⟨"relationReferences", "references"⟩ (by simp [flatKeys])) (by simp) hreferences
  · exact hkept (by decide) honDelete
  · exact hkept (by decide) honUpdate

/-- A relation with some references, and with fields under another spelling. -/
def keyedRelation : Entries := [
  (.text "fkFields", .texts ["author_id"]), (.text "references", .texts ["id"]),
  (.text "onDelete", .text "CASCADE")]

/-- The author of a post, with that relation nested and some flat keys beside it. -/
def keyedAuthor (flat : Entries) : Entries :=
  [(.text "name", .text "author"), (.text "type", .text "User"),
    (.text "relation", .map keyedRelation)] ++ flat

/-- The name is that of the flat key, as none is nested; the references and the fields are those
that are nested. -/
theorem relation_of_normalize_author :
    ∃ normal,
      normalize (keyedAuthor [(.text "relationReferences", .texts ["key"]),
        (.text "relationName", .text "Authorship")]) { models := [.text "User"] } = .ok normal ∧
      normal.optional Key.relation RelationInfo.read =
        .value (some ⟨some "Authorship", ["author_id"], ["id"], some .cascade, none⟩) := by
  let given : RelationInfo := ⟨none, ["author_id"], ["id"], some .cascade, none⟩
  let field : Entries := keyedAuthor [
    (.text "relationReferences", .texts ["key"]), (.text "relationName", .text "Authorship")]
  have hrelation : (field.getD "relation").exposed = .map keyedRelation := rfl
  have hgiven : RelationInfo.read (.map keyedRelation) = .value given := rfl
  obtain ⟨hexists, hread⟩ :=
    relation_of_normalize hrelation hgiven { models := [.text "User"] }
  obtain ⟨normal, hnormal⟩ := hexists ⟨.text "User", rfl⟩
  exact ⟨normal, hnormal, (hread normal hnormal _).mpr ⟨rfl, rfl, rfl, rfl, rfl⟩⟩

/-- The fields of a flat key are taken where the nested relation has fields of its own. -/
theorem normalize_passes_over_nested_fields :
    ¬∀ (field nested normal : Entries) (known : KnownNames) (given info : RelationInfo),
      (field.getD "relation").exposed = .map nested →
      RelationInfo.read (.map nested) = .value given → hasFlatKey field = true →
      normalize field known = .ok normal →
      normal.optional Key.relation RelationInfo.read = .value (some info) →
      (nested.pick Key.relationFields).isSome = true → info.fields = given.fields := by
  intro hnested
  let normal : Entries := [
    (.text "name", .text "author"), (.text "type", .text "User"),
    (.text "relation", .map (keyedRelation ++ [(.text "fields", .texts ["user_id"])])),
    (.text "kind", .text "relation")]
  have hfields : ["user_id"] = ["author_id"] :=
    hnested (keyedAuthor [(.text "relationFields", .texts ["user_id"])]) keyedRelation normal
      { models := [.text "User"] } ⟨none, ["author_id"], ["id"], some .cascade, none⟩
      ⟨none, ["user_id"], ["id"], some .cascade, none⟩ rfl rfl rfl rfl rfl rfl
  simp at hfields

end RawField

end DrawnSchema
