import DrawnSchema.Proofs.Document.Reading

/-!
# The kind that a raw field is given

A document that is loaded gives a field the kind that its type names, and where the type names
nothing a field that brings a relation is a relation still. A field that is built into a graph goes
by its type alone. The two part where the type names nothing and there is a relation, and only
there. A relation is brought by a flat key as well, whatever is nested beside it, as folding never
leaves the relation that it makes without entries.
-/

namespace DrawnSchema

/-- The kind of a type among the names of models and of enums. -/
def KnownNames.kindFor (known : KnownNames) (type : String) : FieldKind :=
  if known.models.any fun n => n.sameKey (.text type) then .relation
  else if known.enums.any fun n => n.sameKey (.text type) then .enum
  else .scalar

namespace RawField

/-- There is no nested relation, or it is null or a map. -/
def HasPlainRelation (field : Entries) : Prop :=
  ∀ v, field.get? "relation" = some v → v = .null ∨ ∃ m, v.exposed = .map m

/-- There is a relation, in flat keys or as a nested one that is not empty. -/
def bringsRelation (field : Entries) : Bool :=
  hasFlatKey field || (field.getD "relation").truthy

variable {field normal : Entries} {known : KnownNames} {type : String}

/-! ### Kinds of types -/

theorem kindForType_text (known : KnownNames) (type : String) :
    kindForType (.text type) known = .ok (known.kindFor type) := by
  change (if _ then Except.ok FieldKind.relation else if _ then .ok .enum else .ok .scalar) = _
  rw [KnownNames.kindFor, apply_ite Except.ok, apply_ite Except.ok]

theorem mentions_text (names : List Scalar) (type : String) :
    mentions names (.text type) = .ok (names.any fun n => n.sameKey (.text type)) := by
  cases names <;> rfl

theorem kindOf_of_type (htype : field.get? "type" = some (.text type)) :
    kindOf field known = .ok
      (if known.kindFor type = .scalar ∧ (field.getD "relation").truthy = true then .relation
        else known.kindFor type) := by
  have hget : field.getD "type" = .text type := by rw [Entries.getD, htype, Option.getD_some]
  simp only [kindOf, hget, mentions_text, KnownNames.kindFor]
  change (if _ then _ else if _ then _ else _ : Except ShapeError FieldKind) = _
  by_cases hmodel : known.models.any (fun n => n.sameKey (.text type)) = true
  · simp [hmodel]
  by_cases henum : known.enums.any (fun n => n.sameKey (.text type)) = true
  · simp [hmodel, henum]
  · simp only [hmodel, henum]
    cases (field.getD "relation").truthy <;> rfl

/-! ### Folding -/

/-- A flat key that is met leaves an entry in the relation, which the keys after it do not take
away. -/
theorem foldl_foldKey_ne_nil (keys : List FlatKey) (state : Entries × Entries)
    (h : state.2 ≠ [] ∨ ∃ k ∈ keys, state.1.has k.flat = true) :
    (keys.foldl foldKey state).2 ≠ [] := by
  induction keys generalizing state with
  | nil => simpa using h
  | cons k keys ih =>
      rw [List.foldl_cons]
      refine ih _ ?_
      obtain ⟨field, relation⟩ := state
      dsimp only [foldKey] at h ⊢
      cases hk : field.get? k.flat with
      | some v =>
          exact Or.inl Entries.insertNew_ne_nil
      | none =>
          refine h.imp_right ?_
          rintro ⟨k', hk', hhas⟩
          obtain rfl | hk' := List.mem_cons.mp hk'
          · rw [Entries.has, hk] at hhas
            cases hhas
          · exact ⟨k', hk', hhas⟩

theorem startOfRelation_eq_ok (h : HasPlainRelation field) :
    ∃ start, startOfRelation field = .ok start := by
  unfold startOfRelation
  cases hv : field.get? "relation" with
  | none => exact ⟨[], by rw [Entries.getD, hv]; rfl⟩
  | some v =>
      rw [Entries.getD, hv, Option.getD_some]
      by_cases htruthy : v.truthy = true
      · obtain rfl | ⟨m, hm⟩ := h v hv
        · cases htruthy
        · exact ⟨m, by simp only [if_pos htruthy, Value.asEntries, hm]⟩
      · exact ⟨[], if_neg htruthy⟩

/-- Folding succeeds, and the field then has a relation in one place if it had one in any. -/
theorem foldRelation_of_plain (h : HasPlainRelation field) :
    ∃ folded, foldRelation field = .ok folded ∧
      (folded.getD "relation").truthy = bringsRelation field := by
  rw [bringsRelation]
  cases hflat : hasFlatKey field with
  | true =>
      obtain ⟨start, hstart⟩ := startOfRelation_eq_ok h
      have hne := foldl_foldKey_ne_nil flatKeys (field, start) (Or.inr (List.any_eq_true.mp hflat))
      refine ⟨_, foldRelation_of_flat hflat hstart, ?_⟩
      rw [Entries.getD, Entries.get?_insert_self, Option.getD_some, Value.truthy,
        List.isEmpty_eq_false_iff.mpr hne, Bool.not_false, Bool.true_or]
  | false =>
      exact ⟨field, foldRelation_of_no_flat hflat, (Bool.false_or _).symm⟩

/-! ### Loading and editing -/

theorem normalize_of_plain (hkind : (field.getD "kind").truthy = false)
    (htype : field.get? "type" = some (.text type)) (hrelation : HasPlainRelation field)
    (known : KnownNames) :
    ∃ normal, normalize field known = .ok normal ∧
      normal.get? "kind" = some (.text
        (if known.kindFor type = .scalar ∧ bringsRelation field = true then FieldKind.relation
          else known.kindFor type).name) := by
  obtain ⟨folded, hfold, hbrings⟩ := foldRelation_of_plain hrelation
  have hkind' : ¬(folded.getD "kind").truthy = true := by
    rw [Entries.getD, get?_foldRelation hfold (by decide) (by decide)]
    exact Bool.not_eq_true _ ▸ hkind
  have htype' : folded.get? "type" = some (.text type) := by
    rwa [get?_foldRelation hfold (by decide) (by decide)]
  refine ⟨folded.insert "kind" _, ?_, Entries.get?_insert_self⟩
  unfold normalize
  rw [hfold]
  change (if (folded.getD "kind").truthy = true then _ else _ : Except ShapeError Entries) = _
  rw [if_neg hkind', kindOf_of_type htype', hbrings]
  rfl

end RawField

namespace Field

open RawField

variable {data normal : Entries} {known : KnownNames} {type : String}

theorem kind_of_readAs {kind : FieldKind} {m : Entries} {f : Field}
    (h : readAs kind m = .value f) : f.kind = kind := by
  have hcontent := (readAs_eq_value_iff.mp h).2.2.2.2.2.2.2.2
  cases kind <;> obtain ⟨_, -, hc⟩ := Reading.map_eq_value_iff.mp hcontent <;>
    rw [Field.kind, ← hc] <;> rfl

/-- A field with a type in text is built as the kind of its type. -/
theorem build_eq_of_type (hnormal : normalize data {} = .ok normal)
    (htype : data.get? "type" = some (.text type)) :
    build data known = .ok (known.kindFor type, readAs (known.kindFor type) normal) := by
  have htype' : normal.get? "type" = some (.text type) := by
    rwa [get?_normalize hnormal (by decide) (by decide) (by decide)]
  simp only [build, hnormal, htype', kindForType_text, bind, Except.bind]

theorem kind_of_build {kind : FieldKind} {f : Field}
    (htype : data.get? "type" = some (.text type))
    (hbuild : build data known = .ok (kind, .value f)) : f.kind = known.kindFor type := by
  obtain ⟨normal, hnormal, -⟩ := build_eq_ok hbuild
  rw [build_eq_of_type hnormal htype] at hbuild
  exact kind_of_readAs (Prod.mk.inj (Except.ok.inj hbuild)).2

/-- Loading gives a field the kind that building gives it, but for a type that names nothing beside
a relation: that is loaded as a relation and built as a scalar. -/
theorem build_kind_eq_normalize (hkind : (data.getD "kind").truthy = false)
    (htype : data.get? "type" = some (.text type)) (hrelation : HasPlainRelation data)
    (known : KnownNames) :
    ∃ normal, normalize data known = .ok normal ∧
      ∀ kind f, build data known = .ok (kind, .value f) →
        if known.kindFor type = .scalar ∧ bringsRelation data = true then
          f.kind = .scalar ∧ normal.get? "kind" = some (.text FieldKind.relation.name)
        else normal.get? "kind" = some (.text f.kind.name) := by
  obtain ⟨normal, hnormal, hget⟩ := normalize_of_plain hkind htype hrelation known
  refine ⟨normal, hnormal, fun kind f hbuild => ?_⟩
  have hf : f.kind = known.kindFor type := kind_of_build htype hbuild
  split_ifs with hparted
  · rw [if_pos hparted] at hget
    exact ⟨hf.trans hparted.1, hget⟩
  · rwa [if_neg hparted, ← hf] at hget

/-- A field of a user, with the field that refers to it in a flat key. -/
def authorData : Entries := [
  (.text "name", .text "author"), (.text "type", .text "User"),
  (.text "relationFields", .texts ["author_id"])]

theorem authorData_hasPlainRelation : HasPlainRelation authorData := by
  intro v hv
  cases hv

theorem build_kind_eq_normalize_author :
    ∃ normal f, normalize authorData { models := [.text "User"] } = .ok normal ∧
      build authorData { models := [.text "User"] } = .ok (.relation, .value f) ∧
      normal.get? "kind" = some (.text f.kind.name) := by
  let author : Field := {
    name := "author", type := "User"
    content := .relation (some ⟨none, ["author_id"], [], none, none⟩) }
  have htype : authorData.get? "type" = some (.text "User") := rfl
  obtain ⟨normal, hnormal, hkinds⟩ :=
    build_kind_eq_normalize rfl htype authorData_hasPlainRelation { models := [.text "User"] }
  have hbuild : build authorData { models := [.text "User"] } = .ok (.relation, .value author) :=
    rfl
  refine ⟨normal, author, hnormal, hbuild, ?_⟩
  have hkind := hkinds .relation author hbuild
  rwa [if_neg (by decide)] at hkind

/-- Without the user among the names, the field is a relation for the one and a scalar for the
other. -/
theorem build_kind_ne_normalize :
    ¬∀ (data : Entries) (type : String) (known : KnownNames),
      (data.getD "kind").truthy = false → data.get? "type" = some (.text type) →
      HasPlainRelation data →
      ∀ normal kind f, normalize data known = .ok normal →
        build data known = .ok (kind, .value f) → normal.get? "kind" = some (.text f.kind.name) := by
  intro hagree
  let author : Field := { name := "author", type := "User" }
  let loaded : Entries := [
    (.text "name", .text "author"), (.text "type", .text "User"),
    (.text "relation", .map [(.text "fields", .texts ["author_id"])]),
    (.text "kind", .text "relation")]
  have hkind : some (Value.text "relation") = some (.text "scalar") :=
    hagree authorData "User" { models := [.text "Post"], enums := [.text "Role"] } rfl rfl
      authorData_hasPlainRelation loaded .scalar author rfl rfl
  simp at hkind

end Field

end DrawnSchema
