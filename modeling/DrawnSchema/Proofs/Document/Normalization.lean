import DrawnSchema.Proofs.Document.Reading

/-!
# Raw data in order stays as it is

The fields of a raw document are put in order twice: by the document, which knows all names, and
then by each model, which knows none. A field that is in order says its kind and has its relation in
one place. That leaves nothing to do for anyone who comes after, whatever names are known by then.
-/

namespace DrawnSchema

theorem mapM_eq_ok_iff {ε α β : Type} {f : α → Except ε β} {l : List α} {l' : List β} :
    l.mapM f = .ok l' ↔ List.Forall₂ (fun a b => f a = .ok b) l l' := by
  induction l generalizing l' with
  | nil => simp [pure, Except.pure, eq_comm]
  | cons a l ih =>
      rw [List.mapM_cons, bind_eq_ok_iff, List.forall₂_cons_left_iff]
      constructor
      · rintro ⟨b, hb, hrest⟩
        obtain ⟨rest, hrest, hcons⟩ := bind_eq_ok_iff.mp hrest
        exact ⟨b, rest, hb, ih.mp hrest, (Except.ok.inj hcons).symm⟩
      · rintro ⟨b, rest, hb, hrest, rfl⟩
        exact ⟨b, hb, bind_eq_ok_iff.mpr ⟨rest, ih.mpr hrest, rfl⟩⟩

/-- Items that have come of others stay as they are, if whatever comes of an item does. -/
theorem mapM_again {ε α : Type} {f g : α → Except ε α} {l l' : List α}
    (h : List.Forall₂ (fun a b => f a = .ok b) l l') (hagain : ∀ a b, f a = .ok b → g b = .ok b) :
    l'.mapM g = .ok l' := by
  rw [mapM_eq_ok_iff]
  induction h with
  | nil => exact .nil
  | cons hab _ ih => exact .cons (hagain _ _ hab) ih

namespace RawField

variable {field folded normal : Entries} {known : KnownNames}

theorem hasFlatKey_eq_false_iff :
    hasFlatKey field = false ↔ ∀ k ∈ flatKeys, field.get? k.flat = none := by
  simp [hasFlatKey, Entries.has]

/-- A raw field that says its kind and has its relation in one place. -/
structure IsNormal (field : Entries) : Prop where
  says_kind : (field.getD "kind").truthy = true
  no_flat : hasFlatKey field = false

theorem IsNormal.normalize_eq (h : IsNormal field) (known : KnownNames) :
    normalize field known = .ok field := by
  unfold normalize
  rw [foldRelation_of_no_flat h.no_flat]
  exact if_pos h.says_kind

theorem get?_foldKey_eq_none {state : Entries × Entries} {key : String} (k : FlatKey)
    (h : state.1.get? key = none) : (foldKey state k).1.get? key = none := by
  dsimp only [foldKey]
  cases state.1.get? k.flat with
  | none => exact h
  | some v =>
      by_cases heq : key = k.flat
      · rw [heq]
        exact Entries.get?_erase_self
      · rw [Entries.get?_erase_of_ne heq]
        exact h

/-- A flat key is gone once it has been folded. -/
theorem get?_foldl_foldKey_flat {k : FlatKey} (keys : List FlatKey) (state : Entries × Entries)
    (h : k ∈ keys ∨ state.1.get? k.flat = none) :
    (keys.foldl foldKey state).1.get? k.flat = none := by
  induction keys generalizing state with
  | nil => simpa using h
  | cons k' keys ih =>
      rw [List.foldl_cons]
      refine ih _ ?_
      obtain hmem | hnone := h
      · obtain rfl | hmem := List.mem_cons.mp hmem
        · right
          dsimp only [foldKey]
          cases hk : state.1.get? k.flat with
          | none => exact hk
          | some v => exact Entries.get?_erase_self
        · exact Or.inl hmem
      · exact Or.inr (get?_foldKey_eq_none k' hnone)

theorem foldRelation_no_flat (h : foldRelation field = .ok folded) : hasFlatKey folded = false := by
  cases hflat : hasFlatKey field with
  | true =>
      rw [foldRelation, if_pos hflat] at h
      obtain ⟨start, -, hstart⟩ := bind_eq_ok_iff.mp h
      obtain rfl := Except.ok.inj hstart
      refine hasFlatKey_eq_false_iff.mpr fun k hk => ?_
      have hother : k.flat ≠ "relation" := by
        revert k
        decide
      rw [Entries.get?_insert_of_ne hother]
      exact get?_foldl_foldKey_flat flatKeys (field, start) (Or.inl hk)
  | false =>
      rw [foldRelation_of_no_flat hflat] at h
      obtain rfl := Except.ok.inj h
      exact hflat

theorem normalize_isNormal (h : normalize field known = .ok normal) : IsNormal normal := by
  obtain ⟨folded, hfold, hget⟩ := normalize_eq_ok h
  constructor
  · obtain ⟨folded', -, hrest⟩ := bind_eq_ok_iff.mp h
    by_cases htruthy : (folded'.getD "kind").truthy = true
    · rw [if_pos htruthy] at hrest
      obtain rfl := Except.ok.inj hrest
      exact htruthy
    · rw [if_neg htruthy] at hrest
      obtain ⟨kind, -, hkind⟩ := bind_eq_ok_iff.mp hrest
      obtain rfl := Except.ok.inj hkind
      rw [Entries.getD, Entries.get?_insert_self]
      exact FieldKind.truthy_name kind
  · refine hasFlatKey_eq_false_iff.mpr fun k hk => ?_
    have hother : k.flat ≠ "kind" := by
      revert k
      decide
    rw [hget k.flat hother]
    exact hasFlatKey_eq_false_iff.mp (foldRelation_no_flat hfold) k hk

theorem normalizeValue_eq_ok {v w : Value} (h : normalizeValue known v = .ok w) :
    (∃ field normal, v.exposed = .map field ∧ normalize field known = .ok normal ∧
        w = .map normal) ∨
      (∀ field, v.exposed ≠ .map field) ∧ w = v := by
  unfold normalizeValue at h
  split at h
  next field hmap =>
    obtain ⟨normal, hnormal, hw⟩ := bind_eq_ok_iff.mp h
    exact Or.inl ⟨field, normal, hmap, hnormal, (Except.ok.inj hw).symm⟩
  next hmap => exact Or.inr ⟨hmap, (Except.ok.inj h).symm⟩

/-- What comes of putting a value in order, whether it is a field or not, is in order. -/
theorem normalizeValue_again {v w : Value} (h : normalizeValue known v = .ok w)
    (known' : KnownNames) : normalizeValue known' w = .ok w := by
  obtain ⟨field, normal, -, hnormal, rfl⟩ | ⟨hmap, rfl⟩ := normalizeValue_eq_ok h
  · simp only [normalizeValue, Value.exposed_map, (normalize_isNormal hnormal).normalize_eq known']
    rfl
  · unfold normalizeValue
    split
    next heq => exact absurd heq (hmap _)
    next => rfl

end RawField

namespace RawModel

variable {model normal : Entries} {known : KnownNames}

theorem normalizeFields_of_not_list
    (h : ∀ fields, (model.get? "fields").map Value.exposed ≠ some (.list fields)) :
    normalizeFields known model = .ok model := by
  unfold normalizeFields
  split
  next heq => exact absurd heq (h _)
  next => rfl

/-- Putting a model in order is putting its fields in order, if they are a list. -/
theorem normalizeFields_eq_ok (h : normalizeFields known model = .ok normal) :
    (∃ fields fields', (model.get? "fields").map Value.exposed = some (.list fields) ∧
        List.Forall₂ (fun v w => RawField.normalizeValue known v = .ok w) fields fields' ∧
        normal = model.insert "fields" (.list fields')) ∨
      (∀ fields, (model.get? "fields").map Value.exposed ≠ some (.list fields)) ∧
        normal = model := by
  unfold normalizeFields at h
  split at h
  next fields hfields =>
    obtain ⟨fields', hmapped, hnormal⟩ := bind_eq_ok_iff.mp h
    exact Or.inl ⟨fields, fields', hfields, mapM_eq_ok_iff.mp hmapped,
      (Except.ok.inj hnormal).symm⟩
  next hother => exact Or.inr ⟨hother, (Except.ok.inj h).symm⟩

theorem get?_normalizeFields (h : normalizeFields known model = .ok normal) {key : String}
    (hkey : key ≠ "fields") : normal.get? key = model.get? key := by
  obtain ⟨fields, fields', -, -, rfl⟩ | ⟨-, rfl⟩ := normalizeFields_eq_ok h
  · exact Entries.get?_insert_of_ne hkey
  · rfl

theorem normalizeFields_again (h : normalizeFields known model = .ok normal) (known' : KnownNames) :
    normalizeFields known' normal = .ok normal := by
  obtain ⟨fields, fields', -, hfields, rfl⟩ | ⟨hother, rfl⟩ := normalizeFields_eq_ok h
  · have hagain : fields'.mapM (RawField.normalizeValue known') = .ok fields' :=
      mapM_again hfields fun _ _ hw => RawField.normalizeValue_again hw known'
    simp only [normalizeFields, Entries.get?_insert_self, Option.map_some, Value.exposed_list,
      hagain]
    change Except.ok (Entries.insert _ _ _) = _
    rw [Entries.insert_of_get? Entries.get?_insert_self]
  · exact normalizeFields_of_not_list hother

theorem normalizeValue_eq_ok {v w : Value} (h : normalizeValue known v = .ok w) :
    (∃ model normal, v.exposed = .map model ∧ normalizeFields known model = .ok normal ∧
        w = .map normal) ∨
      (∀ model, v.exposed ≠ .map model) ∧ w = v := by
  unfold normalizeValue at h
  split at h
  next model hmap =>
    obtain ⟨normal, hnormal, hw⟩ := bind_eq_ok_iff.mp h
    exact Or.inl ⟨model, normal, hmap, hnormal, (Except.ok.inj hw).symm⟩
  next hmap => exact Or.inr ⟨hmap, (Except.ok.inj h).symm⟩

theorem normalizeValue_again {v w : Value} (h : normalizeValue known v = .ok w)
    (known' : KnownNames) : normalizeValue known' w = .ok w := by
  obtain ⟨model, normal, -, hnormal, rfl⟩ | ⟨hmap, rfl⟩ := normalizeValue_eq_ok h
  · simp only [normalizeValue, Value.exposed_map, normalizeFields_again hnormal known']
    rfl
  · unfold normalizeValue
    split
    next heq => exact absurd heq (hmap _)
    next => rfl

theorem read_of_normalizeFields (h : normalizeFields known model = .ok normal) :
    Model.read (.map normal) = Model.readNormal normal := by
  simp only [Model.read, readRecord, Value.exposed_map, normalizeFields_again h {}, readPrepared]

/-- A model that is in order is read as it stands. -/
theorem read_of_normalized {v w : Value} (h : normalizeValue known v = .ok w) :
    Model.read w = readRecord .model Model.readNormal w := by
  obtain ⟨model, normal, -, hnormal, rfl⟩ | ⟨hmap, rfl⟩ := normalizeValue_eq_ok h
  · rw [read_of_normalizeFields hnormal, readRecord, Value.exposed_map]
  · unfold Model.read readRecord
    split
    next heq => exact absurd heq (hmap _)
    next => rfl

end RawModel

namespace RawDocument

variable {document classified : Entries} {known : KnownNames}

/-- The names of items are told by their records alone. -/
theorem namesOf_congr {items items' : List Value}
    (h : List.Forall₂ (fun v w => w = v ∨ ∃ m n : Entries, v.exposed = .map m ∧
      w.exposed = .map n ∧ n.getD "name" = m.getD "name") items items') :
    namesOf items' = namesOf items := by
  induction h with
  | nil => rfl
  | cons hvw _ ih =>
      obtain rfl | ⟨m, n, hv, hw, hname⟩ := hvw
      · simp only [namesOf, ih]
      · simp only [namesOf, hv, hw, hname, ih]

theorem knownNames_congr {models models' items items' : List Value} {enums enums' : Value}
    (hmodels : namesOf models' = namesOf models) (hitems : itemsOrNone enums = .ok items)
    (hitems' : itemsOrNone enums' = .ok items') (henums : namesOf items' = namesOf items) :
    knownNames models' enums' = knownNames models enums := by
  simp only [knownNames, hmodels, hitems, hitems', bind, Except.bind, henums]

theorem namesOf_normalized {models models' : List Value}
    (h : List.Forall₂ (fun v w => RawModel.normalizeValue known v = .ok w) models models') :
    namesOf models' = namesOf models := by
  refine namesOf_congr (h.imp fun v w hvw => ?_)
  obtain ⟨model, normal, hmodel, hnormal, rfl⟩ | ⟨-, rfl⟩ := RawModel.normalizeValue_eq_ok hvw
  · refine Or.inr ⟨model, normal, hmodel, Value.exposed_map normal, ?_⟩
    rw [Entries.getD, Entries.getD, RawModel.get?_normalizeFields hnormal (by decide)]
  · exact Or.inl rfl

theorem classify_of_not_list
    (h : ∀ models, (document.get? "models").map Value.exposed ≠ some (.list models)) :
    classify document = .ok document := by
  unfold classify
  split
  next heq => exact absurd heq (h _)
  next => rfl

/-- Classifying a document is putting its models in order by the names of them all, if they are a
list. -/
theorem classify_eq_ok (h : classify document = .ok classified) :
    (∃ models models' known, (document.get? "models").map Value.exposed = some (.list models) ∧
        knownNames models (document.getD "enums") = .ok known ∧
        List.Forall₂ (fun v w => RawModel.normalizeValue known v = .ok w) models models' ∧
        classified = document.insert "models" (.list models')) ∨
      (∀ models, (document.get? "models").map Value.exposed ≠ some (.list models)) ∧
        classified = document := by
  unfold classify at h
  split at h
  next models hmodels =>
    obtain ⟨known, hknown, hrest⟩ := bind_eq_ok_iff.mp h
    obtain ⟨models', hmapped, hclassified⟩ := bind_eq_ok_iff.mp hrest
    exact Or.inl ⟨models, models', known, hmodels, hknown, mapM_eq_ok_iff.mp hmapped,
      (Except.ok.inj hclassified).symm⟩
  next hother => exact Or.inr ⟨hother, (Except.ok.inj h).symm⟩

theorem classify_again (h : classify document = .ok classified) :
    classify classified = .ok classified := by
  obtain ⟨models, models', known, -, hknown, hmodels, rfl⟩ | ⟨hother, rfl⟩ := classify_eq_ok h
  · have hagain : models'.mapM (RawModel.normalizeValue known) = .ok models' :=
      mapM_again hmodels fun _ _ hw => RawModel.normalizeValue_again hw known
    have henums : (document.insert "models" (.list models')).getD "enums" =
        document.getD "enums" := by
      rw [Entries.getD, Entries.getD, Entries.get?_insert_of_ne (by decide)]
    have hknown' : knownNames models' (document.getD "enums") = .ok known := by
      rw [knownNames, namesOf_normalized hmodels]
      exact hknown
    simp only [classify, Entries.get?_insert_self, Option.map_some, Value.exposed_list, henums,
      hknown', bind, Except.bind, hagain]
    rw [Entries.insert_of_get? Entries.get?_insert_self]
  · exact classify_of_not_list hother

/-- A field that was put in order says its kind and has no relation keys beside its relation, so
that putting it in order again changes nothing, whatever names are known. A document whose fields
have been classified is classified, and is read as it was, its models as they stand. -/
theorem normalized_again :
    (∀ (field normal : Entries) (known : KnownNames), RawField.normalize field known = .ok normal →
      (normal.getD "kind").truthy = true ∧
        (∀ key ∈ ["relationName", "relationFields", "relationReferences"],
          normal.get? key = none) ∧
        ∀ known', RawField.normalize normal known' = .ok normal) ∧
      ∀ (document classified : Entries), classify document = .ok classified →
        classify classified = .ok classified ∧
          Document.read (.map classified) = Document.read (.map document) ∧
          ∀ models, (classified.get? "models").map Value.exposed = some (.list models) →
            ∀ v ∈ models, Model.read v = readRecord .model Model.readNormal v := by
  refine ⟨fun field normal known hnormal => ?_, fun document classified hclassified => ?_⟩
  · have h : RawField.IsNormal normal := RawField.normalize_isNormal hnormal
    refine ⟨h.says_kind, ?_, h.normalize_eq⟩
    have hflat := RawField.hasFlatKey_eq_false_iff.mp h.no_flat
    simpa [RawField.flatKeys] using hflat
  · have hagain := classify_again hclassified
    refine ⟨hagain, ?_, ?_⟩
    · simp only [Document.read, readRecord, Value.exposed_map, hclassified, hagain]
    · intro models hmodels v hv
      obtain ⟨_, models', known, -, -, hnormal, rfl⟩ | ⟨hother, rfl⟩ := classify_eq_ok hclassified
      · rw [Entries.get?_insert_self, Option.map_some, Value.exposed_list] at hmodels
        obtain rfl := Value.list.inj (Option.some.inj hmodels)
        obtain ⟨raw, hraw⟩ := exists_of_forall₂ hnormal hv
        exact RawModel.read_of_normalized hraw
      · exact absurd hmodels (hother models)

/-- The author of a post, with a kind that is empty and a relation in a flat key beside a null. -/
def looseAuthor : Entries := [
  (.text "name", .text "author"), (.text "type", .text "User"), (.text "kind", .text ""),
  (.text "relation", .null), (.text "relationName", .text "Authorship")]

/-- The same in order, for those who know of users. -/
def settledAuthor : Entries := [
  (.text "name", .text "author"), (.text "type", .text "User"), (.text "kind", .text "relation"),
  (.text "relation", .map [(.text "name", .text "Authorship")])]

/-- Posts of a user, with their authors as they are given. -/
def authorship (author : Entries) : Entries := [
  (.text "models", .list [
    .map [(.text "id", .text "p"), (.text "name", .text "Post"),
      (.text "fields", .list [.map author])],
    .map [(.text "id", .text "u"), (.text "name", .text "User")]])]

/-- An enum of the name of the type makes no difference afterwards, and neither does knowing
nothing. -/
theorem normalized_again_author :
    RawField.normalize looseAuthor { models := [.text "User"] } = .ok settledAuthor ∧
      RawField.normalize settledAuthor { enums := [.text "User"] } = .ok settledAuthor ∧
      RawField.normalize settledAuthor {} = .ok settledAuthor ∧
      classify (authorship looseAuthor) = .ok (authorship settledAuthor) ∧
      Document.read (.map (authorship settledAuthor)) =
        Document.read (.map (authorship looseAuthor)) := by
  have hnormal : RawField.normalize looseAuthor { models := [.text "User"] } =
      .ok settledAuthor := rfl
  have hclassified : classify (authorship looseAuthor) = .ok (authorship settledAuthor) := rfl
  obtain ⟨-, -, hagain⟩ := normalized_again.1 looseAuthor settledAuthor _ hnormal
  obtain ⟨-, hread, -⟩ := normalized_again.2 _ _ hclassified
  exact ⟨hnormal, hagain _, hagain _, hclassified, hread⟩

end RawDocument

end DrawnSchema
