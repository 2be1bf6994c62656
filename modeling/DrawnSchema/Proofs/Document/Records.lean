import DrawnSchema.Proofs.Document.Normalization

/-!
# The records of a list

What is read from a list of records is read from them one by one, in their order, and a document
that is put in order has its records in the same places. So each model that is read has a raw model
of its own, and each of its fields a raw field.
-/

namespace DrawnSchema

/-- The entries of a value, if it is a map. -/
def Value.entries? (v : Value) : Option Entries :=
  match v.exposed with
  | .map m => some m
  | _ => none

theorem Value.entries?_eq_some_iff {v : Value} {m : Entries} :
    v.entries? = some m ↔ v.exposed = .map m := by
  unfold entries?
  split
  next m' hm => simp [hm]
  next hm => simpa using hm m

theorem Value.entries?_eq_none_iff {v : Value} : v.entries? = none ↔ ∀ m, v.exposed ≠ .map m := by
  simp only [Option.eq_none_iff_forall_ne_some, ne_eq, entries?_eq_some_iff]

namespace Entries

/-- The records in the list under a key. -/
def records (m : Entries) (key : String) : List Entries :=
  ((m.getD key).items?.getD []).filterMap Value.entries?

/-- The names of the records in the list under a key, as they are given. -/
def names (m : Entries) (key : String) : List Value :=
  (m.records key).map fun entries => entries.getD "name"

variable {m m' : Entries} {key : String}

theorem records_congr (h : m'.get? key = m.get? key) : m'.records key = m.records key := by
  rw [records, records, getD, getD, h]

theorem exposed_getD_eq_list_iff {items : List Value} :
    (m.getD key).exposed = .list items ↔
      (m.get? key).map Value.exposed = some (.list items) := by
  unfold getD
  cases m.get? key <;> simp

theorem records_of_list {items : List Value}
    (h : (m.get? key).map Value.exposed = some (.list items)) :
    m.records key = items.filterMap Value.entries? := by
  simp only [records, Value.items?, exposed_getD_eq_list_iff.mpr h, Option.getD_some]

theorem records_insert_list (m : Entries) (key : String) (items : List Value) :
    (m.insert key (.list items)).records key = items.filterMap Value.entries? :=
  records_of_list (by rw [get?_insert_self, Option.map_some, Value.exposed_list])

/-- Apart from a list, only a pair has records. -/
theorem records_eq_nil (hlist : ∀ items, (m.get? key).map Value.exposed ≠ some (.list items))
    (hpair : ∀ a b, (m.getD key).exposed ≠ .pair a b) : m.records key = [] := by
  unfold records Value.items?
  split
  next items hitems => exact absurd (exposed_getD_eq_list_iff.mp hitems) (hlist items)
  next a b hab => exact absurd hab (hpair a b)
  next members _ =>
    rw [Option.getD_some, List.filterMap_eq_nil_iff]
    intro w hw
    obtain ⟨s, -, rfl⟩ := List.mem_map.mp hw
    rfl
  next => rfl

end Entries

/-! ### Reading records -/

section Reading

variable {α : Type}

/-- Nothing but records can be read, and they are read by their entries. -/
def ReadsRecords (read : Value → Reading α) : Prop :=
  ∀ v a, read v = .value a → ∃ m, v.exposed = .map m ∧ read (.map m) = .value a

theorem readsRecords_readRecord (type : RecordType) (read : Entries → Reading α) :
    ReadsRecords (readRecord type read) := by
  intro v a h
  obtain ⟨m, hm, hread⟩ := readRecord_eq_value_iff.mp h
  exact ⟨m, hm, readRecord_eq_value_iff.mpr ⟨m, Value.exposed_map m, hread⟩⟩

theorem readsRecords_model : ReadsRecords Model.read :=
  readsRecords_readRecord _ _

theorem readsRecords_enumeration : ReadsRecords Enumeration.read :=
  readsRecords_readRecord _ _

theorem readsRecords_field : ReadsRecords Field.read := by
  intro v f h
  unfold Field.read at h
  split at h
  next m hm =>
    refine ⟨m, hm, ?_⟩
    rw [Field.read, Value.exposed_map]
    exact h
  next => cases h

theorem ReadsRecords.forall₂ {read : Value → Reading α} (hread : ReadsRecords read)
    {items : List Value} {l : List α} (h : List.Forall₂ (fun v a => read v = .value a) items l) :
    List.Forall₂ (fun entries a => read (.map entries) = .value a)
      (items.filterMap Value.entries?) l := by
  induction h with
  | nil => exact .nil
  | cons hv _ ih =>
      obtain ⟨entries, hentries, ha⟩ := hread _ _ hv
      rw [List.filterMap_cons_some (Value.entries?_eq_some_iff.mpr hentries)]
      exact .cons ha ih

/-- What is read from a list under a key is read from its records. -/
theorem forall₂_records {m : Entries} {key : String} {read : Value → Reading α} {l : List α}
    (hread : ReadsRecords read) (h : m.withDefault (.plain key) [] (readList read) = .value l) :
    List.Forall₂ (fun entries a => read (.map entries) = .value a) (m.records key) l := by
  rw [Entries.withDefault_plain_eq_value_iff] at h
  unfold Entries.records Entries.getD
  cases hv : m.get? key with
  | none =>
      rw [hv] at h
      obtain rfl : [] = l := h
      exact .nil
  | some v =>
      rw [hv] at h
      obtain ⟨items, hitems, hall⟩ := forall₂_of_readList h
      rw [Option.getD_some, hitems, Option.getD_some]
      exact hread.forall₂ hall

end Reading

/-! ### Records put in order -/

section Normal

variable {known : KnownNames} {model normal document classified : Entries}

theorem forall₂_trans {α β γ : Type} {R : α → β → Prop} {S : β → γ → Prop} {T : α → γ → Prop}
    {as : List α} {bs : List β} {cs : List γ} (hab : List.Forall₂ R as bs)
    (hbc : List.Forall₂ S bs cs) (h : ∀ a b c, R a b → S b c → T a c) : List.Forall₂ T as cs := by
  induction hab generalizing cs with
  | nil =>
      obtain rfl := List.forall₂_nil_left_iff.mp hbc
      exact .nil
  | cons ha _ ih =>
      obtain ⟨c, cs, hc, hrest, rfl⟩ := List.forall₂_cons_left_iff.mp hbc
      exact .cons (h _ _ _ ha hc) (ih hrest)

theorem RawField.entries?_of_normalizeValue {v w : Value} (h : normalizeValue known v = .ok w) :
    Option.Rel (fun field normal => normalize field known = .ok normal) v.entries? w.entries? := by
  obtain ⟨field, normal, hfield, hnormal, rfl⟩ | ⟨hmap, rfl⟩ := normalizeValue_eq_ok h
  · rw [Value.entries?_eq_some_iff.mpr hfield]
    exact .some hnormal
  · rw [Value.entries?_eq_none_iff.mpr hmap]
    exact .none

theorem RawModel.entries?_of_normalizeValue {v w : Value} (h : normalizeValue known v = .ok w) :
    Option.Rel (fun model normal => normalizeFields known model = .ok normal)
      v.entries? w.entries? := by
  obtain ⟨model, normal, hmodel, hnormal, rfl⟩ | ⟨hmap, rfl⟩ := normalizeValue_eq_ok h
  · rw [Value.entries?_eq_some_iff.mpr hmodel]
    exact .some hnormal
  · rw [Value.entries?_eq_none_iff.mpr hmap]
    exact .none

/-- The fields of a model are put in order one by one, or all left as they are. -/
theorem RawModel.forall₂_fields (h : normalizeFields known model = .ok normal) :
    List.Forall₂ (fun field field' => RawField.normalize field known = .ok field' ∨ field' = field)
      (model.records "fields") (normal.records "fields") := by
  obtain ⟨fields, fields', hfields, hnormal, rfl⟩ | ⟨-, rfl⟩ := normalizeFields_eq_ok h
  · rw [Entries.records_of_list hfields, Entries.records_insert_list]
    have hrecords := List.rel_filterMap
      (fun {_ _} hvw => RawField.entries?_of_normalizeValue hvw) hnormal
    exact hrecords.imp fun _ _ => Or.inl
  · exact List.forall₂_same.mpr fun _ _ => Or.inr rfl

theorem hashable_eq_ok_iff {v : Value} {s : Scalar} : v.hashable = .ok s ↔ v = .scalar s := by
  cases v <;> simp [Value.hashable]

theorem RawDocument.names_of_namesOf {items : List Value} {names : List Scalar}
    (h : namesOf items = .ok names) :
    names.map Value.scalar = (items.filterMap Value.entries?).map fun m => m.getD "name" := by
  induction items generalizing names with
  | nil =>
      obtain rfl := Except.ok.inj h
      rfl
  | cons v items ih =>
      rw [namesOf] at h
      split at h
      next m hm =>
        obtain ⟨name, hname, hrest⟩ := bind_eq_ok_iff.mp h
        obtain ⟨rest, hnames, hcons⟩ := bind_eq_ok_iff.mp hrest
        obtain rfl := Except.ok.inj hcons
        rw [List.filterMap_cons_some (Value.entries?_eq_some_iff.mpr hm), List.map_cons,
          List.map_cons, ih hnames, hashable_eq_ok_iff.mp hname]
      next hm =>
        rw [List.filterMap_cons_none (Value.entries?_eq_none_iff.mpr hm), ih h]

theorem Value.filterMap_entries?_scalars {α : Type} (f : α → Scalar) (l : List α) :
    (l.map fun a => .scalar (f a)).filterMap entries? = [] := by
  simp [List.filterMap_map, Function.comp_def, entries?]

/-- Going through a value comes across the records that a list of them is read from, and no
others. -/
theorem Value.records_of_iterate {v : Value} {items : List Value} (h : v.iterate = .ok items) :
    items.filterMap entries? = (v.items?.getD []).filterMap entries? := by
  unfold iterate at h
  unfold items?
  split at h
  next items' hv =>
    obtain rfl := Except.ok.inj h
    simp only [hv, Option.getD_some]
  next a b hv =>
    obtain rfl := Except.ok.inj h
    simp only [hv, Option.getD_some]
  next entries hv =>
    obtain rfl := Except.ok.inj h
    simp only [hv]
    exact filterMap_entries?_scalars Prod.fst entries
  next members hv =>
    obtain rfl := Except.ok.inj h
    simp only [hv, Option.getD_some]
  next s hv =>
    obtain rfl := Except.ok.inj h
    simp only [hv]
    exact filterMap_entries?_scalars (fun n => .text (String.ofList (Text.ofCode n)))
      (Text.codes s.toList)
  next octets hv =>
    obtain rfl := Except.ok.inj h
    simp only [hv]
    exact filterMap_entries?_scalars (fun b => .int b.toNat) octets
  next => cases h

theorem Value.records_of_not_truthy {v : Value} (h : ¬v.truthy = true) :
    (v.items?.getD []).filterMap entries? = [] := by
  cases v with
  | scalar s => rfl
  | list items =>
      obtain rfl : items = [] := by simpa [truthy] using h
      rfl
  | pair a b => exact absurd rfl h
  | map entries => rfl
  | set members => exact filterMap_entries?_scalars id members
  | loop label body => exact absurd rfl h

theorem RawDocument.records_of_itemsOrNone {key : String} {items : List Value}
    (h : itemsOrNone (document.getD key) = .ok items) :
    items.filterMap Value.entries? = document.records key := by
  unfold itemsOrNone at h
  unfold Entries.records
  by_cases htruthy : (document.getD key).truthy = true
  · rw [if_pos htruthy] at h
    exact Value.records_of_iterate h
  · rw [if_neg htruthy] at h
    obtain rfl := Except.ok.inj h
    rw [Value.records_of_not_truthy htruthy, List.filterMap_nil]

theorem RawDocument.knownNames_eq_ok {models : List Value} {enums : Value}
    (h : knownNames models enums = .ok known) :
    namesOf models = .ok known.models ∧
      ∃ items, itemsOrNone enums = .ok items ∧ namesOf items = .ok known.enums := by
  obtain ⟨modelNames, hmodels, hrest⟩ := bind_eq_ok_iff.mp h
  obtain ⟨items, hitems, hrest⟩ := bind_eq_ok_iff.mp hrest
  obtain ⟨enumNames, henums, hknown⟩ := bind_eq_ok_iff.mp hrest
  obtain rfl := Except.ok.inj hknown
  exact ⟨hmodels, items, hitems, henums⟩

/-- The models of a document are put in order one by one, by the names in it as they are given. -/
theorem RawDocument.forall₂_models (h : classify document = .ok classified)
    (hmodels : ∀ a b, (document.getD "models").exposed ≠ .pair a b) :
    document.records "models" = [] ∧ classified = document ∨
    ∃ known : KnownNames, known.models.map .scalar = document.names "models" ∧
      known.enums.map .scalar = document.names "enums" ∧
      List.Forall₂ (fun model model' => RawModel.normalizeFields known model = .ok model')
        (document.records "models") (classified.records "models") := by
  obtain ⟨models, models', known, hlist, hknown, hnormal, rfl⟩ | ⟨hlist, rfl⟩ := classify_eq_ok h
  · obtain ⟨hnames, enums, henums, henumNames⟩ := knownNames_eq_ok hknown
    refine Or.inr ⟨known, ?_, ?_, ?_⟩
    · rw [Entries.names, Entries.records_of_list hlist]
      exact names_of_namesOf hnames
    · rw [Entries.names, ← records_of_itemsOrNone henums]
      exact names_of_namesOf henumNames
    · rw [Entries.records_of_list hlist, Entries.records_insert_list]
      exact List.rel_filterMap (fun {_ _} hvw => RawModel.entries?_of_normalizeValue hvw) hnormal
  · exact Or.inl ⟨Entries.records_eq_nil hlist hmodels, rfl⟩

end Normal

end DrawnSchema
