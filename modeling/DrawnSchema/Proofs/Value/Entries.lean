import DrawnSchema.Reading

/-!
# Looking up a text key

What is at a key after a map was changed at another one, or at the same one.
-/

namespace DrawnSchema

namespace Scalar

@[simp]
theorem sameKey_text {a : Scalar} {s : String} : a.sameKey (.text s) = true ↔ a = .text s := by
  cases a <;> simp [sameKey, asInt?]

@[simp]
theorem text_sameKey {a : Scalar} {s : String} :
    (Scalar.text s).sameKey a = true ↔ a = .text s := by
  cases a <;> simp [sameKey, asInt?, eq_comm (a := s)]

@[simp]
theorem sameKey_bytes {a : Scalar} {octets : List UInt8} :
    a.sameKey (.bytes octets) = true ↔ a = .bytes octets := by
  cases a <;> simp [sameKey, asInt?]

end Scalar

namespace Entries

variable {m : Entries} {key other : String} {v : Value}

@[simp]
theorem get?_nil : get? [] key = none := rfl

theorem get?_cons (e : Scalar × Value) :
    get? (e :: m) key = if e.1 = .text key then some e.2 else m.get? key := by
  unfold get?
  rw [List.find?_cons]
  by_cases he : e.1 = .text key
  · rw [if_pos he, he]
    simp
  · rw [if_neg he, beq_false_of_ne he]

theorem getD_of_get? (h : m.get? key = some v) : m.getD key = v := by
  rw [getD, h, Option.getD_some]

theorem getD_eq_text_iff {s : String} : m.getD key = .text s ↔ m.get? key = some (.text s) := by
  rw [getD]
  cases m.get? key <;> simp

theorem mem_of_get? (h : m.get? key = some v) : (.text key, v) ∈ m := by
  induction m with
  | nil => cases h
  | cons e m ih =>
      rw [get?_cons] at h
      by_cases he : e.1 = .text key
      · rw [if_pos he] at h
        obtain rfl := Option.some.inj h
        rw [← he]
        exact List.mem_cons_self
      · rw [if_neg he] at h
        exact List.mem_cons_of_mem e (ih h)

theorem get?_erase_of_ne (hne : key ≠ other) : (m.erase other).get? key = m.get? key := by
  unfold erase
  induction m with
  | nil => rfl
  | cons e m ih =>
      by_cases he : e.1 = .text other
      · have hkey : e.1 ≠ .text key := by
          rw [he]
          simpa using hne.symm
        rw [List.filter_cons_of_neg (by simp [he]), ih, get?_cons, if_neg hkey]
      · rw [List.filter_cons_of_pos (by simp [he]), get?_cons, get?_cons, ih]

theorem get?_erase_self : (m.erase key).get? key = none := by
  unfold erase
  induction m with
  | nil => rfl
  | cons e m ih =>
      by_cases he : e.1 = .text key
      · rw [List.filter_cons_of_neg (by simp [he]), ih]
      · rw [List.filter_cons_of_pos (by simp [he]), get?_cons, if_neg he, ih]

theorem get?_insert_of_ne (hne : key ≠ other) : (m.insert other v).get? key = m.get? key := by
  have hother : Scalar.text other ≠ .text key := by simpa using hne.symm
  induction m with
  | nil => rw [insert, get?_cons, if_neg hother]
  | cons e m ih =>
      rw [insert]
      by_cases he : e.1 = .text other
      · rw [if_pos (by simp [he]), get?_cons, get?_cons, he, if_neg hother, if_neg hother]
      · rw [if_neg (by simp [he]), get?_cons, get?_cons, ih]

theorem get?_insert_self : (m.insert key v).get? key = some v := by
  induction m with
  | nil => rw [insert, get?_cons, if_pos rfl]
  | cons e m ih =>
      rw [insert]
      by_cases he : e.1 = .text key
      · rw [if_pos (by simp [he]), get?_cons, if_pos he]
      · rw [if_neg (by simp [he]), get?_cons, if_neg he, ih]

/-- Setting a key to what it has already. -/
theorem insert_of_get? (h : m.get? key = some v) : m.insert key v = m := by
  induction m with
  | nil => cases h
  | cons e m ih =>
      rw [get?_cons] at h
      rw [insert]
      by_cases he : e.1 = .text key
      · rw [if_pos he] at h
        obtain rfl := Option.some.inj h
        rw [if_pos (beq_iff_eq.mpr he)]
      · rw [if_neg he] at h
        rw [if_neg (mt beq_iff_eq.mp he), ih h]

theorem insertNew_ne_nil : m.insertNew key v ≠ [] := by
  unfold insertNew
  by_cases hhas : m.has key = true
  · rw [if_pos hhas]
    rintro rfl
    cases hhas
  · rw [if_neg hhas]
    exact List.append_ne_nil_of_right_ne_nil m (List.cons_ne_nil _ _)

/-- A key replaces the one that counts as the same; a text counts as the same as itself only. -/
theorem get?_insertScalar (k : Scalar) :
    (m.insertScalar k v).get? key = if k = .text key then some v else m.get? key := by
  induction m with
  | nil => rw [insertScalar, get?_cons]
  | cons e m ih =>
      rw [insertScalar]
      by_cases hk : k = .text key
      · subst hk
        by_cases he : e.1 = .text key
        · simp [he, get?_cons]
        · simp [he, get?_cons, ih]
      · by_cases hsame : e.1.sameKey k = true
        · have hkey : e.1 ≠ .text key := by
            intro he
            rw [he, Scalar.text_sameKey] at hsame
            exact hk hsame
          rw [if_pos hsame, get?_cons, get?_cons, if_neg hkey, if_neg hkey, if_neg hk]
        · rw [if_neg hsame, get?_cons, get?_cons, ih, if_neg hk, if_neg hk]

theorem insertScalar_of_fresh (h : .text key ∉ m.map Prod.fst) :
    m.insertScalar (.text key) v = m ++ [(.text key, v)] := by
  induction m with
  | nil => rfl
  | cons e m ih =>
      rw [List.map_cons, List.mem_cons, not_or] at h
      have hne : ¬ e.1.sameKey (.text key) = true := by
        rw [Scalar.sameKey_text]
        exact Ne.symm h.1
      rw [insertScalar, if_neg hne, ih h.2, List.cons_append]

theorem foldl_insertScalar_of_distinct {before : Entries}
    (hkeys : ∀ k ∈ m.map Prod.fst, ∃ key, k = .text key)
    (hdistinct : ((before ++ m).map Prod.fst).Nodup) :
    m.foldl (fun m e => insertScalar m e.1 e.2) before = before ++ m := by
  induction m generalizing before with
  | nil => exact (List.append_nil before).symm
  | cons e m ih =>
      obtain ⟨k, v⟩ := e
      obtain ⟨key, rfl⟩ := hkeys k (by simp)
      have hfresh : .text key ∉ before.map Prod.fst := by
        rw [List.map_append, List.nodup_append] at hdistinct
        exact fun hmem => hdistinct.2.2 _ hmem _ List.mem_cons_self rfl
      rw [List.append_cons] at hdistinct
      rw [List.foldl_cons, insertScalar_of_fresh hfresh,
        ih (fun k hk => hkeys k (List.mem_cons_of_mem _ hk)) hdistinct, ← List.append_cons]

/-- Entries at texts that are distinct stay as they are. -/
theorem ofList_of_distinct (hkeys : ∀ k ∈ m.map Prod.fst, ∃ key, k = .text key)
    (hdistinct : (m.map Prod.fst).Nodup) : ofList m = m :=
  foldl_insertScalar_of_distinct hkeys hdistinct

/-- The preferred spelling of an attribute comes before the others. -/
theorem pick_of_head {k : Key} {others : List String} (hk : k.accepted = key :: others)
    (hv : m.get? key = some v) : m.pick k = some (key, v) := by
  rw [pick, hk, List.findSome?_cons, hv, Option.map_some]

theorem withDefault_of_head {α : Type} {k : Key} {others : List String} {read : Value → Reading α}
    (hk : k.accepted = key :: others) (hv : m.get? key = some v) (default : α) :
    m.withDefault k default read = (read v).under (.key key) := by
  rw [withDefault, pick_of_head hk hv]

theorem pick_plain (m : Entries) (name : String) :
    m.pick (.plain name) = (m.get? name).map fun v => (name, v) := by
  simp [pick, Key.plain]

end Entries

end DrawnSchema
