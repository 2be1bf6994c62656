import DrawnSchema.Text.Surrogate

/-!
# Texts are held without loss

What holds a text tells its codes, one by one: no code shares what holds it with another, not even a
half of a surrogate pair with a character. So a text without halves is released as it was taken.
-/

namespace DrawnSchema.Text

theorem toNat_ofNat {n : Nat} (h : n.isValidChar) : (Char.ofNat n).toNat = n := by
  rw [Char.ofNat, dif_pos h]
  rfl

theorem isValidChar_iff {n : Nat} :
    n.isValidChar ↔ n < 0x110000 ∧ isHalfCode n = false := by
  simp only [Nat.isValidChar, isHalfCode, isHighHalf, isLowHalf, Bool.or_eq_false_iff,
    Bool.and_eq_false_iff, decide_eq_false_iff_not]
  omega

theorem isHalfCode_iff {n : Nat} : isHalfCode n = true ↔ 0xd800 ≤ n ∧ n < 0xe000 := by
  simp only [isHalfCode, isHighHalf, isLowHalf, Bool.or_eq_true, Bool.and_eq_true,
    decide_eq_true_iff]
  omega

theorem isHalf_iff {c : Char} : isHalf c = true ↔ 0x10d800 ≤ c.toNat ∧ c.toNat < 0x10e000 := by
  rw [isHalf, isHalfCode_iff, halfShift]
  omega

theorem isHalf_of_lt {c : Char} (h : c.toNat < 0x10d800) : isHalf c = false := by
  rw [Bool.eq_false_iff, Ne, isHalf_iff]
  omega

theorem toNat_mark : mark.toNat = 0x10ffff := rfl

theorem ne_mark_of_lt {c : Char} (h : c.toNat < 0x10ffff) : c ≠ mark := by
  intro heq
  rw [heq, toNat_mark] at h
  exact absurd h (by decide)

theorem isHalf_mark : isHalf mark = false := by
  rw [Bool.eq_false_iff, Ne, isHalf_iff, toNat_mark]
  omega

/-! ### One code -/

theorem ofCode_of_lt {n : Nat} (h : n < 0xd800) : ofCode n = [Char.ofNat n] := by
  have hvalue : (Char.ofNat n).toNat = n := toNat_ofNat (.inl h)
  have hcode : ¬ isHalfCode n = true := by
    rw [isHalfCode_iff]
    omega
  have hhalf : ¬ isHalf (Char.ofNat n) = true := by
    rw [isHalf_iff, hvalue]
    omega
  rw [ofCode, if_neg hcode, if_neg hhalf, if_neg (by rw [toNat_mark]; omega)]

/-- A half is held by one character, which counts as a half. -/
theorem ofCode_of_half {n : Nat} (hcode : isHalfCode n = true) :
    ∃ c, ofCode n = [c] ∧ c ≠ mark ∧ codePoint c = n ∧ isHalf c = true := by
  have hrange := isHalfCode_iff.mp hcode
  have hvalue : (Char.ofNat (n + halfShift)).toNat = n + halfShift := by
    apply toNat_ofNat
    simp only [Nat.isValidChar, halfShift]
    omega
  have hhalf : isHalf (Char.ofNat (n + halfShift)) = true := by
    rw [isHalf_iff, hvalue, halfShift]
    omega
  refine ⟨_, if_pos hcode, ne_mark_of_lt ?_, ?_, hhalf⟩
  · rw [hvalue, halfShift]
    omega
  · rw [codePoint, if_pos hhalf, hvalue, Nat.add_sub_cancel]

/-- A character that would be taken for a half is held by another one behind the mark. -/
theorem ofCode_of_taken {n : Nat} (hcode : isHalfCode n = false)
    (hvalue : (Char.ofNat n).toNat = n) (hhalf : isHalf (Char.ofNat n) = true) :
    ∃ d, ofCode n = [mark, d] ∧ markedCode? d = some n ∧ isHalf d = false := by
  have hrange := isHalf_iff.mp hhalf
  rw [hvalue] at hrange
  have hshifted : (Char.ofNat (n + markShift)).toNat = n + markShift := by
    apply toNat_ofNat
    simp only [Nat.isValidChar, markShift]
    omega
  have hne : Char.ofNat (n + markShift) ≠ mark := by
    apply ne_mark_of_lt
    rw [hshifted, markShift]
    omega
  refine ⟨_, by rw [ofCode, if_neg (ne_true_of_eq_false hcode), if_pos hhalf], ?_, ?_⟩
  · rw [markedCode?, if_neg hne, hshifted, Nat.add_sub_cancel, if_pos hhalf]
  · rw [Bool.eq_false_iff, Ne, isHalf_iff, hshifted, markShift]
    omega

theorem ofCode_mark : ofCode mark.toNat = [mark, mark] := by
  decide +kernel

/-- A code is held by one character, or by the mark and another one. -/
theorem ofCode_cases {n : Nat} (h : n < 0x110000) :
    (∃ c, ofCode n = [c] ∧ c ≠ mark ∧ codePoint c = n ∧ isHalf c = isHalfCode n) ∨
      ∃ d, ofCode n = [mark, d] ∧ markedCode? d = some n ∧ isHalf d = false ∧
        isHalfCode n = false := by
  cases hcode : isHalfCode n with
  | true => exact .inl (ofCode_of_half hcode)
  | false =>
      have hvalue : (Char.ofNat n).toNat = n := toNat_ofNat (isValidChar_iff.mpr ⟨h, hcode⟩)
      cases hhalf : isHalf (Char.ofNat n) with
      | true =>
          obtain ⟨d, hheld, hmarked, hwhole⟩ := ofCode_of_taken hcode hvalue hhalf
          exact .inr ⟨d, hheld, hmarked, hwhole, rfl⟩
      | false =>
          by_cases hmark : n = mark.toNat
          · subst hmark
            exact .inr ⟨mark, ofCode_mark, by rw [markedCode?, if_pos rfl], isHalf_mark, rfl⟩
          · refine .inl ⟨Char.ofNat n, ?_, fun heq => hmark (by rw [← heq, hvalue]), ?_, hhalf⟩
            · rw [ofCode, if_neg (ne_true_of_eq_false hcode), if_neg (ne_true_of_eq_false hhalf),
                if_neg hmark]
            · rw [codePoint, if_neg (ne_true_of_eq_false hhalf), hvalue]

theorem codes_cons_of_ne_mark {c : Char} (h : c ≠ mark) (cs : List Char) :
    codes (c :: cs) = codePoint c :: codes cs := by
  cases cs with
  | nil => rfl
  | cons d cs => rw [codes, if_neg h]

theorem codes_mark_cons {d : Char} {n : Nat} (h : markedCode? d = some n) (cs : List Char) :
    codes (mark :: d :: cs) = n :: codes cs := by
  rw [codes, if_pos rfl, h]

/-- What holds a code tells the code, whatever comes after it. -/
theorem codes_ofCode_append {n : Nat} (h : n < 0x110000) (cs : List Char) :
    codes (ofCode n ++ cs) = n :: codes cs := by
  obtain ⟨c, hheld, hne, hcode, -⟩ | ⟨d, hheld, hcode, -⟩ := ofCode_cases h
  · rw [hheld, List.singleton_append, codes_cons_of_ne_mark hne, hcode]
  · rw [hheld]
    exact codes_mark_cons hcode cs

/-- Only a half is held by what counts as a half. -/
theorem any_isHalf_ofCode {n : Nat} (h : n < 0x110000) :
    (ofCode n).any isHalf = isHalfCode n := by
  obtain ⟨c, hheld, -, -, hhalf⟩ | ⟨d, hheld, -, hhalf, hnone⟩ := ofCode_cases h
  · simp [hheld, hhalf]
  · simp [hheld, hhalf, isHalf_mark, hnone]

/-! ### Whole texts -/

/-- What holds a text tells its codes. -/
theorem codes_ofCodes {ns : List Nat} (h : ∀ n ∈ ns, n < 0x110000) : codes (ofCodes ns) = ns := by
  induction ns with
  | nil => rfl
  | cons n ns ih =>
      rw [ofCodes, List.flatMap_cons, codes_ofCode_append (h n List.mem_cons_self)]
      exact congrArg (n :: ·) (ih fun k hk => h k (List.mem_cons_of_mem n hk))

theorem toNat_lt (c : Char) : c.toNat < 0x110000 := (isValidChar_iff.mp c.valid).1

theorem codePoint_le (c : Char) : codePoint c ≤ c.toNat := by
  unfold codePoint
  split <;> omega

theorem markedCode?_lt {c : Char} {n : Nat} (h : markedCode? c = some n) : n < 0x110000 := by
  have hvalid := toNat_lt c
  unfold markedCode? at h
  split at h
  · have hn := Option.some.inj h
    have hmark := toNat_lt mark
    omega
  · split at h
    · have hn := Option.some.inj h
      omega
    · cases h

theorem lt_of_mem_codes {cs : List Char} : ∀ n ∈ codes cs, n < 0x110000 := by
  have hcode (c : Char) : codePoint c < 0x110000 :=
    Nat.lt_of_le_of_lt (codePoint_le c) (toNat_lt c)
  fun_induction codes cs with
  | case1 => simp
  | case2 c => simpa using hcode c
  | case3 c d cs n hmarked ih =>
      have hn : n < 0x110000 := by
        split at hmarked
        · exact markedCode?_lt hmarked
        · cases hmarked
      exact List.forall_mem_cons.mpr ⟨hn, ih⟩
  | case4 c d cs hmarked ih => exact List.forall_mem_cons.mpr ⟨hcode c, ih⟩

theorem lt_of_mem_map_toNat {cs : List Char} : ∀ n ∈ cs.map Char.toNat, n < 0x110000 := by
  intro n hn
  obtain ⟨c, -, rfl⟩ := List.mem_map.mp hn
  exact toNat_lt c

/-- A text of characters is released as it was taken. -/
theorem release_hold (cs : List Char) : release (hold cs) = cs := by
  rw [release, hold, codes_ofCodes lt_of_mem_map_toNat, List.map_map]
  exact (List.map_congr_left fun c _ => Char.ofNat_toNat c).trans (List.map_id cs)

theorem released_held (s : String) : released (held s) = s := by
  simp [released, held, release_hold]

/-- A text of characters has no halves, be its characters those that stand for halves. -/
theorem isWhole_held (s : String) : isWhole (held s) = true := by
  have hnone : (hold s.toList).any isHalf = false := by
    simp only [hold, ofCodes, List.flatMap_map, List.any_flatMap, List.any_eq_false]
    intro c _
    have hvalid := isValidChar_iff.mp c.valid
    have hcode : (ofCode c.toNat).any isHalf = false :=
      (any_isHalf_ofCode hvalid.1).trans hvalid.2
    simp [hcode]
  simp [isWhole, held, hnone]

theorem octets_held (s : String) : octets (held s) = s.toUTF8.data.toList := by
  rw [octets, released_held]

/-! ### Texts without private characters -/

theorem hold_of_lt {cs : List Char} (h : ∀ c ∈ cs, c.toNat < 0xd800) : hold cs = cs := by
  induction cs with
  | nil => rfl
  | cons c cs ih =>
      have hrest := ih fun d hd => h d (List.mem_cons_of_mem c hd)
      rw [hold, ofCodes] at hrest
      rw [hold, ofCodes, List.map_cons, List.flatMap_cons, hrest,
        ofCode_of_lt (h c List.mem_cons_self), Char.ofNat_toNat, List.singleton_append]

theorem held_of_lt {s : String} (h : ∀ c ∈ s.toList, c.toNat < 0xd800) : held s = s := by
  rw [held, hold_of_lt h, String.ofList_toList]

end DrawnSchema.Text
