import DrawnSchema.Json.Printer
import DrawnSchema.Json.Reader
import DrawnSchema.Proofs.Text.Lines
import Mathlib.Data.List.Chain

/-!
# Texts are read as they were written

Between quotes each code is written in printable ASCII, one beyond sixteen bits as the two halves of
a surrogate pair. A pair of escapes is read as one code. So the codes of a text are read back one by
one, unless the text itself has a first half directly before a second half: these two are written
like the code that they would make up, and read as it.
-/

namespace DrawnSchema

namespace Text

/-- No first half of a surrogate pair is directly before a second half. -/
def Unpaired (ns : List Nat) : Prop :=
  ns.IsChain fun n m => isHighHalf n = true → isLowHalf m = false

instance (ns : List Nat) : Decidable (Unpaired ns) := inferInstanceAs (Decidable (List.IsChain _ _))

/-- A text is made of codes; in this one no two halves meet that would make up a pair. -/
def HasNoPair (s : String) : Prop :=
  ∃ ns, (∀ n ∈ ns, n < 0x110000) ∧ s.toList = ofCodes ns ∧ Unpaired ns

theorem hasNoPair_iff {s : String} :
    HasNoPair s ↔ ofCodes (codes s.toList) = s.toList ∧ Unpaired (codes s.toList) := by
  constructor
  · rintro ⟨ns, hns, hheld, hpair⟩
    have hcodes : codes s.toList = ns := by rw [hheld, codes_ofCodes hns]
    rw [hcodes]
    exact ⟨hheld.symm, hpair⟩
  · rintro ⟨hheld, hpair⟩
    exact ⟨_, lt_of_mem_codes, hheld.symm, hpair⟩

instance (s : String) : Decidable (HasNoPair s) := decidable_of_iff _ hasNoPair_iff.symm

/-! ### What a code is escaped to -/

theorem lt_of_mem_escapeChar {c : Char} (h : c.toNat < 0x7f) :
    ∀ x ∈ escapeChar c, x.toNat < 0x7f := by
  unfold escapeChar
  split_ifs
  rotate_right 2
  · have hquad : ∀ x ∈ hexQuad c.toNat, x.toNat < 0x7f := forall_mem_hexQuad (by decide) _
    simpa [unicodeEscape] using hquad
  · simpa using h
  all_goals simp

def IsPrintable (c : Char) : Prop := 0x20 ≤ c.toNat ∧ c.toNat < 0x7f

instance (c : Char) : Decidable (IsPrintable c) := inferInstanceAs (Decidable (_ ∧ _))

theorem isPrintable_of_decimal {c : Char} (h : isDecimal c = true) : IsPrintable c := by
  simp only [isDecimal, Bool.and_eq_true, decide_eq_true_iff] at h
  have hlow : 48 ≤ c.toNat := h.1
  have hhigh : c.toNat ≤ 57 := h.2
  exact ⟨by omega, by omega⟩

theorem isPrintable_of_mem_unicodeEscape {n : Nat} : ∀ x ∈ unicodeEscape n, IsPrintable x := by
  have hquad : ∀ x ∈ hexQuad n, IsPrintable x := forall_mem_hexQuad (by decide) n
  simpa [unicodeEscape] using ⟨by decide, by decide, hquad⟩

/-- A code is escaped to printable ASCII. -/
theorem isPrintable_of_mem_escapeCode {n : Nat} : ∀ x ∈ escapeCode n, IsPrintable x := by
  unfold escapeCode
  split_ifs with hascii
  · have hvalue : (Char.ofNat n).toNat = n := toNat_ofNat (.inl (by omega))
    intro x hx
    exact ⟨le_of_mem_escapeChar _ x hx, lt_of_mem_escapeChar (by omega) x hx⟩
  · exact isPrintable_of_mem_unicodeEscape
  · intro x hx
    obtain hx | hx := List.mem_append.mp hx
    all_goals exact isPrintable_of_mem_unicodeEscape x hx

/-- An escape begins with four digits of a code, or it is no such escape. Only that of a second half
begins with those of one. -/
theorem escapeCode_cases {n : Nat} (h : n < 0x110000) :
    (∃ k more, k < 0x10000 ∧ (isLowHalf n = false → isLowHalf k = false) ∧
        escapeCode n = unicodeEscape k ++ more) ∨
      (∃ c, c ≠ '\\' ∧ escapeCode n = [c]) ∨ ∃ c, c ≠ 'u' ∧ escapeCode n = ['\\', c] := by
  unfold escapeCode
  split_ifs with hascii hsmall
  · unfold escapeChar
    have hvalue : (Char.ofNat n).toNat = n := toNat_ofNat (.inl (by omega))
    split_ifs with h1 h2
    rotate_right 2
    · exact .inl ⟨n, [], by omega, id, by rw [hvalue, List.append_nil]⟩
    · exact .inr (.inl ⟨_, h2, rfl⟩)
    all_goals exact .inr (.inr ⟨_, by decide, rfl⟩)
  · exact .inl ⟨n, [], hsmall, id, (List.append_nil _).symm⟩
  · refine .inl ⟨_, _, by omega, fun _ => ?_, rfl⟩
    simp only [isLowHalf, Bool.and_eq_false_iff, decide_eq_false_iff_not]
    omega

end Text

namespace Json

/-- What is written for codes, up to the quote at the end. -/
def writtenBody (ns : List Nat) (rest : List Char) : List Char :=
  ns.flatMap Text.escapeCode ++ '"' :: rest

theorem writtenBody_cons (n : Nat) (ns : List Nat) (rest : List Char) :
    writtenBody (n :: ns) rest = Text.escapeCode n ++ writtenBody ns rest := by
  simp [writtenBody]

theorem writtenBody_ne_nil (ns : List Nat) (rest : List Char) : writtenBody ns rest ≠ [] := by
  simp [writtenBody]

/-- A first half that no second half follows stands alone. -/
theorem lowHalf_alone {ns : List Nat} (hns : ∀ n ∈ ns, n < 0x110000)
    (hlow : ∀ m ∈ ns.head?, Text.isLowHalf m = false) (first : Nat) (rest : List Char) :
    lowHalf first (writtenBody ns rest) = .ok (Text.ofCode first, writtenBody ns rest) := by
  cases ns with
  | nil => rfl
  | cons n ns =>
      rw [writtenBody_cons]
      obtain ⟨k, more, hk, hhalf, hescape⟩ | ⟨c, hc, hescape⟩ | ⟨c, hc, hescape⟩ :=
        Text.escapeCode_cases (hns n List.mem_cons_self)
      · have hquad := hexQuad?_hexQuad hk (more ++ writtenBody ns rest)
        rw [hescape]
        simp only [Text.unicodeEscape, List.cons_append, List.append_assoc, lowHalf, hquad,
          hhalf (hlow n rfl), Bool.false_eq_true, if_false, ite_self]
      · rw [hescape]
        simp [lowHalf, hc]
      · rw [hescape]
        simp [lowHalf, hc]

/-- The escapes of two halves are read as the code that they make up. -/
theorem lowHalf_pair {n : Nat} (hlarge : 0x10000 ≤ n) (h : n < 0x110000) {rest : List Char}
    (hrest : rest ≠ []) :
    lowHalf (0xd800 + (n - 0x10000) / 0x400)
        (Text.unicodeEscape (0xdc00 + n % 0x400) ++ rest) = .ok (Text.ofCode n, rest) := by
  have hquad := hexQuad?_hexQuad (n := 0xdc00 + n % 0x400) (by omega) rest
  have hlow : Text.isLowHalf (0xdc00 + n % 0x400) = true := by
    simp only [Text.isLowHalf, Bool.and_eq_true, decide_eq_true_iff]
    omega
  have hvalue : 0x10000 + (0xd800 + (n - 0x10000) / 0x400 - 0xd800) * 0x400 +
      (0xdc00 + n % 0x400 - 0xdc00) = n := by
    omega
  simp only [Text.unicodeEscape, List.cons_append, lowHalf,
    if_neg (length_hexQuad_append_ge hrest _), hquad, hlow, if_true, hvalue]

/-- The escape of a code is read as the code. -/
theorem readUnit_escapeCode {n : Nat} {ns : List Nat} (hn : n < 0x110000)
    (hns : ∀ m ∈ ns, m < 0x110000)
    (hlow : Text.isHighHalf n = true → ∀ m ∈ ns.head?, Text.isLowHalf m = false)
    (rest : List Char) :
    readUnit (Text.escapeCode n ++ writtenBody ns rest) =
      .ok (some (Text.ofCode n), writtenBody ns rest) := by
  have hne := writtenBody_ne_nil ns rest
  unfold Text.escapeCode
  split_ifs with hascii hsmall
  · rw [readUnit_escapeChar _ hne, Text.ofCode_of_lt (by omega)]
  · have hescape : readEscape ('u' :: (Text.hexQuad n ++ writtenBody ns rest)) =
        .ok (Text.ofCode n, writtenBody ns rest) := by
      cases hhigh : Text.isHighHalf n with
      | false => exact readEscape_unicode hsmall hhigh hne
      | true =>
          simp only [readEscape, if_neg (length_hexQuad_append_ge hne n), hexQuad?_hexQuad hsmall,
            hhigh, if_true]
          exact lowHalf_alone hns (hlow hhigh) n rest
    simp only [Text.unicodeEscape, List.cons_append, readUnit, hescape]
    rfl
  · have hescape : readEscape ('u' :: (Text.hexQuad (0xd800 + (n - 0x10000) / 0x400) ++
        (Text.unicodeEscape (0xdc00 + n % 0x400) ++ writtenBody ns rest))) =
        .ok (Text.ofCode n, writtenBody ns rest) := by
      have hhigh : Text.isHighHalf (0xd800 + (n - 0x10000) / 0x400) = true := by
        simp only [Text.isHighHalf, Bool.and_eq_true, decide_eq_true_iff]
        omega
      have hmore : Text.unicodeEscape (0xdc00 + n % 0x400) ++ writtenBody ns rest ≠ [] :=
        List.append_ne_nil_of_right_ne_nil _ hne
      have hquad := hexQuad?_hexQuad (n := 0xd800 + (n - 0x10000) / 0x400) (by omega)
      simp only [readEscape, if_neg (length_hexQuad_append_ge hmore _), hquad, hhigh, if_true]
      exact lowHalf_pair (by omega) hn hne
    rw [List.append_assoc, Text.unicodeEscape]
    simp only [List.cons_append, readUnit, hescape]
    rfl

theorem readBody_writtenBody {ns : List Nat} (hns : ∀ n ∈ ns, n < 0x110000)
    (hpair : Text.Unpaired ns)
    (rest : List Char) :
    readBody (writtenBody ns rest) = .ok (Text.ofCodes ns, rest) := by
  induction ns with
  | nil => exact readBody_of_end (by simp [writtenBody, readUnit])
  | cons n ns ih =>
      have hread := ih (fun m hm => hns m (List.mem_cons_of_mem n hm)) hpair.tail
      have hunit : readUnit (writtenBody (n :: ns) rest) =
          .ok (some (Text.ofCode n), writtenBody ns rest) := by
        rw [writtenBody_cons]
        refine readUnit_escapeCode (hns n List.mem_cons_self)
          (fun m hm => hns m (List.mem_cons_of_mem n hm)) (fun hhigh m hm => ?_) rest
        exact hpair.rel_head? hm hhigh
      rw [readBody_of_unit hunit, hread]
      rfl

/-! ### Whole texts -/

variable {s : String}

theorem toList_quoteAscii_append (s : String) (rest : List Char) :
    (Text.quoteAscii s).toList ++ rest = '"' :: writtenBody (Text.codes s.toList) rest := by
  simp [Text.quoteAscii, writtenBody]

theorem isPrintable_of_mem_quoteAscii :
    ∀ c ∈ (Text.quoteAscii s).toList, Text.IsPrintable c := by
  intro c hc
  simp only [Text.quoteAscii, String.toList_ofList, List.cons_append, List.mem_cons,
    List.mem_append, List.mem_flatMap, List.not_mem_nil, or_false] at hc
  obtain rfl | ⟨n, -, hn⟩ | rfl := hc
  · decide
  · exact Text.isPrintable_of_mem_escapeCode c hn
  · decide

theorem readString_writtenBody (h : Text.HasNoPair s) (rest : List Char) :
    readString (writtenBody (Text.codes s.toList) rest) = .ok (s, rest) := by
  obtain ⟨hheld, hpair⟩ := Text.hasNoPair_iff.mp h
  have hbody := readBody_writtenBody Text.lt_of_mem_codes hpair rest
  simp only [readString, hbody]
  rw [hheld, String.ofList_toList]

theorem readAtom_quoteAscii (h : Text.HasNoPair s) (rest : List Char) :
    readAtom ((Text.quoteAscii s).toList ++ rest) = .ok (.text s, rest) := by
  have hconstant (cs : List Char) : readConstant ('"' :: cs) = none := rfl
  simp only [toList_quoteAscii_append, readAtom, hconstant, readString_writtenBody h]
  rfl

end Json

end DrawnSchema
