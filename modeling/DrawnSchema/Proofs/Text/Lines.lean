import DrawnSchema.Json.Literal
import DrawnSchema.Number.Shortest
import DrawnSchema.Proofs.Text.Digits
import DrawnSchema.Proofs.Text.Surrogate
import DrawnSchema.Text.Quoted
import Mathlib.Tactic.SplitIfs

/-!
# Lines

What stands between double quotes has no line break of its own, whatever was quoted, and it is read
back from behind the first quote. Numbers are written in one line as well.
-/

namespace DrawnSchema

namespace Text

def IsLine (s : String) : Prop := '\n' ∉ s.toList

instance (s : String) : Decidable (IsLine s) := inferInstanceAs (Decidable (¬ _))

def lines (s : String) : List String := (s.toList.splitOn '\n').map String.ofList

@[simp]
theorem isLine_append {s t : String} : IsLine (s ++ t) ↔ IsLine s ∧ IsLine t := by
  simp [IsLine]

theorem isLine_intercalate {sep : String} {l : List String} (hsep : IsLine sep)
    (hl : ∀ s ∈ l, IsLine s) : IsLine (String.intercalate sep l) := by
  unfold IsLine
  rw [String.toList_intercalate]
  induction l with
  | nil => simp
  | cons s l ih =>
      have hs : '\n' ∉ s.toList := hl s List.mem_cons_self
      have hrest := ih fun t ht => hl t (List.mem_cons_of_mem s ht)
      cases l with
      | nil => simpa using hs
      | cons t l =>
          simp only [List.map_cons, List.intercalate_cons_cons, List.mem_append, not_or]
          exact ⟨⟨hs, hsep⟩, hrest⟩

theorem lines_intercalate {l : List String} (hl : ∀ s ∈ l, IsLine s) (hne : l ≠ []) :
    lines (String.intercalate "\n" l) = l := by
  have hlines : ∀ cs ∈ l.map String.toList, '\n' ∉ cs := by
    intro cs hcs
    obtain ⟨s, hs, rfl⟩ := List.mem_map.mp hcs
    exact hl s hs
  have hsplit : (String.intercalate "\n" l).toList.splitOn '\n' = l.map String.toList := by
    rw [String.toList_intercalate]
    exact List.splitOn_intercalate '\n' hlines (by simpa using hne)
  rw [lines, hsplit, List.map_map]
  simp [Function.comp_def]

/-! ### Quoted texts -/

theorem forall_mem_hexQuad {p : Char → Prop} (h : ∀ k < 16, p (hexDigit k)) (n : Nat) :
    ∀ c ∈ hexQuad n, p c := by
  have hdigit (k : Nat) : p (hexDigit (k % 16)) := h _ (Nat.mod_lt k (by decide))
  simp [hexQuad, hdigit]

theorem le_of_mem_escapeChar (c : Char) : ∀ x ∈ escapeChar c, 0x20 ≤ x.toNat := by
  unfold escapeChar
  split_ifs with h1 h2 h3 h4 h5 h6 h7 hcontrol
  rotate_right 2
  · have hquad : ∀ x ∈ hexQuad c.toNat, 0x20 ≤ x.toNat := forall_mem_hexQuad (by decide) _
    simpa [unicodeEscape] using hquad
  · simpa using hcontrol
  all_goals simp

theorem newline_not_mem_escapeChar (c : Char) : '\n' ∉ escapeChar c := fun hmem =>
  absurd (le_of_mem_escapeChar c _ hmem) (by decide)

theorem isLine_quote (s : String) : IsLine (quote s) := by
  have hbody : '\n' ∉ s.toList.flatMap escapeChar := by
    intro h
    obtain ⟨c, -, hc⟩ := List.mem_flatMap.mp h
    exact newline_not_mem_escapeChar c hc
  simp [IsLine, quote, quoteChars, hbody]

/-! ### Numbers -/

theorem isDecimal_ne_newline {c : Char} (h : isDecimal c = true) : c ≠ '\n' := by
  rintro rfl
  cases h

theorem isLine_repr (n : Nat) : IsLine n.repr := by
  have hdigits : '\n' ∉ Nat.toDigits 10 n := fun hmem =>
    isDecimal_ne_newline (isDecimal_of_mem_toDigits hmem) rfl
  simpa [IsLine, Nat.repr] using hdigits

theorem isLine_toString (n : Int) : IsLine (toString n) := by
  cases n with
  | ofNat m => exact isLine_repr m
  | negSucc m =>
      have hsign : IsLine "-" := by decide
      exact isLine_append.mpr ⟨hsign, isLine_repr (m + 1)⟩

theorem isDecimal_of_mem_shortest {x : Binary64} {c : Char} (h : c ∈ x.shortest.digits) :
    isDecimal c = true := by
  have hdropped := (List.dropWhile_suffix _).mem (List.mem_reverse.mp h)
  exact isDecimal_of_mem_toDigits (List.mem_reverse.mp hdropped)

section Decimals

variable {p : Char → Prop} (hdecimal : ∀ c, isDecimal c = true → p c)
  (hmarks : ∀ c ∈ ['.', 'e', '+', '-'], p c)

include hdecimal hmarks

/-- A decimal is written with its digits, further ones, and four marks. -/
theorem forall_mem_layout {d : Binary64.Decimal} (h : ∀ c ∈ d.digits, p c) :
    ∀ c ∈ d.layout, p c := by
  obtain ⟨hpoint, hmark, hplus, hminus⟩ : p '.' ∧ p 'e' ∧ p '+' ∧ p '-' := by simpa using hmarks
  have hzero : p '0' := hdecimal '0' rfl
  have hexponent : ∀ c ∈ Nat.toDigits 10 (d.point - 1).natAbs, p c :=
    fun c hc => hdecimal c (isDecimal_of_mem_toDigits hc)
  have hdrop (n : Nat) : ∀ c ∈ d.digits.drop n, p c := fun c hc => h c (List.mem_of_mem_drop hc)
  have htake (n : Nat) : ∀ c ∈ d.digits.take n, p c := fun c hc => h c (List.mem_of_mem_take hc)
  unfold Binary64.Decimal.layout
  split
  · have hsign : p (if d.point - 1 < 0 then '-' else '+') := by
      split <;> assumption
    have hpadded : ∀ c ∈ if (Nat.toDigits 10 (d.point - 1).natAbs).length < 2
        then '0' :: Nat.toDigits 10 (d.point - 1).natAbs
        else Nat.toDigits 10 (d.point - 1).natAbs, p c := by
      split
      · exact List.forall_mem_cons.mpr ⟨hzero, hexponent⟩
      · exact hexponent
    refine List.forall_mem_append.mpr ⟨?_, List.forall_mem_cons.mpr
      ⟨hmark, List.forall_mem_cons.mpr ⟨hsign, hpadded⟩⟩⟩
    split
    · simpa using hzero
    all_goals
      rename_i hdigits
      rw [hdigits] at h
      simpa [hpoint] using h
  · split
    · simpa [hzero, hpoint, or_imp, forall_and] using h
    · dsimp only
      split
      · simpa [hzero, hpoint, or_imp, forall_and] using h
      · simpa [hpoint, or_imp, forall_and] using ⟨htake _, hdrop _⟩

theorem forall_mem_finiteText (x : Binary64) : ∀ c ∈ x.finiteText, p c := by
  have hlayout := forall_mem_layout hdecimal hmarks (d := x.shortest)
    fun c hc => hdecimal c (isDecimal_of_mem_shortest hc)
  obtain ⟨hpoint, -, -, hminus⟩ : p '.' ∧ p 'e' ∧ p '+' ∧ p '-' := by simpa using hmarks
  have hzero : p '0' := hdecimal '0' rfl
  unfold Binary64.finiteText
  split_ifs <;> simp_all

end Decimals

theorem isLine_toText (x : Binary64) : IsLine x.toText := by
  have hbody : '\n' ∉ x.finiteText := fun hmem =>
    forall_mem_finiteText (p := (· ≠ '\n')) (fun _ => isDecimal_ne_newline) (by simp) x _ hmem rfl
  unfold Binary64.toText
  split_ifs
  · decide
  · decide
  · decide
  · simpa [IsLine] using hbody

end Text

namespace Json

theorem hexQuad?_hexQuad {n : Nat} (h : n < 0x10000) (rest : List Char) :
    Text.hexQuad? (Text.hexQuad n ++ rest) = some (n, rest) := by
  have hlast (k : Nat) : k % 16 < 16 := Nat.mod_lt k (by decide)
  have hread := Text.hexQuad?_digits (hlast (n / 4096)) (hlast (n / 256)) (hlast (n / 16))
    (hlast n) rest
  have hvalue : ((n / 4096 % 16 * 16 + n / 256 % 16) * 16 + n / 16 % 16) * 16 + n % 16 = n := by
    omega
  rw [hvalue] at hread
  exact hread

theorem length_hexQuad_append_ge {rest : List Char} (h : rest ≠ []) (n : Nat) :
    ¬ (Text.hexQuad n ++ rest).length < 5 := by
  have := List.length_pos_iff.mpr h
  simp only [Text.hexQuad, List.length_append, List.length_cons, List.length_nil]
  omega

/-- An escape of a code that does not begin a pair is read by itself. -/
theorem readEscape_unicode {n : Nat} (h : n < 0x10000) (hhigh : Text.isHighHalf n = false)
    {rest : List Char} (hrest : rest ≠ []) :
    readEscape ('u' :: (Text.hexQuad n ++ rest)) = .ok (Text.ofCode n, rest) := by
  simp only [readEscape, if_neg (length_hexQuad_append_ge hrest n), hexQuad?_hexQuad h, hhigh,
    Bool.false_eq_true, if_false]

theorem readUnit_escapeChar (c : Char) {rest : List Char} (h : rest ≠ []) :
    readUnit (Text.escapeChar c ++ rest) = .ok (some [c], rest) := by
  unfold Text.escapeChar
  split_ifs with h1 h2 h3 h4 h5 h6 h7 h8
  · subst h1; rfl
  · subst h2; rfl
  · subst h3; rfl
  · subst h4; rfl
  · subst h5; rfl
  · subst h6; rfl
  · subst h7; rfl
  · have hhigh : Text.isHighHalf c.toNat = false := by
      simp only [Text.isHighHalf, Bool.and_eq_false_iff, decide_eq_false_iff_not]
      omega
    have hread := readEscape_unicode (by omega) hhigh h
    rw [Text.ofCode_of_lt (by omega), Char.ofNat_toNat] at hread
    simp only [Text.unicodeEscape, List.cons_append, readUnit, hread]
    rfl
  · simp [readUnit, h1, h2, h8]

theorem readBody_of_end {cs rest : List Char} (h : readUnit cs = .ok (none, rest)) :
    readBody cs = .ok ([], rest) := by
  rw [readBody]
  split <;> simp_all

theorem readBody_of_unit {cs rest unit : List Char} (h : readUnit cs = .ok (some unit, rest)) :
    readBody cs = (readBody rest).map fun r => (unit ++ r.1, r.2) := by
  rw [readBody]
  split <;> simp_all

/-- What was quoted is read back. -/
theorem readBody_escaped (cs rest : List Char) :
    readBody (cs.flatMap Text.escapeChar ++ '"' :: rest) = .ok (cs, rest) := by
  induction cs with
  | nil => exact readBody_of_end (by simp [readUnit])
  | cons c cs ih =>
      rw [List.flatMap_cons, List.append_assoc,
        readBody_of_unit (readUnit_escapeChar c (by simp)), ih]
      rfl

theorem readLiteral_quote (s : String) (rest : List Char) :
    readLiteral ((Text.quote s).toList ++ rest) = some (s.toList, rest) := by
  have hread := readBody_escaped s.toList rest
  simp [Text.quote, Text.quoteChars, readLiteral, hread, Except.toOption]

end Json

end DrawnSchema
