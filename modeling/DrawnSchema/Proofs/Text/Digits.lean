import DrawnSchema.Text.Digits
import Mathlib.Data.List.Basic
import Mathlib.Tactic.Ring

/-!
# Digits tell the number that they were written for

The digits of a number are worth the number, and the first of them is no zero unless the number is
zero. Zeros before digits change nothing, and zeros behind them count in powers of the base.
-/

namespace DrawnSchema.Text

theorem digitValue_digitChar {n : Nat} (h : n < 16) : digitValue (Nat.digitChar n) = n := by
  revert n
  decide

theorem isHex_digitChar {n : Nat} (h : n < 16) : isHex (Nat.digitChar n) = true := by
  revert n
  decide

/-! ### What digits are worth -/

theorem foldl_digits (base start : Nat) (ds : List Char) :
    ds.foldl (fun n c => n * base + digitValue c) start =
      start * base ^ ds.length + digitsValue base ds := by
  induction ds generalizing start with
  | nil => simp [digitsValue]
  | cons d ds ih =>
      rw [digitsValue, List.foldl_cons, List.foldl_cons, ih, ih (0 * base + _), List.length_cons]
      ring

theorem digitsValue_cons (base : Nat) (d : Char) (ds : List Char) :
    digitsValue base (d :: ds) = digitValue d * base ^ ds.length + digitsValue base ds := by
  rw [digitsValue, List.foldl_cons, foldl_digits]
  simp

theorem digitsValue_append (base : Nat) (ds more : List Char) :
    digitsValue base (ds ++ more) =
      digitsValue base ds * base ^ more.length + digitsValue base more := by
  rw [digitsValue, List.foldl_append, foldl_digits]
  rfl

theorem digitsValue_zeros (base count : Nat) :
    digitsValue base (List.replicate count '0') = 0 := by
  induction count with
  | zero => rfl
  | succ count ih =>
      have hzero : digitValue '0' = 0 := rfl
      rw [List.replicate_succ, digitsValue_cons, ih, hzero, Nat.zero_mul]

/-- Zeros before digits change nothing. -/
theorem digitsValue_zeros_append (base count : Nat) (ds : List Char) :
    digitsValue base (List.replicate count '0' ++ ds) = digitsValue base ds := by
  rw [digitsValue_append, digitsValue_zeros, Nat.zero_mul, Nat.zero_add]

/-- Zeros behind digits count in powers of the base. -/
theorem digitsValue_append_zeros (base count : Nat) (ds : List Char) :
    digitsValue base (ds ++ List.replicate count '0') = digitsValue base ds * base ^ count := by
  rw [digitsValue_append, digitsValue_zeros, List.length_replicate, Nat.add_zero]

/-! ### The digits of a number -/

theorem isDecimal_of_mem_toDigits {n : Nat} {c : Char} (h : c ∈ Nat.toDigits 10 n) :
    isDecimal c = true :=
  Nat.isDigit_of_mem_toDigits (by decide) (by decide) h

theorem toDigits_split {n : Nat} (h : 10 ≤ n) :
    Nat.toDigits 10 n = Nat.toDigits 10 (n / 10) ++ [Nat.digitChar (n % 10)] := by
  have hlast : n % 10 < 10 := Nat.mod_lt n (by decide)
  have hsplit := Nat.toDigits_append_toDigits (b := 10) (n := n / 10) (by decide) (by omega) hlast
  rw [Nat.div_add_mod, Nat.toDigits_of_lt_base hlast] at hsplit
  exact hsplit.symm

theorem digitsValue_toDigits (n : Nat) : digitsValue 10 (Nat.toDigits 10 n) = n := by
  induction n using Nat.strongRecOn with
  | ind n ih =>
      by_cases hsmall : n < 10
      · rw [Nat.toDigits_of_lt_base hsmall, digitsValue_cons,
          digitValue_digitChar (hsmall.trans (by decide))]
        exact Nat.mul_one n
      · have hlast : n % 10 < 16 := (Nat.mod_lt n (by decide)).trans (by decide)
        have hrest := ih (n / 10) (by omega)
        rw [toDigits_split (by omega), digitsValue_append, digitsValue_cons, hrest,
          digitValue_digitChar hlast]
        have := Nat.div_add_mod n 10
        simp only [List.length_cons, List.length_nil, digitsValue, List.foldl_nil]
        omega

theorem head?_toDigits_ne {n : Nat} (h : n ≠ 0) : (Nat.toDigits 10 n).head? ≠ some '0' := by
  induction n using Nat.strongRecOn with
  | ind n ih =>
      by_cases hsmall : n < 10
      · have hdigit : ∀ k < 10, k ≠ 0 → Nat.digitChar k ≠ '0' := by decide
        rw [Nat.toDigits_of_lt_base hsmall]
        simpa using hdigit n hsmall h
      · have hne : n / 10 ≠ 0 := by omega
        have hrest := ih (n / 10) (by omega) hne
        rw [toDigits_split (by omega)]
        cases hdigits : Nat.toDigits 10 (n / 10) with
        | nil => exact absurd hdigits Nat.toDigits_ne_nil
        | cons d ds => simpa [hdigits] using hrest

/-! ### Four hexadecimal digits -/

theorem hexQuad?_digits {a b c d : Nat} (ha : a < 16) (hb : b < 16) (hc : c < 16) (hd : d < 16)
    (rest : List Char) :
    hexQuad? (Nat.digitChar a :: Nat.digitChar b :: Nat.digitChar c :: Nat.digitChar d :: rest) =
      some (((a * 16 + b) * 16 + c) * 16 + d, rest) := by
  simp only [hexQuad?, List.all_cons, List.all_nil, isHex_digitChar ha, isHex_digitChar hb,
    isHex_digitChar hc, isHex_digitChar hd, digitsValue, List.foldl_cons, List.foldl_nil,
    digitValue_digitChar ha, digitValue_digitChar hb, digitValue_digitChar hc,
    digitValue_digitChar hd]
  simp

end DrawnSchema.Text
