import DrawnSchema.Number.Shortest
import Mathlib.Algebra.Order.Field.Power
import Mathlib.Data.Rat.Cast.Order
import Mathlib.Tactic.FieldSimp
import Mathlib.Tactic.Linarith
import Mathlib.Tactic.NormNum
import Mathlib.Tactic.Positivity
import Mathlib.Tactic.Ring

/-!
# What rounds to a number

A ratio is brought to the scale on which its whole part has as many binary digits as a significand
has, and rounded there. So the ratios in the neighbourhood of a number, which reaches half a unit of
its own scale to both sides, all round to it. Below a power of two the next scale is finer by half,
and the neighbourhood reaches half as far.
-/

namespace DrawnSchema

namespace Binary64

variable {x : Binary64}

/-! ### Sign, exponent and fraction -/

theorem exponentField_eq (x : Binary64) :
    x.exponentField = x.bits.toNat / 2 ^ 52 % 2 ^ 11 := by
  rw [exponentField, UInt64.toNat_and, UInt64.toNat_shiftRight, Nat.shiftRight_eq_div_pow]
  exact Nat.and_two_pow_sub_one_eq_mod _ 11

theorem fractionField_eq (x : Binary64) : x.fractionField = x.bits.toNat % 2 ^ 52 := by
  rw [fractionField, UInt64.toNat_and]
  exact Nat.and_two_pow_sub_one_eq_mod _ 52

theorem isNegative_iff (x : Binary64) : x.isNegative = true ↔ 2 ^ 63 ≤ x.bits.toNat := by
  have hbits := x.bits.toNat_lt
  rw [isNegative, beq_iff_eq, ← UInt64.toNat_inj, UInt64.toNat_shiftRight,
    Nat.shiftRight_eq_div_pow]
  change x.bits.toNat / 2 ^ 63 = 1 ↔ _
  omega

theorem exponentField_lt (x : Binary64) : x.exponentField < 2048 := by
  rw [exponentField_eq]
  exact Nat.mod_lt _ (by decide)

theorem fractionField_lt (x : Binary64) : x.fractionField < 2 ^ 52 := by
  rw [fractionField_eq]
  exact Nat.mod_lt _ (by decide)

/-- The bits are the sign, the exponent and the fraction, in this order. -/
theorem ofParts_fields (x : Binary64) :
    ofParts x.isNegative (x.exponentField * 2 ^ 52 + x.fractionField) = x := by
  have hbits := x.bits.toNat_lt
  have hsign := isNegative_iff x
  have hfields : x.exponentField * 2 ^ 52 + x.fractionField +
      (if x.isNegative then 2 ^ 63 else 0) = x.bits.toNat := by
    rw [exponentField_eq, fractionField_eq]
    split_ifs with h <;> rw [hsign] at h <;> omega
  obtain ⟨bits⟩ := x
  rw [ofParts]
  congr 1
  exact (congrArg UInt64.ofNat hfields).trans UInt64.ofNat_toNat

theorem zero_of_isZero (h : x.isZero = true) : zero x.isNegative = x := by
  simp only [isZero, Bool.and_eq_true, beq_iff_eq] at h
  have hparts := ofParts_fields x
  rw [h.1, h.2] at hparts
  exact hparts

theorem infinity_of_isInfinite (h : x.isInfinite = true) : infinity x.isNegative = x := by
  simp only [isInfinite, Bool.and_eq_true, beq_iff_eq] at h
  have hparts := ofParts_fields x
  rw [h.1, h.2] at hparts
  exact hparts

/-- The significand carries into the exponent by itself. -/
theorem ofParts_significand (x : Binary64) :
    ofParts x.isNegative ((x.exponent + 1074).toNat * 2 ^ 52 + x.significand) = x := by
  have hmagnitude : (x.exponent + 1074).toNat * 2 ^ 52 + x.significand =
      x.exponentField * 2 ^ 52 + x.fractionField := by
    simp only [exponent, significand, Nat.pow_eq]
    split_ifs with h <;> omega
  rw [hmagnitude, ofParts_fields]

theorem significand_lt (x : Binary64) : x.significand < 2 ^ 53 := by
  have hfraction := fractionField_lt x
  simp only [significand, Nat.pow_eq]
  split_ifs <;> omega

theorem le_exponent (x : Binary64) : -1074 ≤ x.exponent := by
  simp only [exponent]
  omega

theorem exponent_le (h : x.isFinite = true) : x.exponent ≤ 971 := by
  have hfield := exponentField_lt x
  have hfinite : x.exponentField ≠ 2047 := by simpa [isFinite] using h
  simp only [exponent]
  omega

theorem significand_pos (h : x.isZero = false) : 0 < x.significand := by
  simp only [isZero, Bool.and_eq_false_iff, beq_eq_false_iff_ne] at h
  simp only [significand, Nat.pow_eq]
  split_ifs with hfield
  · have := h.resolve_left (not_not_intro hfield)
    omega
  · omega

/-- Above the least scale a significand has all its digits. -/
theorem le_significand (h : -1074 < x.exponent) : 2 ^ 52 ≤ x.significand := by
  simp only [exponent] at h
  simp only [significand, Nat.pow_eq]
  split_ifs <;> omega

/-! ### Rounding to an integer -/

/-- What is within half a unit of an integer, the ends only for an even one. -/
def IsNear (m : Nat) (r : ℚ) : Prop :=
  (m : ℚ) - 1 / 2 ≤ r ∧ r ≤ m + 1 / 2 ∧ (m % 2 = 1 → (m : ℚ) - 1 / 2 < r ∧ r < m + 1 / 2)

theorem IsNear.bounds {num den m : Nat} (hden : 0 < den) (h : IsNear m ((num : ℚ) / den)) :
    2 * (m * den) ≤ 2 * num + den ∧ 2 * num ≤ 2 * (m * den) + den ∧
      (m % 2 = 1 → 2 * (m * den) < 2 * num + den ∧ 2 * num < 2 * (m * den) + den) := by
  have hcast : (0 : ℚ) < den := by exact_mod_cast hden
  obtain ⟨hlow, hhigh, hodd⟩ := h
  rw [le_div_iff₀ hcast] at hlow
  rw [div_le_iff₀ hcast] at hhigh
  rw [lt_div_iff₀ hcast, div_lt_iff₀ hcast] at hodd
  refine ⟨?_, ?_, fun hm => ⟨?_, ?_⟩⟩
  · have : ((2 * (m * den) : Nat) : ℚ) ≤ (2 * num + den : Nat) := by push_cast; linarith
    exact_mod_cast this
  · have : ((2 * num : Nat) : ℚ) ≤ (2 * (m * den) + den : Nat) := by push_cast; linarith
    exact_mod_cast this
  · have : ((2 * (m * den) : Nat) : ℚ) < (2 * num + den : Nat) := by
      push_cast
      linarith [(hodd hm).1]
    exact_mod_cast this
  · have : ((2 * num : Nat) : ℚ) < (2 * (m * den) + den : Nat) := by
      push_cast
      linarith [(hodd hm).2]
    exact_mod_cast this

/-- The integer next to a ratio is its whole part or the one after it. -/
theorem whole_or_next {num den m : Nat} (hden : 0 < den) (hlow : 2 * (m * den) ≤ 2 * num + den)
    (hhigh : 2 * num ≤ 2 * (m * den) + den) : m = num / den ∨ m = num / den + 1 := by
  have hsplit := Nat.div_add_mod num den
  have hrest := Nat.mod_lt num hden
  have hle : num / den ≤ m := by
    by_contra hlt
    have hstep := Nat.mul_le_mul_left den (show m + 1 ≤ num / den by omega)
    rw [Nat.mul_succ, Nat.mul_comm den m] at hstep
    omega
  have hge : m ≤ num / den + 1 := by
    by_contra hlt
    have hstep := Nat.mul_le_mul_left den (show num / den + 2 ≤ m by omega)
    rw [Nat.mul_add, Nat.mul_comm den m] at hstep
    omega
  omega

theorem nearestInteger_eq {num den m : Nat} (hden : 0 < den) (h : IsNear m ((num : ℚ) / den)) :
    nearestInteger num den = m := by
  obtain ⟨hlow, hhigh, hodd⟩ := h.bounds hden
  have hsplit := Nat.div_add_mod num den
  unfold nearestInteger
  obtain hm | hm := whole_or_next hden hlow hhigh
  · rw [hm, Nat.mul_comm (num / den)] at hhigh hodd
    rw [if_neg, hm]
    simp only [Bool.or_eq_true, Bool.and_eq_true, decide_eq_true_eq, beq_iff_eq]
    omega
  · rw [hm, Nat.add_mul, Nat.one_mul, Nat.mul_comm (num / den)] at hlow hodd
    rw [if_pos, hm]
    simp only [Bool.or_eq_true, Bool.and_eq_true, decide_eq_true_eq, beq_iff_eq]
    omega

/-! ### The scale of a ratio -/

theorem two_zpow_pos (k : Int) : (0 : ℚ) < 2 ^ k := zpow_pos two_pos k

/-- Three binary digits are worth less than one decimal digit. -/
theorem two_zpow_lt_ten_zpow {k : Int} (h : 0 < k) : (2 : ℚ) ^ (3 * k) < 10 ^ k := by
  rw [zpow_mul]
  exact zpow_lt_zpow_left₀ h (by norm_num) (by norm_num)

theorem zpow_natAbs_of_nonneg {k : Int} (h : 0 ≤ k) (a : ℚ) : a ^ k = a ^ k.natAbs := by
  rw [← zpow_natCast, Int.natAbs_of_nonneg h]

theorem zpow_natAbs_of_nonpos {k : Int} (h : k ≤ 0) (a : ℚ) : a ^ k = (a ^ k.natAbs)⁻¹ := by
  rw [← zpow_natCast, Int.ofNat_natAbs_of_nonpos h, zpow_neg, inv_inv]

theorem scaled_den_pos {num den : Nat} (hden : 0 < den) (q : Int) : 0 < (scaled num den q).2 := by
  unfold scaled
  split_ifs
  · exact hden
  · exact Nat.mul_pos hden (Nat.pow_pos two_pos)

theorem scaled_eq (num den : Nat) (q : Int) :
    ((scaled num den q).1 : ℚ) / (scaled num den q).2 = num / den / 2 ^ q := by
  unfold scaled
  split_ifs with h
  · rw [zpow_natAbs_of_nonpos h]
    push_cast [Nat.pow_eq]
    field_simp
  · rw [zpow_natAbs_of_nonneg (by omega)]
    push_cast [Nat.pow_eq]
    rw [div_div]

/-- A scale on which a ratio has a whole part with as many digits as a significand has, or fewer if
it is the least scale. -/
structure IsScale (r : ℚ) (q : Int) : Prop where
  least : -1074 ≤ q
  below : r < 2 ^ 53 * 2 ^ q
  above : q = -1074 ∨ 2 ^ 52 * 2 ^ q ≤ r

theorem IsScale.le {r : ℚ} {q q' : Int} (h : IsScale r q) (h' : IsScale r q') : q ≤ q' := by
  by_contra hlt
  obtain hleast | habove := h.above
  · have := h'.least
    omega
  · have hpower : (2 : ℚ) ^ (53 + q') ≤ 2 ^ (52 + q) :=
      zpow_le_zpow_right₀ one_le_two (by omega)
    rw [zpow_add₀ two_ne_zero, zpow_add₀ two_ne_zero] at hpower
    have := h'.below
    norm_num at hpower habove this
    linarith

theorem IsScale.unique {r : ℚ} {q q' : Int} (h : IsScale r q) (h' : IsScale r q') : q = q' :=
  le_antisymm (h.le h') (h'.le h)

/-- The quotient of two numbers has as many digits as the difference of theirs says, or one less. -/
theorem log2_ratio_bounds {num den : Nat} (hnum : num ≠ 0) (hden : den ≠ 0) :
    (2 : ℚ) ^ ((num.log2 : Int) - den.log2 - 1) < (num : ℚ) / den ∧
      (num : ℚ) / den < 2 ^ ((num.log2 : Int) - den.log2 + 1) := by
  have hpos : (0 : ℚ) < den := by exact_mod_cast Nat.pos_of_ne_zero hden
  have hnumLow : (2 : ℚ) ^ (num.log2 : Int) ≤ num := by
    rw [zpow_natCast]
    exact_mod_cast Nat.log2_self_le hnum
  have hnumHigh : (num : ℚ) < 2 ^ ((num.log2 : Int) + 1) := by
    rw [← Nat.cast_succ, zpow_natCast]
    exact_mod_cast Nat.lt_log2_self
  have hdenLow : (2 : ℚ) ^ (den.log2 : Int) ≤ den := by
    rw [zpow_natCast]
    exact_mod_cast Nat.log2_self_le hden
  have hdenHigh : (den : ℚ) < 2 ^ ((den.log2 : Int) + 1) := by
    rw [← Nat.cast_succ, zpow_natCast]
    exact_mod_cast Nat.lt_log2_self
  constructor
  · rw [lt_div_iff₀ hpos]
    calc (2 : ℚ) ^ ((num.log2 : Int) - den.log2 - 1) * den
        < 2 ^ ((num.log2 : Int) - den.log2 - 1) * 2 ^ ((den.log2 : Int) + 1) :=
          mul_lt_mul_of_pos_left hdenHigh (two_zpow_pos _)
      _ = 2 ^ (num.log2 : Int) := by
          rw [← zpow_add₀ two_ne_zero]
          congr 1
          ring
      _ ≤ num := hnumLow
  · rw [div_lt_iff₀ hpos]
    calc (num : ℚ) < 2 ^ ((num.log2 : Int) + 1) := hnumHigh
      _ = 2 ^ ((num.log2 : Int) - den.log2 + 1) * 2 ^ (den.log2 : Int) := by
          rw [← zpow_add₀ two_ne_zero]
          congr 1
          ring
      _ ≤ 2 ^ ((num.log2 : Int) - den.log2 + 1) * den :=
          mul_le_mul_of_nonneg_left hdenLow (two_zpow_pos _).le

/-- On a scale a ratio has no more digits than a significand if it is below what these can count. -/
theorem scaled_div_lt_iff {num den : Nat} (hden : 0 < den) (q : Int) :
    (scaled num den q).1 / (scaled num den q).2 < 2 ^ 53 ↔ (num : ℚ) / den < 2 ^ 53 * 2 ^ q := by
  have hpos : 0 < (scaled num den q).2 := scaled_den_pos hden q
  have hcast : (0 : ℚ) < (scaled num den q).2 := by exact_mod_cast hpos
  rw [Nat.div_lt_iff_lt_mul hpos, ← div_lt_iff₀ (two_zpow_pos q), ← scaled_eq, div_lt_iff₀ hcast]
  exact_mod_cast Iff.rfl

theorem pow_mul_zpow (a : Nat) (k : Int) : (2 : ℚ) ^ a * 2 ^ k = 2 ^ (a + k) := by
  rw [← zpow_natCast, ← zpow_add₀ two_ne_zero]

/-- The first scale that is tried is the one of the ratio, or the one below it, unless both are
below the least scale. -/
theorem isScale_max {num den : Nat} (hnum : num ≠ 0) (hden : den ≠ 0) {low : Int}
    (hlow : low = (num.log2 : Int) - den.log2 - 53) :
    IsScale ((num : ℚ) / den)
      (max (if (num : ℚ) / den < 2 ^ 53 * 2 ^ low then low else low + 1) (-1074)) := by
  obtain ⟨habove, hbelow⟩ := log2_ratio_bounds hnum hden
  have hsmall : (2 : ℚ) ^ 52 * 2 ^ low ≤ num / den := by
    rw [pow_mul_zpow, show ((52 : Nat) + low : Int) = num.log2 - den.log2 - 1 by omega]
    exact habove.le
  have hlarge : (num : ℚ) / den < 2 ^ 53 * 2 ^ (low + 1) := by
    rw [pow_mul_zpow, show ((53 : Nat) + (low + 1) : Int) = num.log2 - den.log2 + 1 by omega]
    exact hbelow
  refine ⟨le_max_right _ _, ?_, ?_⟩
  · refine lt_of_lt_of_le ?_ (mul_le_mul_of_nonneg_left
      (zpow_le_zpow_right₀ one_le_two (le_max_left _ _)) (by positivity))
    split_ifs with h
    · exact h
    · exact hlarge
  · obtain hmax | hmax := max_choice
      (if (num : ℚ) / den < 2 ^ 53 * 2 ^ low then low else low + 1) (-1074)
    · right
      rw [hmax]
      split_ifs with h
      · exact hsmall
      · rw [zpow_add_one₀ two_ne_zero]
        have := not_lt.mp h
        linarith
    · exact .inl hmax

/-- A ratio is rounded on its scale. -/
theorem ofRatio_of_isScale {negative : Bool} {num den m : Nat} {q : Int} (hnum : num ≠ 0)
    (hden : den ≠ 0) (hscale : IsScale ((num : ℚ) / den) q)
    (hnear : IsNear m ((num : ℚ) / den / 2 ^ q))
    (hfits : (q + 1074).toNat * 2 ^ 52 + m < 2047 * 2 ^ 52) :
    ofRatio negative num den = ofParts negative ((q + 1074).toNat * 2 ^ 52 + m) := by
  have hpos := Nat.pos_of_ne_zero hden
  set low : Int := (num.log2 : Int) - den.log2 - 53 with hlow
  have hfound : max (if (scaled num den low).1 / (scaled num den low).2 < 2 ^ 53 then low
      else low + 1) (-1074) = q := by
    simp only [scaled_div_lt_iff hpos]
    exact (isScale_max hnum hden hlow).unique hscale
  have hround : nearestInteger (scaled num den q).1 (scaled num den q).2 = m :=
    nearestInteger_eq (scaled_den_pos hpos q) (by rwa [scaled_eq])
  unfold ofRatio
  simp only [if_neg hnum, Nat.pow_eq, ← hlow, hfound, hround, if_pos hfits]

/-! ### The neighbourhood of a number -/

/-- A ratio in the neighbourhood of a number, which counts in quarters of a unit. -/
def Attracts (x : Binary64) (r : ℚ) : Prop :=
  let unit : ℚ := 2 ^ (x.exponent - 2)
  if x.neighbourhood.closed then x.neighbourhood.low * unit ≤ r ∧ r ≤ x.neighbourhood.high * unit
  else x.neighbourhood.low * unit < r ∧ r < x.neighbourhood.high * unit

theorem quarter_eq (k : Int) (a : ℚ) : a * 2 ^ (k - 2) = a / 4 * 2 ^ k := by
  rw [zpow_sub₀ two_ne_zero]
  norm_num
  ring

theorem neighbourhood_low_le (hzero : x.isZero = false) :
    (x.significand : ℚ) - 1 / 2 ≤ x.neighbourhood.low / 4 := by
  have hpos := significand_pos hzero
  have hlow : 4 * x.significand ≤ x.neighbourhood.low + 2 := by
    simp only [neighbourhood]
    split_ifs <;> omega
  have : ((4 * x.significand : Nat) : ℚ) ≤ (x.neighbourhood.low + 2 : Nat) := by exact_mod_cast hlow
  push_cast at this
  linarith

theorem neighbourhood_high_eq (x : Binary64) :
    (x.neighbourhood.high : ℚ) / 4 = x.significand + 1 / 2 := by
  simp only [neighbourhood]
  push_cast
  ring

theorem cast_significand_le (x : Binary64) : (x.significand : ℚ) ≤ 2 ^ 53 - 1 := by
  have hlt : x.significand + 1 ≤ 2 ^ 53 := significand_lt x
  have hcast : ((x.significand + 1 : Nat) : ℚ) ≤ (2 ^ 53 : Nat) := by exact_mod_cast hlt
  push_cast at hcast
  linarith

namespace Attracts

variable {r : ℚ}

theorem le (h : x.Attracts r) :
    (x.neighbourhood.low : ℚ) / 4 * 2 ^ x.exponent ≤ r ∧
      r ≤ (x.significand + 1 / 2) * 2 ^ x.exponent := by
  simp only [Attracts, quarter_eq] at h
  rw [neighbourhood_high_eq] at h
  split_ifs at h
  · exact h
  · exact ⟨h.1.le, h.2.le⟩

theorem isNear (hzero : x.isZero = false) (h : x.Attracts r) :
    IsNear x.significand (r / 2 ^ x.exponent) := by
  have hunit := two_zpow_pos x.exponent
  have hlow := neighbourhood_low_le hzero
  obtain ⟨hbelow, habove⟩ := h.le
  refine ⟨?_, ?_, fun hodd => ?_⟩
  · exact hlow.trans ((le_div_iff₀ hunit).mpr hbelow)
  · exact (div_le_iff₀ hunit).mpr habove
  · have hopen : x.neighbourhood.closed = false := by
      simp only [neighbourhood, hodd]
      rfl
    simp only [Attracts, quarter_eq, hopen, Bool.false_eq_true, if_false] at h
    rw [neighbourhood_high_eq] at h
    exact ⟨hlow.trans_lt ((lt_div_iff₀ hunit).mpr h.1), (div_lt_iff₀ hunit).mpr h.2⟩

/-- At a power of two the neighbourhood reaches down a quarter of a unit only. -/
theorem le_of_power (hsignificand : x.significand = 2 ^ 52) (hexponent : -1074 < x.exponent)
    (h : x.Attracts r) : (2 : ℚ) ^ 52 - 1 / 4 ≤ r / 2 ^ x.exponent := by
  have hlow : x.neighbourhood.low = 4 * 2 ^ 52 - 1 := by
    have hfields : x.fractionField = 0 ∧ 1 < x.exponentField := by
      simp only [exponent] at hexponent
      simp only [significand, Nat.pow_eq] at hsignificand
      split_ifs at hsignificand <;> omega
    rw [neighbourhood, hsignificand]
    simp [hfields.1, hfields.2]
  rw [le_div_iff₀ (two_zpow_pos _)]
  refine le_trans (le_of_eq ?_) h.le.1
  rw [hlow]
  norm_num

theorem isScale (hzero : x.isZero = false) (h : x.Attracts r)
    (habove : x.exponent = -1074 ∨ (2 : ℚ) ^ 52 * 2 ^ x.exponent ≤ r) : IsScale r x.exponent := by
  refine ⟨le_exponent x, ?_, habove⟩
  rw [← div_lt_iff₀ (two_zpow_pos x.exponent)]
  have hcast := cast_significand_le x
  have hnear := (h.isNear hzero).2.1
  linarith

/-- Only of a power of two the neighbourhood reaches below the scale of the number. -/
theorem significand_eq (hzero : x.isZero = false) (h : x.Attracts r) (hexponent : -1074 < x.exponent)
    (hless : r / 2 ^ x.exponent < 2 ^ 52) : x.significand = 2 ^ 52 := by
  refine le_antisymm ?_ (le_significand hexponent)
  have hcast : (x.significand : ℚ) < (2 ^ 52 + 1 : Nat) := by
    push_cast
    have hnear := (h.isNear hzero).1
    linarith
  have hlt : x.significand < 2 ^ 52 + 1 := by exact_mod_cast hcast
  omega

/-- What is below a power of two has a finer scale, on which it rounds to the power as well. -/
theorem isScale_finer (hsignificand : x.significand = 2 ^ 52) (hexponent : -1074 < x.exponent)
    (h : x.Attracts r) (hless : r / 2 ^ x.exponent < 2 ^ 52) :
    IsScale r (x.exponent - 1) ∧ IsNear (2 ^ 53) (r / 2 ^ (x.exponent - 1)) := by
  have hlow := h.le_of_power hsignificand hexponent
  have hhalf : (2 : ℚ) ^ x.exponent = 2 ^ (x.exponent - 1) * 2 := by
    rw [← zpow_add_one₀ two_ne_zero, sub_add_cancel]
  have hdouble : r / 2 ^ (x.exponent - 1) = r / 2 ^ x.exponent * 2 := by
    rw [hhalf]
    have := (two_zpow_pos (x.exponent - 1)).ne'
    field_simp
  refine ⟨⟨by omega, ?_, .inr ?_⟩, ?_⟩
  · rw [← div_lt_iff₀ (two_zpow_pos _), hdouble]
    linarith
  · rw [← le_div_iff₀ (two_zpow_pos _), hdouble]
    linarith
  · rw [hdouble]
    refine ⟨?_, ?_, nofun⟩ <;> push_cast <;> linarith

theorem pos (hzero : x.isZero = false) (h : x.Attracts r) : 0 < r := by
  refine lt_of_lt_of_le (mul_pos ?_ (two_zpow_pos _)) h.le.1
  have hlow := neighbourhood_low_le hzero
  have hpos : (1 : ℚ) ≤ x.significand := by exact_mod_cast significand_pos hzero
  linarith

/-- The neighbourhoods of finite numbers end at the power of two that is too large. -/
theorem le_two_zpow (hfinite : x.isFinite = true) (h : x.Attracts r) : r ≤ 2 ^ (1024 : Int) := by
  have hcast : (x.significand : ℚ) + 1 / 2 ≤ 2 ^ (53 : Int) := by
    have hle := cast_significand_le x
    have hpower : (2 : ℚ) ^ (53 : Int) = 2 ^ 53 := zpow_natCast 2 53
    rw [hpower]
    linarith
  calc r ≤ ((x.significand : ℚ) + 1 / 2) * 2 ^ x.exponent := h.le.2
    _ ≤ 2 ^ (53 : Int) * 2 ^ (971 : Int) :=
        mul_le_mul hcast (zpow_le_zpow_right₀ one_le_two (exponent_le hfinite))
          (two_zpow_pos _).le (two_zpow_pos _).le
    _ = 2 ^ (1024 : Int) := by rw [← zpow_add₀ two_ne_zero]; norm_num

/-- No neighbourhood but that of zero reaches below a quarter of the least number. -/
theorem two_zpow_le (hzero : x.isZero = false) (h : x.Attracts r) : 2 ^ (-1076 : Int) ≤ r := by
  have hlow := neighbourhood_low_le hzero
  have hpos : (1 : ℚ) ≤ x.significand := by exact_mod_cast significand_pos hzero
  calc (2 : ℚ) ^ (-1076 : Int) = 1 / 4 * 2 ^ (-1074 : Int) := by
        rw [show (-1076 : Int) = -1074 - 2 from rfl, zpow_sub₀ two_ne_zero]
        ring
    _ ≤ x.neighbourhood.low / 4 * 2 ^ x.exponent :=
        mul_le_mul (by linarith) (zpow_le_zpow_right₀ one_le_two (le_exponent x))
          (two_zpow_pos _).le (by linarith)
    _ ≤ r := h.le.1

end Attracts

/-- A ratio rounds to the number in whose neighbourhood it is. -/
theorem ofRatio_of_attracts {num den : Nat} (hfinite : x.isFinite = true)
    (hzero : x.isZero = false) (hden : den ≠ 0) (h : x.Attracts ((num : ℚ) / den)) :
    ofRatio x.isNegative num den = x := by
  have hnum : num ≠ 0 := by
    rintro rfl
    simpa using h.pos hzero
  have hexponent := exponent_le hfinite
  have hleast := le_exponent x
  have hdigits := significand_lt x
  by_cases habove : x.exponent = -1074 ∨ (2 : ℚ) ^ 52 * 2 ^ x.exponent ≤ num / den
  · rw [ofRatio_of_isScale hnum hden (h.isScale hzero habove) (h.isNear hzero) (by omega)]
    exact ofParts_significand x
  · obtain ⟨hfine, hless⟩ := not_or.mp habove
    rw [not_le, ← div_lt_iff₀ (two_zpow_pos x.exponent)] at hless
    have hpower := h.significand_eq hzero (by omega) hless
    obtain ⟨hfiner, hnearer⟩ := h.isScale_finer hpower (by omega) hless
    have hmagnitude : (x.exponent - 1 + 1074).toNat * 2 ^ 52 + 2 ^ 53 =
        (x.exponent + 1074).toNat * 2 ^ 52 + x.significand := by omega
    rw [ofRatio_of_isScale hnum hden hfiner hnearer (by omega), hmagnitude, ofParts_significand]

/-- A number has no more decimal digits than a third of its binary ones, and one. -/
theorem cast_lt_ten_zpow (digits : Nat) :
    (digits : ℚ) < 10 ^ ((digits.log2 / 3 : Nat) + 1 : Int) := by
  have hlog : (digits : ℚ) < 2 ^ ((digits.log2 : Int) + 1) := by
    rw [← Nat.cast_succ, zpow_natCast]
    exact_mod_cast Nat.lt_log2_self
  refine hlog.trans (lt_of_le_of_lt ?_ (two_zpow_lt_ten_zpow (by omega)))
  exact zpow_le_zpow_right₀ one_le_two (by omega)

/-- A decimal in the neighbourhood of a number is read as this number. -/
theorem ofDecimal_of_attracts {digits : Nat} {exp : Int} (hfinite : x.isFinite = true)
    (hzero : x.isZero = false) (h : x.Attracts (digits * 10 ^ exp)) :
    ofDecimal x.isNegative digits exp = x := by
  have hdigits : digits ≠ 0 := by
    rintro rfl
    simpa using h.pos hzero
  have hlarge : ¬exp > 400 := by
    intro hexp
    have hten : (10 : ℚ) ^ (400 : Int) ≤ 10 ^ exp := zpow_le_zpow_right₀ (by norm_num) hexp.le
    have hfar : (2 : ℚ) ^ (1024 : Int) < 10 ^ (400 : Int) :=
      (zpow_lt_zpow_right₀ one_lt_two (by decide)).trans (two_zpow_lt_ten_zpow (by decide))
    have hmore : (10 : ℚ) ^ exp ≤ digits * 10 ^ exp := by
      have hone : (1 : ℚ) ≤ digits := by exact_mod_cast Nat.pos_of_ne_zero hdigits
      exact le_mul_of_one_le_left (zpow_nonneg (by norm_num) _) hone
    exact absurd (hten.trans (hmore.trans (h.le_two_zpow hfinite))) (not_le.mpr hfar)
  have hsmall : ¬exp + (digits.log2 / 3 : Nat) + 1 < -400 := by
    intro hexp
    have hlt : (digits : ℚ) * 10 ^ exp < 10 ^ (-400 : Int) :=
      calc (digits : ℚ) * 10 ^ exp
          < 10 ^ ((digits.log2 / 3 : Nat) + 1 : Int) * 10 ^ exp :=
            mul_lt_mul_of_pos_right (cast_lt_ten_zpow digits) (zpow_pos (by norm_num) _)
        _ = 10 ^ ((digits.log2 / 3 : Nat) + 1 + exp : Int) := (zpow_add₀ (by norm_num) _ _).symm
        _ ≤ 10 ^ (-400 : Int) := zpow_le_zpow_right₀ (by norm_num) (by omega)
    have hfar : (10 : ℚ) ^ (-400 : Int) < 2 ^ (-1076 : Int) := by
      rw [zpow_neg, zpow_neg]
      refine inv_strictAnti₀ (two_zpow_pos _) ?_
      exact (zpow_lt_zpow_right₀ one_lt_two (by decide)).trans (two_zpow_lt_ten_zpow (by decide))
    exact absurd (hfar.trans_le (h.two_zpow_le hzero)) (not_lt.mpr hlt.le)
  unfold ofDecimal
  rw [if_neg hdigits, if_neg hlarge, if_neg hsmall]
  split_ifs with hexp
  · refine ofRatio_of_attracts hfinite hzero (Nat.pow_pos (by decide)).ne' ?_
    rw [zpow_natAbs_of_nonpos hexp.le, ← div_eq_mul_inv] at h
    simpa using h
  · refine ofRatio_of_attracts hfinite hzero one_ne_zero ?_
    rw [zpow_natAbs_of_nonneg (not_lt.mp hexp)] at h
    simpa using h

end Binary64

end DrawnSchema
