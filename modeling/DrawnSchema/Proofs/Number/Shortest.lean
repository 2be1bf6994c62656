import DrawnSchema.Proofs.Number.Rounding
import DrawnSchema.Proofs.Text.Digits

/-!
# The shortest digits read back

A grid of decimal places that is fine enough for a number has a step in its neighbourhood, and the
step nearest to the number is one. Of the grids that are tried the last has seventeen digits, and a
significand has fewer than sixteen digits' worth of units, so that half of a step is less than what
the neighbourhood reaches. Whichever grid is taken, what is written is in the neighbourhood of the
number and so rounds to it.
-/

namespace DrawnSchema

namespace Binary64

variable {x : Binary64}

def value (x : Binary64) : ℚ := x.significand * 2 ^ x.exponent

theorem value_pos (hzero : x.isZero = false) : 0 < x.value := by
  have hpos : (0 : ℚ) < x.significand := by exact_mod_cast significand_pos hzero
  exact mul_pos hpos (two_zpow_pos _)

theorem ten_zpow_pos (k : Int) : (0 : ℚ) < 10 ^ k := zpow_pos (by norm_num) k

theorem ratio_eq (x : Binary64) : (x.ratio.1 : ℚ) / x.ratio.2 = x.value := by
  unfold ratio value
  split_ifs with h
  · rw [zpow_natAbs_of_nonpos h.le]
    push_cast [Nat.pow_eq]
    rw [div_eq_mul_inv]
  · rw [zpow_natAbs_of_nonneg (not_lt.mp h)]
    push_cast [Nat.pow_eq]
    rw [div_one]

theorem ratio_den_pos (x : Binary64) : 0 < x.ratio.2 := by
  unfold ratio
  split_ifs
  · exact Nat.pow_pos two_pos
  · exact one_pos

theorem quarterUnit_eq (x : Binary64) :
    (x.quarterUnit.1 : ℚ) / x.quarterUnit.2 = 2 ^ (x.exponent - 2) := by
  unfold quarterUnit
  dsimp only
  split_ifs with h
  · rw [zpow_natAbs_of_nonpos h.le]
    push_cast [Nat.pow_eq]
    rw [one_div]
  · rw [zpow_natAbs_of_nonneg (not_lt.mp h)]
    push_cast [Nat.pow_eq]
    rw [div_one]

theorem quarterUnit_den_pos (x : Binary64) : 0 < x.quarterUnit.2 := by
  unfold quarterUnit
  dsimp only
  split_ifs
  · exact Nat.pow_pos two_pos
  · exact one_pos

/-! ### Decimal places -/

theorem atPlace_den_pos {num den : Nat} (hden : 0 < den) (k : Int) : 0 < (atPlace num den k).2 := by
  unfold atPlace
  split_ifs
  · exact hden
  · exact Nat.mul_pos hden (Nat.pow_pos (by decide))

theorem atPlace_eq (num den : Nat) (k : Int) :
    ((atPlace num den k).1 : ℚ) / (atPlace num den k).2 = num / den / 10 ^ k := by
  unfold atPlace
  split_ifs with h
  · rw [zpow_natAbs_of_nonpos h]
    push_cast [Nat.pow_eq]
    field_simp
  · rw [zpow_natAbs_of_nonneg (by omega)]
    push_cast [Nat.pow_eq]
    rw [div_div]

theorem atPlace_lt_iff {num den : Nat} (hden : 0 < den) (k : Int) :
    (atPlace num den k).1 < (atPlace num den k).2 ↔ (num : ℚ) / den < 10 ^ k := by
  have hpos : (0 : ℚ) < (atPlace num den k).2 := by exact_mod_cast atPlace_den_pos hden k
  rw [← div_lt_one (ten_zpow_pos k), ← atPlace_eq, div_lt_one hpos, Nat.cast_lt]

/-- Powers of ten and of two compare as some powers of theirs do. -/
theorem ten_zpow_le {a b c : Nat} {k m n : Int} (hc : 0 < c)
    (hpower : ((10 : ℚ) ^ a) ^ n ≤ ((2 : ℚ) ^ b) ^ n) (hk : c * k ≤ a * n) (hm : b * n ≤ c * m) :
    (10 : ℚ) ^ k ≤ 2 ^ m := by
  refine (pow_le_pow_iff_left₀ (ten_zpow_pos k).le (two_zpow_pos m).le hc.ne').mp ?_
  calc ((10 : ℚ) ^ k) ^ c = 10 ^ (c * k) := by rw [← zpow_natCast, ← zpow_mul, mul_comm]
    _ ≤ 10 ^ (a * n) := zpow_le_zpow_right₀ (by norm_num) hk
    _ = ((10 : ℚ) ^ a) ^ n := by rw [zpow_mul, zpow_natCast]
    _ ≤ ((2 : ℚ) ^ b) ^ n := hpower
    _ = 2 ^ (b * n) := by rw [zpow_mul, zpow_natCast]
    _ ≤ 2 ^ (c * m) := zpow_le_zpow_right₀ one_le_two hm
    _ = ((2 : ℚ) ^ m) ^ c := by rw [← zpow_natCast, ← zpow_mul, mul_comm]

theorem zpow_le_zpow_of_nonpos {a b : ℚ} (ha : 0 < a) (hab : a ≤ b) {n : Int} (hn : n ≤ 0) :
    b ^ n ≤ a ^ n := by
  obtain ⟨j, rfl⟩ : ∃ j : Nat, n = -j := ⟨n.natAbs, by omega⟩
  rw [zpow_neg, zpow_neg, zpow_natCast, zpow_natCast]
  exact inv_anti₀ (pow_pos ha j) (pow_le_pow_left₀ ha.le hab j)

theorem cast_ten_pow_le {a b : Nat} (h : 10 ^ a ≤ 2 ^ b) : (10 : ℚ) ^ a ≤ 2 ^ b := by
  exact_mod_cast h

theorem cast_two_pow_le {a b : Nat} (h : 2 ^ b ≤ 10 ^ a) : (2 : ℚ) ^ b ≤ 10 ^ a := by
  exact_mod_cast h

/-- The binary logarithm of ten is close to `100000 / 30103`. -/
theorem ten_zpow_le_two_zpow {k n : Int} (h : 100000 * k ≤ 30103 * n) (hn : n ≤ 100000) :
    (10 : ℚ) ^ (k - 1) ≤ 2 ^ (n - 1) := by
  have hten : (10 : ℚ) ^ k ≤ 2 ^ (n + 1) := by
    obtain hpos | hneg := le_or_gt 0 n
    · have hle := cast_ten_pow_le (a := 30103) (b := 100001) (by decide +kernel)
      have hpower := zpow_le_zpow_left₀ hpos (pow_nonneg (by norm_num) _) hle
      exact ten_zpow_le (c := 100000) (by decide) hpower (by push_cast; omega) (by push_cast; omega)
    · have hle := cast_two_pow_le (a := 30103) (b := 100000) (by decide +kernel)
      have hpower := zpow_le_zpow_of_nonpos (pow_pos two_pos _) hle hneg.le
      exact ten_zpow_le (c := 100000) (by decide) hpower (by push_cast; omega) (by push_cast; omega)
  have hmore : (2 : ℚ) ^ (n + 1) = 4 * 2 ^ (n - 1) := by
    rw [show n + 1 = 2 + (n - 1) by ring, zpow_add₀ two_ne_zero]
    norm_num
  have hpos := two_zpow_pos (n - 1)
  rw [zpow_sub_one₀ (by norm_num)]
  linarith

/-- The estimate is never too large. -/
theorem ten_zpow_decimalPoint_le {num den : Nat} (hnum : num ≠ 0) (hden : den ≠ 0)
    (hlog : (num.log2 : Int) - den.log2 ≤ 100000) :
    (10 : ℚ) ^ (decimalPoint num den - 1) ≤ num / den := by
  have hbelow (k : Int) : ¬decide ((atPlace num den k).1 < (atPlace num den k).2) = true →
      (10 : ℚ) ^ k ≤ num / den := by
    rw [decide_eq_true_iff, atPlace_lt_iff (Nat.pos_of_ne_zero hden), not_lt]
    exact id
  have hestimate :
      (10 : ℚ) ^ ((((num.log2 : Int) - den.log2) * 30103).fdiv 100000 - 1) ≤ num / den := by
    refine le_trans (ten_zpow_le_two_zpow ?_ hlog) (log2_ratio_bounds hnum hden).1.le
    rw [Int.fdiv_eq_ediv_of_nonneg _ (by decide)]
    omega
  unfold decimalPoint
  dsimp only
  split_ifs with h1 h2 h3
  · refine le_trans (le_of_eq ?_) hestimate
    congr 1
    ring
  · exact hbelow _ h1
  · rw [add_sub_cancel_right]
    exact hbelow _ h2
  · rw [show ∀ k : Int, k + 2 - 1 = k + 1 by omega]
    exact hbelow _ h3

/-! ### Steps of a grid -/

/-- A step reads back if it is in the neighbourhood. -/
theorem holds_iff {place : Int} {n : Nat} :
    x.holds place n = true ↔ x.Attracts (n * 10 ^ place) := by
  have hplace := ten_zpow_pos place
  have hden : 0 < (atPlace x.quarterUnit.1 x.quarterUnit.2 place).2 :=
    atPlace_den_pos (quarterUnit_den_pos x) place
  have hpos : (0 : ℚ) < (atPlace x.quarterUnit.1 x.quarterUnit.2 place).2 := by exact_mod_cast hden
  have hratio := atPlace_eq x.quarterUnit.1 x.quarterUnit.2 place
  rw [quarterUnit_eq] at hratio
  have hunit : (2 : ℚ) ^ (x.exponent - 2) =
      (atPlace x.quarterUnit.1 x.quarterUnit.2 place).1 /
        (atPlace x.quarterUnit.1 x.quarterUnit.2 place).2 * 10 ^ place := by
    rw [hratio, div_mul_cancel₀ _ hplace.ne']
  -- a step is compared with an end of the neighbourhood over a common denominator
  have hle (a b : Nat) :
      (a * (atPlace x.quarterUnit.1 x.quarterUnit.2 place).1 ≤
        b * (atPlace x.quarterUnit.1 x.quarterUnit.2 place).2) ↔
      (a : ℚ) * 2 ^ (x.exponent - 2) ≤ b * 10 ^ place := by
    rw [hunit, ← mul_assoc, mul_le_mul_iff_left₀ hplace, ← mul_div_assoc, div_le_iff₀ hpos]
    exact_mod_cast Iff.rfl
  have hge (a b : Nat) :
      (b * (atPlace x.quarterUnit.1 x.quarterUnit.2 place).2 ≤
        a * (atPlace x.quarterUnit.1 x.quarterUnit.2 place).1) ↔
      (b : ℚ) * 10 ^ place ≤ a * 2 ^ (x.exponent - 2) := by
    rw [hunit, ← mul_assoc, mul_le_mul_iff_left₀ hplace, ← mul_div_assoc, le_div_iff₀ hpos]
    exact_mod_cast Iff.rfl
  unfold holds Attracts
  dsimp only
  split_ifs
  · rw [Bool.and_eq_true, decide_eq_true_iff, decide_eq_true_iff, hle, hge]
  · rw [Bool.and_eq_true, decide_eq_true_iff, decide_eq_true_iff, ← not_le, ← not_le (a := _ * _),
      hge, hle, not_le, not_le]

theorem holds_of_onGrid {place : Int} {n : Nat} (h : x.onGrid place = some n) :
    x.holds place n = true := by
  unfold onGrid at h
  dsimp only at h
  split_ifs at h with h1 h2 h3 h4 <;> cases h <;> assumption

/-- The lower of two steps is taken unless the upper one is nearer. -/
theorem nearer_step_bounds {v b : Nat} (hb : 0 < b) {lower : Prop} [Decidable lower]
    (hlower : lower → 2 * (v - v / b * b) ≤ b) (hupper : ¬lower → b ≤ 2 * (v - v / b * b)) :
    2 * ((if lower then v / b else v / b + 1) * b) ≤ 2 * v + b ∧
      2 * v ≤ 2 * ((if lower then v / b else v / b + 1) * b) + b := by
  have hle := Nat.div_mul_le_self v b
  have hlt := Nat.lt_div_mul_add (a := v) hb
  split_ifs with h
  · have := hlower h
    omega
  · have := hupper h
    rw [Nat.add_mul, Nat.one_mul]
    omega

theorem half_step_of_bounds {v b n : Nat} (hb : 0 < b)
    (h : 2 * (n * b) ≤ 2 * v + b ∧ 2 * v ≤ 2 * (n * b) + b) :
    (v : ℚ) / b - 1 / 2 ≤ n ∧ (n : ℚ) ≤ v / b + 1 / 2 := by
  have hpos : (0 : ℚ) < b := by exact_mod_cast hb
  have hbelow : (2 : ℚ) * (n * b) ≤ 2 * v + b := by exact_mod_cast h.1
  have habove : (2 : ℚ) * v ≤ 2 * (n * b) + b := by exact_mod_cast h.2
  constructor
  · rw [sub_le_iff_le_add, div_le_iff₀ hpos]
    linarith
  · rw [← sub_le_iff_le_add, le_div_iff₀ hpos]
    linarith

/-- The neighbourhood reaches down two quarters of a unit, or one at a power of two. -/
theorem neighbourhood_low_cases (hzero : x.isZero = false) :
    (x.neighbourhood.low : ℚ) = 4 * x.significand - 2 ∨
      (x.neighbourhood.low : ℚ) = 4 * x.significand - 1 ∧ x.significand = 2 ^ 52 := by
  have hpos := significand_pos hzero
  simp only [neighbourhood]
  split_ifs with h
  · right
    simp only [Bool.and_eq_true, decide_eq_true_iff] at h
    rw [Nat.cast_sub (by omega)]
    refine ⟨by push_cast; ring, ?_⟩
    simp only [significand, Nat.pow_eq]
    split_ifs <;> omega
  · left
    rw [Nat.cast_sub (by omega)]
    push_cast
    ring

/-- What is within half of a step of a number is in its neighbourhood if the steps are fine. -/
theorem attracts_of_half_step (hzero : x.isZero = false) {step r : ℚ}
    (hfine : 10 ^ 16 * step ≤ x.value) (hbelow : x.value - step / 2 ≤ r)
    (habove : r ≤ x.value + step / 2) : x.Attracts r := by
  have hunit := two_zpow_pos (x.exponent - 2)
  have hvalue : x.value = 4 * x.significand * 2 ^ (x.exponent - 2) := by
    rw [quarter_eq, value]
    ring
  have hhigh : (x.neighbourhood.high : ℚ) = 4 * x.significand + 2 := by
    have := neighbourhood_high_eq x
    linarith
  have hdigits : (x.significand : ℚ) < 2 ^ 53 := by exact_mod_cast significand_lt x
  rw [hvalue] at hfine hbelow habove
  unfold Attracts
  dsimp only
  generalize (2 : ℚ) ^ (x.exponent - 2) = unit at *
  have hstep : step < 4 * unit := by nlinarith
  have hlow : (x.neighbourhood.low : ℚ) * unit < r := by
    obtain hlow | ⟨hlow, hpower⟩ := neighbourhood_low_cases hzero
    · rw [hlow]
      linarith
    · rw [hpower] at hfine
      rw [hlow]
      push_cast at hfine
      linarith
  have hhigh : r < x.neighbourhood.high * unit := by
    rw [hhigh]
    linarith
  split_ifs
  · exact ⟨hlow.le, hhigh.le⟩
  · exact ⟨hlow, hhigh⟩

/-- A grid whose steps are fine enough has one that reads back. -/
theorem onGrid_isSome (hzero : x.isZero = false) {place : Int}
    (hfine : 10 ^ 16 * 10 ^ place ≤ x.value) : (x.onGrid place).isSome = true := by
  have hplace := ten_zpow_pos place
  set a := (atPlace x.quarterUnit.1 x.quarterUnit.2 place).1 with ha
  set b := (atPlace x.quarterUnit.1 x.quarterUnit.2 place).2 with hb
  have hden : 0 < b := atPlace_den_pos (quarterUnit_den_pos x) place
  have hpos : (0 : ℚ) < b := by exact_mod_cast hden
  have hratio : (a : ℚ) / b = 2 ^ (x.exponent - 2) / 10 ^ place := by
    rw [← quarterUnit_eq, ← atPlace_eq]
  set v := x.neighbourhood.value * a with hv
  have hvalue : (v : ℚ) / b * 10 ^ place = x.value := by
    have hquarters : (x.neighbourhood.value : ℚ) = 4 * x.significand := by
      simp only [neighbourhood]
      push_cast
      ring
    rw [hv, Nat.cast_mul, mul_div_assoc, hratio, mul_assoc, div_mul_cancel₀ _ hplace.ne',
      quarter_eq, hquarters, value]
    ring
  set near := if 2 * (v - v / b * b) < b || (2 * (v - v / b * b) == b && v / b % 2 == 0)
    then v / b else v / b + 1 with hnear
  have hbounds : (v : ℚ) / b - 1 / 2 ≤ near ∧ (near : ℚ) ≤ v / b + 1 / 2 := by
    refine half_step_of_bounds hden (nearer_step_bounds hden (fun h => ?_) fun h => ?_)
    all_goals
      simp only [Bool.or_eq_true, Bool.and_eq_true, decide_eq_true_iff, beq_iff_eq] at h
      omega
  have hholds : x.holds place near = true := by
    have hbelow := mul_le_mul_of_nonneg_right hbounds.1 hplace.le
    have habove := mul_le_mul_of_nonneg_right hbounds.2 hplace.le
    rw [holds_iff]
    refine attracts_of_half_step hzero hfine ?_ ?_ <;> rw [← hvalue] <;> linarith
  unfold onGrid
  simp only [← ha, ← hb, ← hv, ← hnear, hholds, if_true, Option.isSome_some]

/-! ### What is written -/

/-- What is found on the first grid that has a step is in the neighbourhood. -/
theorem holds_firstGrid (count : Nat) {place : Int}
    (h : ∃ j < count, (x.onGrid (place - j)).isSome = true) :
    x.holds (x.firstGrid count place).2 (x.firstGrid count place).1 = true := by
  induction count generalizing place with
  | zero =>
      obtain ⟨j, hj, -⟩ := h
      exact absurd hj (Nat.not_lt_zero j)
  | succ count ih =>
      cases hgrid : x.onGrid place with
      | some n =>
          simp only [firstGrid, hgrid]
          exact holds_of_onGrid hgrid
      | none =>
          simp only [firstGrid, hgrid]
          refine ih ?_
          obtain ⟨j, hj, hsome⟩ := h
          obtain _ | j := j
          · simp [hgrid] at hsome
          · refine ⟨j, by omega, ?_⟩
            rw [← hsome]
            congr 2
            push_cast
            ring

theorem log2_ratio_le (hfinite : x.isFinite = true) (hzero : x.isZero = false) :
    (x.ratio.1.log2 : Int) - x.ratio.2.log2 ≤ 100000 := by
  have hexponent := exponent_le hfinite
  have hdigits := significand_lt x
  have hpos := significand_pos hzero
  unfold ratio
  split_ifs with h
  · have hlog := (Nat.log2_lt hpos.ne').mpr hdigits
    dsimp only
    omega
  · have hnum : x.significand * 2 ^ x.exponent.natAbs < 2 ^ (53 + x.exponent.natAbs) := by
      rw [Nat.pow_add]
      exact Nat.mul_lt_mul_of_pos_right hdigits (Nat.pow_pos two_pos)
    have hne : x.significand * 2 ^ x.exponent.natAbs ≠ 0 :=
      (Nat.mul_pos hpos (Nat.pow_pos two_pos)).ne'
    have hlog := (Nat.log2_lt hne).mpr hnum
    simp only [Nat.pow_eq]
    omega

/-- Some step of a grid is written, and it is in the neighbourhood of the number. -/
theorem exists_step (hfinite : x.isFinite = true) (hzero : x.isZero = false) :
    ∃ (n : Nat) (place : Int), x.Attracts (n * 10 ^ place) ∧
      x.shortest = { digits := dropTrailingZeros (Nat.toDigits 10 n)
                     point := ((Nat.toDigits 10 n).length : Int) + place } := by
  have hvalue := value_pos hzero
  have hratio := ratio_eq x
  have hden := (ratio_den_pos x).ne'
  have hnum : x.ratio.1 ≠ 0 := by
    intro hnone
    rw [hnone] at hratio
    rw [← hratio] at hvalue
    simp at hvalue
  set top := decimalPoint x.ratio.1 x.ratio.2 with htop
  have hle := ten_zpow_decimalPoint_le hnum hden (log2_ratio_le hfinite hzero)
  rw [hratio] at hle
  have hlast : (x.onGrid (top - 1 - (16 : Nat))).isSome = true := by
    refine onGrid_isSome hzero (le_trans (le_of_eq ?_) hle)
    rw [← zpow_natCast, ← zpow_add₀ (by norm_num)]
    congr 1
    push_cast
    ring
  refine ⟨_, _, holds_iff.mp (holds_firstGrid 17 ⟨16, by decide, hlast⟩), ?_⟩
  unfold shortest
  simp only [← htop]

namespace Decimal

variable {d : Decimal}

def value (d : Decimal) : ℚ := Text.digitsValue 10 d.digits * 10 ^ (d.point - d.digits.length)

/-- There are digits, and the first of them is no zero. -/
structure IsNormal (d : Decimal) : Prop where
  decimal : ∀ c ∈ d.digits, Text.isDecimal c = true
  leading : ∃ c ds, d.digits = c :: ds ∧ c ≠ '0'

end Decimal

theorem exists_dropTrailingZeros_append (ds : List Char) :
    ∃ count, ds = dropTrailingZeros ds ++ List.replicate count '0' := by
  refine ⟨(ds.reverse.takeWhile (· == '0')).length, ?_⟩
  have hzeros : ds.reverse.takeWhile (· == '0') =
      List.replicate (ds.reverse.takeWhile (· == '0')).length '0' := by
    refine List.eq_replicate_of_mem fun c hc => ?_
    exact beq_iff_eq.mp (List.all_eq_true.mp List.all_takeWhile c hc)
  calc ds = (ds.reverse.takeWhile (· == '0') ++ ds.reverse.dropWhile (· == '0')).reverse := by
        rw [List.takeWhile_append_dropWhile, List.reverse_reverse]
    _ = dropTrailingZeros ds ++ (ds.reverse.takeWhile (· == '0')).reverse := List.reverse_append
    _ = _ := by rw [hzeros, List.reverse_replicate, List.length_replicate]

theorem mem_of_mem_dropTrailingZeros {ds : List Char} {c : Char} (h : c ∈ dropTrailingZeros ds) :
    c ∈ ds := by
  obtain ⟨count, hsplit⟩ := exists_dropTrailingZeros_append ds
  rw [hsplit]
  exact List.mem_append_left _ h

/-- What is written for a number is a decimal in its neighbourhood. -/
theorem shortest_spec (hfinite : x.isFinite = true) (hzero : x.isZero = false) :
    x.shortest.IsNormal ∧ x.Attracts x.shortest.value := by
  obtain ⟨n, place, hattracts, hshortest⟩ := exists_step hfinite hzero
  have hn : n ≠ 0 := by
    rintro rfl
    simpa using hattracts.pos hzero
  obtain ⟨count, hsplit⟩ := exists_dropTrailingZeros_append (Nat.toDigits 10 n)
  have hhead := Text.head?_toDigits_ne hn
  rw [hshortest]
  refine ⟨⟨fun c hc => ?_, ?_⟩, ?_⟩
  · exact Text.isDecimal_of_mem_toDigits (mem_of_mem_dropTrailingZeros hc)
  · cases hdigits : dropTrailingZeros (Nat.toDigits 10 n) with
    | nil =>
        rw [hdigits, List.nil_append] at hsplit
        cases count with
        | zero => exact absurd hsplit Nat.toDigits_ne_nil
        | succ count => simp [hsplit, List.replicate_succ] at hhead
    | cons c ds =>
        refine ⟨c, ds, rfl, ?_⟩
        rw [hsplit, hdigits] at hhead
        simpa using hhead
  · have hvalue : n = Text.digitsValue 10 (dropTrailingZeros (Nat.toDigits 10 n)) * 10 ^ count := by
      conv_lhs => rw [← Text.digitsValue_toDigits n, hsplit, Text.digitsValue_append_zeros]
    have hlength := congrArg List.length hsplit
    rw [List.length_append, List.length_replicate] at hlength
    have hplace : ((Nat.toDigits 10 n).length : Int) + place -
        (dropTrailingZeros (Nat.toDigits 10 n)).length = count + place := by omega
    have hcast : (n : ℚ) =
        Text.digitsValue 10 (dropTrailingZeros (Nat.toDigits 10 n)) * 10 ^ count := by
      exact_mod_cast hvalue
    unfold Decimal.value
    dsimp only
    rwa [hplace, zpow_add₀ (by norm_num), zpow_natCast, ← mul_assoc, ← hcast]

end Binary64

end DrawnSchema
