import DrawnSchema.Json.Printer
import DrawnSchema.Json.Reader
import DrawnSchema.Proofs.Number.Shortest

/-!
# Numbers are read as they were written

A number ends where no digit, point or exponent follows. Up to there a whole number is read from its
digits, and any other one from the layout of its shortest digits, wherever the point lies: what is
read has the value of these digits, and rounds to the number they were written for. The NaNs are
all read as the one that has a literal.
-/

namespace DrawnSchema

/-- A number as it is read back: of the NaNs only one is. -/
def Binary64.canonical (x : Binary64) : Binary64 := if x.isNaN then nan else x

namespace Json

/-- What follows goes on with no number. -/
def EndsNumber (rest : List Char) : Prop :=
  ∀ c, rest.head? = some c → Text.isDecimal c = false ∧ c ≠ '.' ∧ c ≠ 'e' ∧ c ≠ 'E'

variable {rest : List Char}

theorem EndsNumber.not_decimal (h : EndsNumber rest) :
    ∀ c, rest.head? = some c → Text.isDecimal c = false := fun c hc => (h c hc).1

theorem endsNumber_nil : EndsNumber [] := nofun

theorem endsNumber_cons {c : Char} (h : c ∈ [',', '\n']) : EndsNumber (c :: rest) := by
  rintro _ ⟨⟩
  revert h
  simp only [List.mem_cons, List.not_mem_nil, or_false]
  rintro (rfl | rfl) <;> decide

/-! ### Parts of a number -/

theorem spanDigits_append {ds : List Char} (hds : ∀ c ∈ ds, Text.isDecimal c = true)
    (hrest : ∀ c, rest.head? = some c → Text.isDecimal c = false) :
    spanDigits (ds ++ rest) = (ds, rest) := by
  have hstop : rest.takeWhile Text.isDecimal = [] := by
    cases rest with
    | nil => rfl
    | cons c cs => simp [hrest c rfl]
  have hdrop : rest.dropWhile Text.isDecimal = rest := by
    cases rest with
    | nil => rfl
    | cons c cs => simp [hrest c rfl]
  rw [spanDigits, List.span_eq_takeWhile_dropWhile, List.takeWhile_append_of_pos hds,
    List.dropWhile_append_of_pos hds, hstop, hdrop, List.append_nil]

theorem readWhole_digits {c : Char} {ds : List Char} (hzero : c ≠ '0')
    (hds : ∀ d ∈ c :: ds, Text.isDecimal d = true)
    (hrest : ∀ d, rest.head? = some d → Text.isDecimal d = false) :
    readWhole (c :: ds ++ rest) = some (c :: ds, rest) := by
  have hspan := spanDigits_append hds hrest
  rw [List.cons_append] at hspan ⊢
  rw [readWhole, if_pos (hds c List.mem_cons_self), hspan]
  simpa using hzero

theorem readPlaces_of_ne (h : rest.head? ≠ some '.') : readPlaces rest = ([], rest) := by
  unfold readPlaces
  split
  · exact absurd rfl h
  · rfl

theorem readPlaces_digits {ds : List Char} (hne : ds ≠ [])
    (hds : ∀ d ∈ ds, Text.isDecimal d = true)
    (hrest : ∀ d, rest.head? = some d → Text.isDecimal d = false) :
    readPlaces ('.' :: (ds ++ rest)) = (ds, rest) := by
  rw [readPlaces, spanDigits_append hds hrest]
  split
  · next hnone => exact absurd (Prod.mk.inj hnone).1 hne
  · rfl

theorem readExponent_of_ends (h : EndsNumber rest) : readExponent rest = (none, rest) := by
  cases rest with
  | nil => rfl
  | cons c cs =>
      obtain ⟨-, -, hsmall, hlarge⟩ := h c rfl
      simp [readExponent, hsmall, hlarge]

/-- The digits of an exponent as they are written: with a zero in front if there is only one. -/
def exponentDigits (e : Int) : List Char :=
  if (Nat.toDigits 10 e.natAbs).length < 2 then '0' :: Nat.toDigits 10 e.natAbs
  else Nat.toDigits 10 e.natAbs

def exponentText (e : Int) : List Char :=
  'e' :: (if e < 0 then '-' else '+') :: exponentDigits e

theorem isDecimal_of_mem_exponentDigits {e : Int} :
    ∀ c ∈ exponentDigits e, Text.isDecimal c = true := by
  intro c hc
  unfold exponentDigits at hc
  split_ifs at hc
  · obtain rfl | hc := List.mem_cons.mp hc
    · rfl
    · exact Text.isDecimal_of_mem_toDigits hc
  · exact Text.isDecimal_of_mem_toDigits hc

theorem digitsValue_exponentDigits (e : Int) :
    Text.digitsValue 10 (exponentDigits e) = e.natAbs := by
  unfold exponentDigits
  split_ifs
  · exact (Text.digitsValue_zeros_append 10 1 _).trans (Text.digitsValue_toDigits _)
  · exact Text.digitsValue_toDigits _

theorem exponentDigits_ne_nil (e : Int) : exponentDigits e ≠ [] := by
  unfold exponentDigits
  split_ifs
  · exact List.cons_ne_nil _ _
  · exact Nat.toDigits_ne_nil

theorem readExponent_exponentText (e : Int) (h : EndsNumber rest) :
    readExponent (exponentText e ++ rest) = (some e, rest) := by
  have hspan := spanDigits_append (isDecimal_of_mem_exponentDigits (e := e)) h.not_decimal
  have hvalue := digitsValue_exponentDigits e
  obtain ⟨d, ds, hdigits⟩ := List.exists_cons_of_ne_nil (exponentDigits_ne_nil e)
  have hsigned : (if e < 0 then -(e.natAbs : Int) else e.natAbs) = e := by
    split_ifs <;> omega
  rw [hdigits] at hspan hvalue
  unfold exponentText
  rw [hdigits]
  split_ifs at hsigned ⊢
  all_goals
    simp only [List.cons_append, readExponent, readSign, beq_self_eq_true, Bool.true_or, if_true]
    rw [List.cons_append] at hspan
    simp only [hspan, hvalue, hsigned, Bool.false_eq_true, if_false]

/-! ### Decimals as they are laid out -/

/-- Characters are read as a number of some value. -/
def ReadsAs (cs : List Char) (value : ℚ) : Prop :=
  ∀ negative start rest, EndsNumber rest →
    ∃ (digits : Nat) (exponent : Int), (digits : ℚ) * 10 ^ exponent = value ∧
      readNumber negative start (cs ++ rest) =
        .ok (.float (Binary64.ofDecimal negative digits exponent), rest)

/-- A number with places or an exponent has the value of its digits. -/
theorem readNumber_of_parts (negative : Bool) (start : List Char)
    {cs whole places r r' : List Char} {exponent : Option Int}
    (hwhole : readWhole cs = some (whole, r))
    (hplaces : readPlaces r = (places, r')) (hexponent : readExponent r' = (exponent, rest))
    (hparts : (places.isEmpty && exponent.isNone) = false) :
    readNumber negative start cs =
      .ok (.float (Binary64.ofDecimal negative (Text.digitsValue 10 (whole ++ places))
        (exponent.getD 0 - (places.length : Int))), rest) := by
  simp only [readNumber, hwhole, hplaces, hexponent, hparts, Bool.false_eq_true, if_false]

theorem not_decimal_cons {c : Char} (h : Text.isDecimal c = false) (cs : List Char) :
    ∀ d, (c :: cs).head? = some d → Text.isDecimal d = false := by
  rintro _ ⟨⟩
  exact h

theorem readsAs_positional (whole places : List Char)
    (hwhole : ∀ r, (∀ d, r.head? = some d → Text.isDecimal d = false) →
      readWhole (whole ++ r) = some (whole, r))
    (hne : places ≠ []) (hplaces : ∀ d ∈ places, Text.isDecimal d = true) :
    ReadsAs (whole ++ '.' :: places)
      (Text.digitsValue 10 (whole ++ places) * 10 ^ (-(places.length : Int))) := by
  intro negative start rest hrest
  have hread := readNumber_of_parts negative start
    (hwhole _ (not_decimal_cons (c := '.') rfl (places ++ rest)))
    (readPlaces_digits hne hplaces hrest.not_decimal) (readExponent_of_ends hrest)
    (by simpa using hne)
  refine ⟨_, 0 - (places.length : Int), by rw [zero_sub], ?_⟩
  rw [List.append_assoc, List.cons_append]
  exact hread

theorem readsAs_scientific {c : Char} {ds : List Char} (point : Int) (hzero : c ≠ '0')
    (hds : ∀ d ∈ c :: ds, Text.isDecimal d = true) :
    ReadsAs ((if ds = [] then [c] else c :: '.' :: ds) ++ exponentText (point - 1))
      (Binary64.Decimal.value ⟨c :: ds, point⟩) := by
  intro negative start rest hrest
  have hexponent := readExponent_exponentText (point - 1) hrest
  have hvalue : (Text.digitsValue 10 (c :: ds) : ℚ) * 10 ^ (point - 1 - (ds.length : Int)) =
      Binary64.Decimal.value ⟨c :: ds, point⟩ := by
    rw [Binary64.Decimal.value, List.length_cons]
    congr 2
    push_cast
    ring
  have hone : ∀ d ∈ [c], Text.isDecimal d = true := by
    rintro _ (_ | ⟨_, ⟨⟩⟩)
    exact hds c List.mem_cons_self
  refine ⟨_, _, hvalue, ?_⟩
  split_ifs with hempty
  · subst hempty
    have hmark := not_decimal_cons (c := 'e') rfl ((exponentText (point - 1)).tail ++ rest)
    have hwhole := readWhole_digits hzero hone hmark
    have hplaces : readPlaces (exponentText (point - 1) ++ rest) = ([], _) :=
      readPlaces_of_ne nofun
    exact readNumber_of_parts negative start hwhole hplaces hexponent rfl
  · have hmark := not_decimal_cons (c := 'e') rfl ((exponentText (point - 1)).tail ++ rest)
    have hpoint := not_decimal_cons (c := '.') rfl (ds ++ (exponentText (point - 1) ++ rest))
    have hwhole := readWhole_digits hzero hone hpoint
    have hplaces := readPlaces_digits hempty
      (fun d hd => hds d (List.mem_cons_of_mem c hd)) hmark
    have hread := readNumber_of_parts negative start hwhole hplaces hexponent (by simp)
    simpa using hread

theorem value_mk (digits : List Char) (point : Int) :
    Binary64.Decimal.value ⟨digits, point⟩ =
      Text.digitsValue 10 digits * 10 ^ (point - digits.length) := rfl

/-- The point stands at or before the first digit. -/
theorem readsAs_small {digits : List Char} {point : Int}
    (hdecimal : ∀ d ∈ digits, Text.isDecimal d = true) (hne : digits ≠ []) (hpoint : point ≤ 0) :
    ReadsAs (['0', '.'] ++ List.replicate point.natAbs '0' ++ digits)
      (Binary64.Decimal.value ⟨digits, point⟩) := by
  have hplaces : ∀ d ∈ List.replicate point.natAbs '0' ++ digits, Text.isDecimal d = true := by
    intro d hd
    obtain hd | hd := List.mem_append.mp hd
    · rw [List.eq_of_mem_replicate hd]
      rfl
    · exact hdecimal d hd
  have hread := readsAs_positional ['0'] _ (fun _ _ => rfl) (by simp [hne]) hplaces
  have hvalue : (Text.digitsValue 10 (['0'] ++ (List.replicate point.natAbs '0' ++ digits)) : ℚ) *
      10 ^ (-((List.replicate point.natAbs '0' ++ digits).length : Int)) =
      Binary64.Decimal.value ⟨digits, point⟩ := by
    have hzeros := Text.digitsValue_zeros_append 10 (point.natAbs + 1) digits
    rw [List.replicate_succ, List.cons_append] at hzeros
    rw [List.singleton_append, hzeros, value_mk, List.length_append, List.length_replicate]
    congr 2
    omega
  rw [← hvalue]
  simpa using hread

/-- All digits stand before the point, with zeros behind them. -/
theorem readsAs_whole {c : Char} {ds : List Char} {count : Nat} {point : Int} (hzero : c ≠ '0')
    (hdecimal : ∀ d ∈ c :: ds, Text.isDecimal d = true)
    (hpoint : point = (c :: ds).length + count) :
    ReadsAs (c :: ds ++ List.replicate count '0' ++ ['.', '0'])
      (Binary64.Decimal.value ⟨c :: ds, point⟩) := by
  have hwhole : ∀ d ∈ c :: (ds ++ List.replicate count '0'), Text.isDecimal d = true := by
    intro d hd
    obtain hd | hd := List.mem_append.mp (List.cons_append ▸ hd)
    · exact hdecimal d hd
    · rw [List.eq_of_mem_replicate hd]
      rfl
  have hread := readsAs_positional _ ['0'] (fun _ hr => readWhole_digits hzero hwhole hr)
    (List.cons_ne_nil _ _) (by simp [show Text.isDecimal '0' = true from rfl])
  have hvalue : (Text.digitsValue 10 (c :: (ds ++ List.replicate count '0') ++ ['0']) : ℚ) *
      10 ^ (-((['0'] : List Char).length : Int)) = Binary64.Decimal.value ⟨c :: ds, point⟩ := by
    have hzeros := Text.digitsValue_append_zeros 10 (count + 1) (c :: ds)
    rw [List.replicate_succ', ← List.append_assoc] at hzeros
    rw [← List.cons_append, hzeros, value_mk, hpoint]
    push_cast
    rw [mul_assoc, ← zpow_natCast (10 : ℚ) (count + 1), ← zpow_add₀ (by norm_num)]
    congr 2
    rw [List.length_singleton]
    omega
  rw [← hvalue]
  exact hread

/-- The point stands between two digits. -/
theorem readsAs_mixed {c : Char} {ds : List Char} {n : Nat} (hzero : c ≠ '0')
    (hdecimal : ∀ d ∈ c :: ds, Text.isDecimal d = true) (hn : n < ds.length) :
    ReadsAs ((c :: ds).take (n + 1) ++ '.' :: (c :: ds).drop (n + 1))
      (Binary64.Decimal.value ⟨c :: ds, (n + 1 : Nat)⟩) := by
  have hwhole : ∀ d ∈ c :: ds.take n, Text.isDecimal d = true := by
    intro d hd
    exact hdecimal d (List.mem_of_mem_take (i := n + 1) hd)
  have hplaces : ∀ d ∈ ds.drop n, Text.isDecimal d = true :=
    fun d hd => hdecimal d (List.mem_cons_of_mem c (List.mem_of_mem_drop hd))
  have hne : ds.drop n ≠ [] := by simpa using hn
  have hread := readsAs_positional _ _ (fun _ hr => readWhole_digits hzero hwhole hr) hne hplaces
  have hvalue : (Text.digitsValue 10 (c :: ds.take n ++ ds.drop n) : ℚ) *
      10 ^ (-((ds.drop n).length : Int)) =
        Binary64.Decimal.value ⟨c :: ds, (n + 1 : Nat)⟩ := by
    rw [List.cons_append, List.take_append_drop, value_mk, List.length_drop, List.length_cons]
    congr 2
    omega
  rw [← hvalue]
  exact hread

/-- A decimal is read with the value that it has, wherever its point lies. -/
theorem readsAs_layout {d : Binary64.Decimal} (hd : d.IsNormal) : ReadsAs d.layout d.value := by
  obtain ⟨digits, point⟩ := d
  obtain ⟨hdecimal, c, ds, rfl, hzero⟩ := hd
  unfold Binary64.Decimal.layout
  split_ifs with hfar hsmall
  · have hread := readsAs_scientific point hzero hdecimal
    cases ds with
    | nil => exact hread
    | cons d ds => exact hread
  · exact readsAs_small hdecimal (List.cons_ne_nil c ds) hsmall
  · have hpoint : 0 < point := not_le.mp hsmall
    dsimp only
    split_ifs with hlong
    · exact readsAs_whole hzero hdecimal (by omega)
    · obtain ⟨n, rfl⟩ : ∃ n : Nat, point = (n + 1 : Nat) := ⟨point.toNat - 1, by omega⟩
      rw [Int.natAbs_natCast, List.length_cons] at hlong
      exact readsAs_mixed hzero hdecimal (by omega)

/-! ### Numbers as values -/

theorem ne_of_decimal {c d : Char} (hc : Text.isDecimal c = true) (hd : Text.isDecimal d = false) :
    d ≠ c := by
  rintro rfl
  rw [hc] at hd
  cases hd

theorem readConstant_of_decimal {c : Char} (h : Text.isDecimal c = true) (cs : List Char) :
    readConstant (c :: cs) = none := by
  have hne {d : Char} (hd : Text.isDecimal d = false) := ne_of_decimal h hd
  simp [readConstant, constants, hne (d := 'n') rfl, hne (d := 't') rfl, hne (d := 'f') rfl,
    hne (d := 'N') rfl, hne (d := 'I') rfl, hne (d := '-') rfl]

theorem readConstant_of_negative {c : Char} (h : Text.isDecimal c = true) (cs : List Char) :
    readConstant ('-' :: c :: cs) = none := by
  have hne := ne_of_decimal h (d := 'I') rfl
  simp [readConstant, constants, hne]

theorem exists_digit_of_readNumber {negative : Bool} {start cs : List Char}
    {r : Value × List Char} (h : readNumber negative start cs = .ok r) :
    ∃ c more, cs = c :: more ∧ Text.isDecimal c = true := by
  unfold readNumber at h
  cases cs with
  | nil => cases h
  | cons c cs =>
      refine ⟨c, cs, rfl, ?_⟩
      by_contra hc
      have hnone : readWhole (c :: cs) = none := by
        unfold readWhole
        split
        · next heq =>
          cases heq
          exact absurd rfl hc
        · next heq =>
          cases heq
          rw [if_neg hc]
        · rfl
      rw [hnone] at h
      cases h

/-- A number that is read behind its sign is read with it. -/
theorem readAtom_signed {negative : Bool} {cs : List Char} {r : Value × List Char}
    (h : ∀ start, readNumber negative start cs = .ok r) :
    readAtom (if negative then '-' :: cs else cs) = .ok r := by
  obtain ⟨c, more, rfl, hdecimal⟩ := exists_digit_of_readNumber (h [])
  cases negative with
  | true =>
      simp only [if_true, readAtom, readConstant_of_negative hdecimal]
      exact h _
  | false =>
      simp only [Bool.false_eq_true, if_false, readAtom, readConstant_of_decimal hdecimal]
      split
      · next heq => exact absurd (List.cons.inj heq).1.symm (ne_of_decimal hdecimal rfl)
      · next heq => exact absurd (List.cons.inj heq).1.symm (ne_of_decimal hdecimal rfl)
      · exact h _

theorem readAtom_finite {x : Binary64} (hfinite : x.isFinite = true) (h : EndsNumber rest) :
    readAtom (x.finiteText ++ rest) = .ok (.float x, rest) := by
  have hsigned (body : List Char) :
      (if x.isNegative then '-' :: body else body) ++ rest =
        if x.isNegative then '-' :: (body ++ rest) else body ++ rest := by
    split_ifs <;> rfl
  unfold Binary64.finiteText
  rw [hsigned]
  apply readAtom_signed
  intro start
  split_ifs with hzero
  · have hread : readNumber x.isNegative start (['0', '.', '0'] ++ rest) =
        .ok (.float (Binary64.zero x.isNegative), rest) := by
      have hplaces := readPlaces_digits (List.cons_ne_nil '0' []) (by simp [Text.isDecimal])
        h.not_decimal
      have hwhole : readWhole (['0', '.', '0'] ++ rest) = some (['0'], '.' :: '0' :: rest) := rfl
      exact readNumber_of_parts _ _ hwhole hplaces (readExponent_of_ends h) rfl
    rw [hread, Binary64.zero_of_isZero hzero]
  · have hnonzero : x.isZero = false := Bool.eq_false_iff.mpr hzero
    obtain ⟨hnormal, hattracts⟩ := Binary64.shortest_spec hfinite hnonzero
    obtain ⟨digits, exponent, hvalue, hread⟩ :=
      readsAs_layout hnormal x.isNegative start rest h
    rw [← hvalue] at hattracts
    rw [hread, Binary64.ofDecimal_of_attracts hfinite hnonzero hattracts]

theorem readAtom_floatText (x : Binary64) (h : EndsNumber rest) :
    readAtom ((floatText x).toList ++ rest) = .ok (.float x.canonical, rest) := by
  unfold floatText Binary64.canonical
  split_ifs with hnan hinfinite hsign
  · rfl
  · have hvalue := Binary64.infinity_of_isInfinite hinfinite
    rw [hsign] at hvalue
    rw [← hvalue]
    rfl
  · have hvalue := Binary64.infinity_of_isInfinite hinfinite
    rw [Bool.eq_false_iff.mpr hsign] at hvalue
    rw [← hvalue]
    rfl
  · have hfinite : x.isFinite = true := by
      simp only [Binary64.isNaN, Binary64.isInfinite, Binary64.isFinite, Bool.and_eq_true,
        beq_iff_eq, bne_iff_ne] at hnan hinfinite ⊢
      tauto
    rw [Binary64.toText, if_neg hnan, if_neg hinfinite, String.toList_ofList]
    exact readAtom_finite hfinite h

theorem readWhole_toDigits (n : Nat) (h : EndsNumber rest) :
    readWhole (Nat.toDigits 10 n ++ rest) = some (Nat.toDigits 10 n, rest) := by
  by_cases hzero : n = 0
  · subst hzero
    rfl
  have hhead := Text.head?_toDigits_ne hzero
  have hdecimal : ∀ c ∈ Nat.toDigits 10 n, Text.isDecimal c = true :=
    fun c hc => Text.isDecimal_of_mem_toDigits hc
  obtain ⟨c, ds, hdigits⟩ := List.exists_cons_of_ne_nil (Nat.toDigits_ne_nil (b := 10) (n := n))
  rw [hdigits] at hhead hdecimal ⊢
  exact readWhole_digits (by simpa using hhead) hdecimal h.not_decimal

/-- A number that is not overlong has no more digits than may be read. -/
theorem length_toDigits_le {limit n : Nat} (hlimit : 0 < limit) (h : n < Nat.pow 10 limit) :
    (Nat.toDigits 10 n).length ≤ limit :=
  (Nat.length_toDigits_le_iff (by decide) hlimit).mpr h

theorem readNumber_toDigits {n : Nat} (hshort : (Nat.toDigits 10 n).length ≤ Text.digitLimit)
    (negative : Bool) (start : List Char) (h : EndsNumber rest) :
    readNumber negative start (Nat.toDigits 10 n ++ rest) =
      .ok (.int (if negative then -(n : Int) else n), rest) := by
  have hplaces : readPlaces rest = ([], rest) :=
    readPlaces_of_ne fun hpoint => (h '.' hpoint).2.1 rfl
  simp only [readNumber, readWhole_toDigits n h, hplaces, readExponent_of_ends h,
    if_neg (Nat.not_lt.mpr hshort),
    Text.digitsValue_toDigits]
  rfl

/-- A whole number is read back if it is short enough to be read at all. -/
theorem readAtom_toString {n : Int} (hshort : Text.isOverlong n = false) (h : EndsNumber rest) :
    readAtom ((toString n).toList ++ rest) = .ok (.int n, rest) := by
  have hbound : n.natAbs < Nat.pow 10 Text.digitLimit := by
    simpa [Text.isOverlong] using hshort
  have hlength := length_toDigits_le (by decide) hbound
  have hread (negative : Bool) (start : List Char) := readNumber_toDigits hlength negative start h
  cases n with
  | ofNat m =>
      have hatom := readAtom_signed (hread false)
      have htext : (toString (Int.ofNat m)).toList = Nat.toDigits 10 m := String.toList_ofList
      rw [htext]
      exact hatom
  | negSucc m =>
      have hatom := readAtom_signed (hread true)
      have htext : (toString (Int.negSucc m)).toList = '-' :: Nat.toDigits 10 (m + 1) := by
        simp [toString, Int.repr, Nat.repr]
      rw [htext]
      exact hatom

end Json

end DrawnSchema
