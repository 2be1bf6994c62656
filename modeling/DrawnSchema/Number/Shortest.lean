import DrawnSchema.Number.Binary64

namespace DrawnSchema

namespace Binary64

/-- A decimal `0.d₁d₂… * 10 ^ point`, by its digits. -/
structure Decimal where
  digits : List Char
  point : Int
deriving DecidableEq

/-- The number `num / den * 10 ^ (-k)` as a fraction. -/
def atPlace (num den : Nat) (k : Int) : Nat × Nat :=
  if k ≤ 0 then (num * Nat.pow 10 k.natAbs, den) else (num, den * Nat.pow 10 k.natAbs)

/-- The `k` with `10 ^ (k - 1) ≤ num / den < 10 ^ k`, from an estimate that is off by at most
one. -/
def decimalPoint (num den : Nat) : Int :=
  let estimate := (((num.log2 : Int) - (den.log2 : Int)) * 30103).fdiv 100000 + 1
  let below (k : Int) : Bool := let (n, d) := atPlace num den k; n < d
  if below (estimate - 1) then estimate - 1
  else if below estimate then estimate
  else if below (estimate + 1) then estimate + 1
  else estimate + 2

/-- The reals that round to a finite number form an interval. Its ends, and the number itself, in
quarters of a unit in the last place. -/
structure Neighbourhood where
  low : Nat
  value : Nat
  high : Nat
  closed : Bool

def neighbourhood (x : Binary64) : Neighbourhood :=
  let m := x.significand
  { low := 4 * m - if x.fractionField = 0 && x.exponentField > 1 then 1 else 2
    value := 4 * m
    high := 4 * m + 2
    closed := m % 2 == 0 }

/-- The quarter units of `x` as a fraction of one. -/
def quarterUnit (x : Binary64) : Nat × Nat :=
  let q := x.exponent - 2
  if q < 0 then (1, Nat.pow 2 q.natAbs) else (Nat.pow 2 q.natAbs, 1)

def holds (x : Binary64) (place : Int) (n : Nat) : Bool :=
  let r := x.neighbourhood
  let (unit, divisor) := x.quarterUnit
  let (a, b) := atPlace unit divisor place
  if r.closed then r.low * a ≤ n * b && n * b ≤ r.high * a
  else r.low * a < n * b && n * b < r.high * a

/-- The step of the grid `10 ^ place` nearest to `x` that reads back as `x`, if there is one: it is
one of the two that enclose `x`. -/
def onGrid (x : Binary64) (place : Int) : Option Nat :=
  let (unit, divisor) := x.quarterUnit
  let (a, b) := atPlace unit divisor place
  let value := x.neighbourhood.value * a
  let down := value / b
  let near := if 2 * (value - down * b) < b ||
      (2 * (value - down * b) == b && down % 2 == 0) then down else down + 1
  let far := if near == down then down + 1 else down
  if x.holds place near then some near
  else if x.holds place far then some far
  else none

/-- The digits of the first grid that has a step for `x`, from one digit on. Seventeen digits
always read back. -/
def firstGrid (x : Binary64) : Nat → Int → Nat × Int
  | 0, place => (x.ratio.1 / x.ratio.2, place)
  | more + 1, place =>
    match x.onGrid place with
    | some n => (n, place)
    | none => firstGrid x more (place - 1)

def dropTrailingZeros (ds : List Char) : List Char :=
  (ds.reverse.dropWhile (· == '0')).reverse

/-- The fewest digits that read back as a finite number other than zero. -/
def shortest (x : Binary64) : Decimal :=
  let (num, den) := x.ratio
  let top := decimalPoint num den
  let (n, place) := x.firstGrid 17 (top - 1)
  let ds := Nat.toDigits 10 n
  { digits := dropTrailingZeros ds, point := (ds.length : Int) + place }

/-- Positional when `10 ^ (-4) ≤ |x| < 10 ^ 16`, with a digit on both sides of the point; otherwise
one digit before the point and an exponent of at least two digits. -/
def Decimal.layout (d : Decimal) : List Char :=
  if d.point ≤ -4 || d.point > 16 then
    let e := d.point - 1
    let sign := if e < 0 then '-' else '+'
    let ds := Nat.toDigits 10 e.natAbs
    let ds := if ds.length < 2 then '0' :: ds else ds
    let head := match d.digits with
      | [] => ['0']
      | [c] => [c]
      | c :: rest => c :: '.' :: rest
    head ++ 'e' :: sign :: ds
  else if d.point ≤ 0 then
    ['0', '.'] ++ List.replicate d.point.natAbs '0' ++ d.digits
  else
    let n := d.point.natAbs
    if d.digits.length ≤ n then
      d.digits ++ List.replicate (n - d.digits.length) '0' ++ ['.', '0']
    else d.digits.take n ++ '.' :: d.digits.drop n

def finiteText (x : Binary64) : List Char :=
  let body := if x.isZero then ['0', '.', '0'] else x.shortest.layout
  if x.isNegative then '-' :: body else body

def toText (x : Binary64) : String :=
  if x.isNaN then "nan"
  else if x.isInfinite then if x.isNegative then "-inf" else "inf"
  else String.ofList x.finiteText

end Binary64

end DrawnSchema
