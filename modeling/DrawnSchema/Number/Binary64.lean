namespace DrawnSchema

/-- A double-precision number, given by its sixty-four bits. -/
structure Binary64 where
  bits : UInt64
deriving DecidableEq, Repr, Inhabited

namespace Binary64

def isNegative (x : Binary64) : Bool := x.bits >>> 63 == 1

def exponentField (x : Binary64) : Nat := ((x.bits >>> 52) &&& 0x7ff).toNat

def fractionField (x : Binary64) : Nat := (x.bits &&& 0xfffffffffffff).toNat

def isNaN (x : Binary64) : Bool := x.exponentField == 2047 && x.fractionField != 0

def isInfinite (x : Binary64) : Bool := x.exponentField == 2047 && x.fractionField == 0

def isFinite (x : Binary64) : Bool := x.exponentField != 2047

def isZero (x : Binary64) : Bool := x.exponentField == 0 && x.fractionField == 0

/-- The magnitude of a finite number is `significand * 2 ^ exponent`. -/
def significand (x : Binary64) : Nat :=
  if x.exponentField = 0 then x.fractionField else x.fractionField + Nat.pow 2 52

def exponent (x : Binary64) : Int := (max x.exponentField 1 : Nat) - 1075

def ofParts (negative : Bool) (magnitude : Nat) : Binary64 :=
  ⟨UInt64.ofNat (magnitude + if negative then Nat.pow 2 63 else 0)⟩

def zero (negative : Bool) : Binary64 := ofParts negative 0

def infinity (negative : Bool) : Binary64 := ofParts negative (2047 * Nat.pow 2 52)

def nan : Binary64 := ofParts false (2047 * Nat.pow 2 52 + Nat.pow 2 51)

def negate (x : Binary64) : Binary64 := ⟨x.bits ^^^ 0x8000000000000000⟩

/-- The number `num / den` as a fraction of `2 ^ q`. -/
def scaled (num den : Nat) (q : Int) : Nat × Nat :=
  if q ≤ 0 then (num * Nat.pow 2 q.natAbs, den) else (num, den * Nat.pow 2 q.natAbs)

/-- The integer nearest to `num / den`, the even one when two are equally near. -/
def nearestInteger (num den : Nat) : Nat :=
  let whole := num / den
  let rest := num % den
  if 2 * rest > den || (2 * rest == den && whole % 2 == 1) then whole + 1 else whole

/-- The number nearest to `num / den`. The exponent field counts on from the least exponent, so a
significand that rounds up to a power of two carries into it by itself. -/
def ofRatio (negative : Bool) (num den : Nat) : Binary64 :=
  if num = 0 then zero negative
  else
    let low : Int := (num.log2 : Int) - (den.log2 : Int) - 53
    let (n, d) := scaled num den low
    let q := max (if n / d < Nat.pow 2 53 then low else low + 1) (-1074)
    let (n, d) := scaled num den q
    let magnitude := (q + 1074).toNat * Nat.pow 2 52 + nearestInteger n d
    if magnitude < 2047 * Nat.pow 2 52 then ofParts negative magnitude else infinity negative

/-- The number nearest to `digits * 10 ^ exp`. Far outside the range the answer is known without
the power of ten. -/
def ofDecimal (negative : Bool) (digits : Nat) (exp : Int) : Binary64 :=
  if digits = 0 then zero negative
  else if exp > 400 then infinity negative
  else if exp + (digits.log2 / 3 : Nat) + 1 < -400 then zero negative
  else if exp < 0 then ofRatio negative digits (Nat.pow 10 exp.natAbs)
  else ofRatio negative (digits * Nat.pow 10 exp.natAbs) 1

def ratio (x : Binary64) : Nat × Nat :=
  if x.exponent < 0 then (x.significand, Nat.pow 2 x.exponent.natAbs)
  else (x.significand * Nat.pow 2 x.exponent.natAbs, 1)

def signedNumerator (x : Binary64) : Int :=
  if x.isNegative then -(x.ratio.1 : Int) else x.ratio.1

def toInt? (x : Binary64) : Option Int :=
  if x.isFinite && x.ratio.1 % x.ratio.2 == 0 then
    some (x.signedNumerator / (x.ratio.2 : Int))
  else none

def ofNat? (n : Nat) : Option Binary64 := (some (ofRatio false n 1)).filter isFinite

/-- The NaN that a computation comes to. -/
def undefinedResult : Binary64 := nan.negate

def add (x y : Binary64) : Binary64 :=
  if x.isNaN || y.isNaN then undefinedResult
  else if x.isInfinite then
    if y.isInfinite && x.isNegative != y.isNegative then undefinedResult else x
  else if y.isInfinite then y
  else
    let sum := x.signedNumerator * (y.ratio.2 : Int) + y.signedNumerator * (x.ratio.2 : Int)
    if sum = 0 then zero (x.isNegative && y.isNegative)
    else ofRatio (sum < 0) sum.natAbs (x.ratio.2 * y.ratio.2)

def mul (x y : Binary64) : Binary64 :=
  let negative := x.isNegative != y.isNegative
  if x.isNaN || y.isNaN then undefinedResult
  else if x.isInfinite || y.isInfinite then
    if x.isZero || y.isZero then undefinedResult else infinity negative
  else ofRatio negative (x.ratio.1 * y.ratio.1) (x.ratio.2 * y.ratio.2)

/-- Equality of numbers, under which the two zeros agree. Of the NaNs only `nan` agrees with
itself. -/
def sameNumber (x y : Binary64) : Bool :=
  (x.isZero && y.isZero) || (x == y && x != undefinedResult)

end Binary64

end DrawnSchema
