import RelationalGraphQL.Word

/-!
Finite double-precision numbers, held exactly: a sign, an integer mantissa and a power of two. The two
infinities and the not-a-number values have no place here; an operation that would produce one answers `none`.
-/

namespace RelationalGraphQL

/-- The one form in which a double writes its magnitude `mantissa * 2 ^ exponent`: a full mantissa, or the least
exponent. -/
def Binary64.Canonical (mantissa : Nat) (exponent : Int) : Prop :=
  mantissa < twoPow 53 ∧ -1074 ≤ exponent ∧ exponent ≤ 971 ∧ (twoPow 52 ≤ mantissa ∨ exponent = -1074)

instance (mantissa : Nat) (exponent : Int) : Decidable (Binary64.Canonical mantissa exponent) := by
  unfold Binary64.Canonical
  infer_instance

/-- A finite double. Both zeros are doubles, told apart by `negative`. -/
structure Binary64 where
  negative : Bool
  mantissa : Nat
  exponent : Int
  canonical : Binary64.Canonical mantissa exponent
  deriving DecidableEq

namespace Binary64

/-- The quotient as an integer, to the nearest, a half to the even neighbour. -/
def roundDiv (numerator denominator : Nat) : Nat :=
  let quotient := numerator / denominator
  let twice := 2 * (numerator % denominator)
  if twice < denominator then quotient
  else if denominator < twice then quotient + 1
  else quotient + quotient % 2

/-- `value * 2 ^ (-exponent)` as a fraction. -/
def scaled (numerator denominator : Nat) (exponent : Int) : Nat × Nat :=
  if 0 ≤ exponent then (numerator, denominator * twoPow exponent.toNat)
  else (numerator * twoPow (-exponent).toNat, denominator)

def zero (negative : Bool) : Binary64 := ⟨negative, 0, -1074, by decide⟩

/-- The power of two that leaves a positive fraction 53 binary digits before the point, or the least one. -/
def exponentOf (numerator denominator : Nat) : Int :=
  let guess : Int := (numerator.log2 : Int) - (denominator.log2 : Int) - 52
  let (upper, lower) := scaled numerator denominator guess
  max (-1074) (if twoPow 52 * lower ≤ upper then guess else guess - 1)

/-- The double nearest to a fraction, a half to the even mantissa; `none` past the largest double. -/
def ofRatio (negative : Bool) (numerator denominator : Nat) : Option Binary64 :=
  if numerator = 0 then some (zero negative)
  else
    let exponent := exponentOf numerator denominator
    let (upper, lower) := scaled numerator denominator exponent
    let rounded := roundDiv upper lower
    let (mantissa, exponent) := if rounded = twoPow 53 then (twoPow 52, exponent + 1) else (rounded, exponent)
    if h : Canonical mantissa exponent then some ⟨negative, mantissa, exponent, h⟩ else none

def ofInt (value : Int) : Option Binary64 := ofRatio (value < 0) value.natAbs 1

/-- The double nearest to `digits * 10 ^ exponent`. Magnitudes far outside the doubles are settled by their first
digit's place, without computing the power. -/
def ofDecimal (negative : Bool) (digits : Nat) (exponent : Int) : Option Binary64 :=
  let leading : Int := exponent + (Nat.toDigits 10 digits).length
  if digits = 0 ∨ leading < -330 then some (zero negative)
  else if 310 < leading then none
  else if 0 ≤ exponent then ofRatio negative (digits * tenPow exponent.toNat) 1
  else ofRatio negative digits (tenPow (-exponent).toNat)

/-- The double nearest to `numerator / denominator * 2 ^ exponent`. -/
def ofScaled (negative : Bool) (numerator denominator : Nat) (exponent : Int) : Option Binary64 :=
  let (upper, lower) := scaled numerator denominator (-exponent)
  ofRatio negative upper lower

def mul (x y : Binary64) : Option Binary64 :=
  ofScaled (x.negative != y.negative) (x.mantissa * y.mantissa) 1 (x.exponent + y.exponent)

def div (x y : Binary64) : Option Binary64 :=
  if y.mantissa = 0 then none
  else ofScaled (x.negative != y.negative) x.mantissa y.mantissa (x.exponent - y.exponent)

def powTen (exponent : Nat) : Option Binary64 := ofDecimal false 1 exponent

/-- The largest power of ten among the doubles. -/
def maxTenExponent : Nat := 308

/-- A double times a power of ten, each step rounded: one product or one quotient where the power is a double, and a
further quotient for each time a smaller power falls below the doubles. -/
def timesTenPow (x : Binary64) (exponent : Int) : Option Binary64 :=
  if x.mantissa = 0 then some x
  else if 0 ≤ exponent then
    if maxTenExponent < exponent then none else (powTen exponent.toNat).bind x.mul
  else if -maxTenExponent ≤ exponent then (powTen (-exponent).toNat).bind x.div
  else do
    let quotient ← (powTen maxTenExponent).bind x.div
    quotient.timesTenPow (exponent + maxTenExponent)
termination_by (-exponent).toNat
decreasing_by
  simp only [maxTenExponent] at *
  omega

/-- The integer a double stands for, if it is one. -/
def toInt? (x : Binary64) : Option Int :=
  let signed (magnitude : Nat) : Int := if x.negative then -(magnitude : Int) else magnitude
  if 0 ≤ x.exponent then some (signed (x.mantissa * twoPow x.exponent.toNat))
  else
    let unit := twoPow (-x.exponent).toNat
    if x.mantissa % unit = 0 then some (signed (x.mantissa / unit)) else none

end Binary64

end RelationalGraphQL
