import RelationalGraphQL.Binary64

/-!
The fewest decimal digits that read back as a given double. Of two shortest candidates the nearer is taken, and of
two equally near ones the even.
-/

namespace RelationalGraphQL.Binary64

/-- A positive decimal `digits * 10 ^ exponent`. -/
structure Decimal where
  digits : Nat
  exponent : Int
  deriving DecidableEq

namespace Decimal

def dropZeros : Nat → Decimal → Decimal
  | 0, d => d
  | fuel + 1, d => if d.digits % 10 = 0 ∧ d.digits ≠ 0 then dropZeros fuel ⟨d.digits / 10, d.exponent + 1⟩ else d

/-- The same number without trailing zeros. -/
def trim (d : Decimal) : Decimal := dropZeros (Nat.toDigits 10 d.digits).length d

/-- The place of the first digit: 0 for the units. -/
def leading (d : Decimal) : Int := d.exponent + (Nat.toDigits 10 d.digits).length - 1

end Decimal

/-- The reals that read back as a double, as numerators over one denominator. The ends belong to it when the
mantissa is even. -/
structure Interval where
  low : Nat
  value : Nat
  high : Nat
  denominator : Nat
  closed : Bool

/-- Half way to either neighbour; below a power of two the neighbour is nearer. -/
def interval (x : Binary64) : Interval :=
  let low := if x.mantissa = twoPow 52 ∧ -1074 < x.exponent then 4 * x.mantissa - 1 else 4 * x.mantissa - 2
  let shift := x.exponent - 2
  let factor := if 0 ≤ shift then twoPow shift.toNat else 1
  let denominator := if 0 ≤ shift then 1 else twoPow (-shift).toNat
  { low := low * factor, value := 4 * x.mantissa * factor, high := (4 * x.mantissa + 2) * factor,
    denominator, closed := x.mantissa % 2 = 0 }

/-- The place of the first digit of a positive fraction. -/
def leadingPlace (numerator denominator : Nat) : Int :=
  if denominator ≤ numerator then (Nat.toDigits 10 (numerator / denominator)).length - 1
  else -((Nat.toDigits 10 ((denominator - 1) / numerator)).length : Int)

/-- The best decimal on the grid `10 ^ exponent`, if one of the value's two neighbours there reads back. -/
def Interval.onGrid (range : Interval) (exponent : Int) : Option Decimal :=
  let up := if 0 ≤ exponent then tenPow exponent.toNat else 1
  let down := if 0 ≤ exponent then 1 else tenPow (-exponent).toNat
  let unit := up * range.denominator
  let value := range.value * down
  let below := value / unit
  let reads (candidate : Nat) : Bool :=
    let point := candidate * unit
    let low := range.low * down
    let high := range.high * down
    if range.closed then low ≤ point ∧ point ≤ high else low < point ∧ point < high
  let decimal (candidate : Nat) : Decimal := ⟨candidate, exponent⟩
  match reads below && below ≠ 0, reads (below + 1) with
  | true, true => some (decimal (roundDiv value unit))
  | true, false => some (decimal below)
  | false, true => some (decimal (below + 1))
  | false, false => none

/-- The first grid with a hit, from one digit to seventeen. -/
def Interval.shortest (range : Interval) : Decimal :=
  let place := leadingPlace range.value range.denominator
  let found := (List.range 17).findSome? fun count : Nat => range.onGrid (place - count)
  (found.getD ⟨0, 0⟩).trim

/-- The shortest decimal of a double's magnitude; zero has the digit 0. -/
def shortest (x : Binary64) : Decimal :=
  if x.mantissa = 0 then ⟨0, 0⟩ else x.interval.shortest

end RelationalGraphQL.Binary64
