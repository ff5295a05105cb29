/-!
The ranges of 64-bit integers, and powers of natural numbers.
-/

namespace RelationalGraphQL

/-- One past the largest signed 64-bit integer; its opposite is the least one. -/
def Int64.bound : Int := 9223372036854775808

/-- One past the largest unsigned 64-bit integer. -/
def UInt64.bound : Int := 18446744073709551616

/-- Whether an integer has a signed 64-bit form. -/
def Int64.Within (value : Int) : Prop := -Int64.bound ≤ value ∧ value < Int64.bound

instance (value : Int) : Decidable (Int64.Within value) := by
  unfold Int64.Within
  infer_instance

def twoPow (exponent : Nat) : Nat := Nat.pow 2 exponent

def tenPow (exponent : Nat) : Nat := Nat.pow 10 exponent

end RelationalGraphQL
