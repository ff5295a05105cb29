import Mathlib.Algebra.Order.Field.Power
import Mathlib.Data.Nat.Cast.Field
import Mathlib.Data.Rat.Cast.Order
import Mathlib.Tactic.FieldSimp
import Mathlib.Tactic.Linarith
import Mathlib.Tactic.NormNum.Pow
import Mathlib.Tactic.Positivity
import Mathlib.Tactic.Ring
import RelationalGraphQL.Binary64

/-!
# Doubles and the numbers they stand for

A fraction has a nearest double up to half a step above the largest one, and the half itself has none, since it would
round to an even mantissa beyond (`ofRatio_eq_none`). The same bound decides of decimals (`ofDecimal_eq_none`), whatever
shortcut settles them.
-/

namespace RelationalGraphQL

namespace Binary64

variable {exponent : Int} {negative : Bool} {digits : Nat}

/-- The number that a double stands for. -/
def value (x : Binary64) : ℚ := (if x.negative then -1 else 1) * x.mantissa * 2 ^ x.exponent

/-- The least magnitude without a nearest double. -/
def overflow : ℚ := (2 ^ 54 - 1) * 2 ^ (970 : Int)

theorem overflow_pos : 0 < overflow := mul_pos (by norm_num) (zpow_pos (by norm_num) 970)

theorem cast_twoPow (exponent : Nat) : (twoPow exponent : ℚ) = 2 ^ exponent := by
  show ((2 ^ exponent : Nat) : ℚ) = _
  push_cast
  rfl

theorem cast_tenPow (exponent : Nat) : (tenPow exponent : ℚ) = 10 ^ exponent := by
  show ((10 ^ exponent : Nat) : ℚ) = _
  push_cast
  rfl

/-! ### Rounding to integers -/

section

variable {numerator denominator bound : Nat}

theorem le_roundDiv (hdenominator : 0 < denominator) (hle : bound * denominator ≤ numerator) :
    bound ≤ roundDiv numerator denominator := by
  have hquotient : bound ≤ numerator / denominator := (Nat.le_div_iff_mul_le hdenominator).2 hle
  unfold roundDiv
  dsimp only
  split
  · exact hquotient
  · split <;> omega

theorem roundDiv_le (hdenominator : 0 < denominator) (hlt : numerator < bound * denominator) :
    roundDiv numerator denominator ≤ bound := by
  have hquotient : numerator / denominator < bound := (Nat.div_lt_iff_lt_mul hdenominator).2 hlt
  unfold roundDiv
  dsimp only
  split
  · omega
  · split <;> omega

/-- A quotient below an even number rounds to it from half a step below on. -/
theorem roundDiv_eq_iff (hdenominator : 0 < denominator) (heven : bound % 2 = 0) (hlt : numerator < bound * denominator) :
    roundDiv numerator denominator = bound ↔ 2 * bound * denominator ≤ 2 * numerator + denominator := by
  have hquotient : numerator / denominator < bound := (Nat.div_lt_iff_lt_mul hdenominator).2 hlt
  have hsplit := Nat.div_add_mod numerator denominator
  have hmod := Nat.mod_lt numerator hdenominator
  unfold roundDiv
  dsimp only
  generalize numerator / denominator = quotient at *
  generalize numerator % denominator = remainder at *
  obtain ⟨gap, rfl⟩ : ∃ gap, bound = quotient + 1 + gap := ⟨bound - (quotient + 1), by omega⟩
  -- The bound is the next integer or too far off for either side to hold.
  have hexpand : 2 * (quotient + 1 + gap) * denominator =
      2 * (denominator * quotient) + 2 * denominator + 2 * (gap * denominator) := by ring
  rw [hexpand]
  rcases Nat.eq_zero_or_pos gap with rfl | hgap
  · split
    · omega
    · split <;> omega
  · have hfar : denominator ≤ gap * denominator := Nat.le_mul_of_pos_left denominator hgap
    split
    · omega
    · split <;> omega

end

/-! ### Scaling -/

section

variable {numerator denominator : Nat}

theorem scaled_pos (numerator : Nat) (hdenominator : 0 < denominator) (exponent : Int) :
    0 < (scaled numerator denominator exponent).2 := by
  unfold scaled
  split
  · exact Nat.mul_pos hdenominator (Nat.two_pow_pos _)
  · exact hdenominator

theorem scaled_ratio (numerator denominator : Nat) (exponent : Int) :
    ((scaled numerator denominator exponent).1 : ℚ) / (scaled numerator denominator exponent).2 * 2 ^ exponent =
      numerator / denominator := by
  unfold scaled
  split
  · rename_i hnonneg
    obtain ⟨power, rfl⟩ := Int.eq_ofNat_of_zero_le hnonneg
    dsimp only
    rw [Int.toNat_natCast, Nat.cast_mul, cast_twoPow, zpow_natCast]
    field_simp
  · rename_i hneg
    obtain ⟨power, rfl⟩ : ∃ power : Nat, exponent = -power := ⟨(-exponent).toNat, by omega⟩
    dsimp only
    rw [neg_neg, Int.toNat_natCast, Nat.cast_mul, cast_twoPow, zpow_neg, zpow_natCast]
    field_simp

theorem scaled_le_iff (numerator : Nat) (hdenominator : 0 < denominator) (exponent : Int) (factor multiple : Nat) :
    factor * (scaled numerator denominator exponent).2 ≤ multiple * (scaled numerator denominator exponent).1 ↔
      factor * (2 : ℚ) ^ exponent ≤ multiple * (numerator / denominator : ℚ) := by
  have hpos : (0 : ℚ) < (scaled numerator denominator exponent).2 := by
    exact_mod_cast scaled_pos numerator hdenominator exponent
  rw [← scaled_ratio numerator denominator exponent, ← mul_assoc, mul_le_mul_iff_left₀ (zpow_pos (by norm_num) exponent),
    ← mul_div_assoc, le_div_iff₀ hpos]
  norm_cast

/-- A positive fraction has 53 binary digits before the point at its exponent, unless that would be too small. -/
theorem exists_exponent (hnumerator : 0 < numerator) (hdenominator : 0 < denominator) :
    ∃ exponent : Int, exponentOf numerator denominator = max (-1074) exponent ∧
      2 ^ (exponent + 52) ≤ (numerator / denominator : ℚ) ∧ (numerator / denominator : ℚ) < 2 ^ (exponent + 53) := by
  have hpos : (0 : ℚ) < denominator := by exact_mod_cast hdenominator
  have htwo : (2 : ℚ) ≠ 0 := by norm_num
  unfold exponentOf
  dsimp only
  generalize hguess : (numerator.log2 : Int) - denominator.log2 - 52 = guess
  -- The lengths of both numbers tell the exponent up to one.
  have hlow : (2 : ℚ) ^ (guess + 51) < numerator / denominator := by
    have hupper : (2 : ℚ) ^ numerator.log2 ≤ numerator := by exact_mod_cast Nat.log2_self_le hnumerator.ne'
    have hlower : (denominator : ℚ) < 2 ^ (denominator.log2 + 1) := by exact_mod_cast Nat.lt_log2_self
    rw [lt_div_iff₀ hpos]
    calc (2 : ℚ) ^ (guess + 51) * denominator
        < 2 ^ (guess + 51) * 2 ^ (denominator.log2 + 1) := by gcongr
      _ = 2 ^ numerator.log2 := by
        rw [← zpow_natCast, ← zpow_natCast, ← zpow_add₀ htwo]
        congr 1
        push_cast
        omega
      _ ≤ numerator := hupper
  have hhigh : (numerator / denominator : ℚ) < 2 ^ (guess + 53) := by
    have hupper : (numerator : ℚ) < 2 ^ (numerator.log2 + 1) := by exact_mod_cast Nat.lt_log2_self
    have hlower : (2 : ℚ) ^ denominator.log2 ≤ denominator := by exact_mod_cast Nat.log2_self_le hdenominator.ne'
    rw [div_lt_iff₀ hpos]
    calc (numerator : ℚ) < 2 ^ (numerator.log2 + 1) := hupper
      _ = 2 ^ (guess + 53) * 2 ^ denominator.log2 := by
        rw [← zpow_natCast, ← zpow_natCast, ← zpow_add₀ htwo]
        congr 1
        push_cast
        omega
      _ ≤ 2 ^ (guess + 53) * denominator := by gcongr
  have hfull : twoPow 52 * (scaled numerator denominator guess).2 ≤ (scaled numerator denominator guess).1 ↔
      (2 : ℚ) ^ (guess + 52) ≤ numerator / denominator := by
    have hcompare := scaled_le_iff numerator hdenominator guess (twoPow 52) 1
    rwa [one_mul, Nat.cast_one, one_mul, cast_twoPow, ← zpow_natCast, ← zpow_add₀ htwo, add_comm] at hcompare
  by_cases hguessed : twoPow 52 * (scaled numerator denominator guess).2 ≤ (scaled numerator denominator guess).1
  · rw [if_pos hguessed]
    exact ⟨guess, rfl, hfull.1 hguessed, hhigh⟩
  · rw [if_neg hguessed]
    refine ⟨guess - 1, rfl, ?_, ?_⟩
    · rw [show guess - 1 + 52 = guess + 51 by omega]
      exact hlow.le
    · rw [show guess - 1 + 53 = guess + 52 by omega]
      exact lt_of_not_ge fun hle => hguessed (hfull.2 hle)

/-- At its exponent a positive fraction has at most 53 binary digits before the point, and no fewer unless the exponent is
the least. -/
theorem exponentOf_spec (hnumerator : 0 < numerator) (hdenominator : 0 < denominator) :
    (numerator / denominator : ℚ) < 2 ^ 53 * 2 ^ exponentOf numerator denominator ∧
      (2 ^ 52 * 2 ^ exponentOf numerator denominator ≤ (numerator / denominator : ℚ) ∨
        exponentOf numerator denominator = -1074) := by
  obtain ⟨exponent, hexponent, hlow, hhigh⟩ := exists_exponent hnumerator hdenominator
  have htwo : (2 : ℚ) ≠ 0 := by norm_num
  rw [hexponent, ← zpow_natCast, ← zpow_natCast, ← zpow_add₀ htwo, ← zpow_add₀ htwo]
  constructor
  · refine hhigh.trans_le (zpow_le_zpow_right₀ (by norm_num) ?_)
    push_cast
    omega
  · rcases le_or_gt exponent (-1074) with hsmall | hlarge
    · exact .inr (max_eq_left hsmall)
    · refine .inl (le_trans (zpow_le_zpow_right₀ (by norm_num) ?_) hlow)
      push_cast
      omega

end

/-! ### Overflow -/

theorem canonical_carried {rounded : Nat} (hleast : -1074 ≤ exponent) (hmost : rounded ≤ twoPow 53)
    (hfull : twoPow 52 ≤ rounded ∨ exponent = -1074) :
    Canonical (if rounded = twoPow 53 then (twoPow 52, exponent + 1) else (rounded, exponent)).1
        (if rounded = twoPow 53 then (twoPow 52, exponent + 1) else (rounded, exponent)).2 ↔
      exponent < 971 ∨ exponent = 971 ∧ rounded ≠ twoPow 53 := by
  have hhalf : twoPow 52 < twoPow 53 := by decide
  unfold Canonical
  split <;> omega

theorem ofRatio_eq_none {numerator denominator : Nat} (hdenominator : 0 < denominator) :
    ofRatio negative numerator denominator = none ↔ overflow ≤ (numerator / denominator : ℚ) := by
  rcases Nat.eq_zero_or_pos numerator with rfl | hnumerator
  · simp [ofRatio, overflow_pos]
  obtain ⟨hhigh, hlow⟩ := exponentOf_spec hnumerator hdenominator
  have hleast : -1074 ≤ exponentOf numerator denominator := le_max_left _ _
  have hcompare := scaled_le_iff numerator hdenominator (exponentOf numerator denominator)
  have hpos := scaled_pos numerator hdenominator (exponentOf numerator denominator)
  unfold ofRatio
  rw [if_neg hnumerator.ne']
  dsimp only
  generalize scaled numerator denominator (exponentOf numerator denominator) = fraction at *
  generalize exponentOf numerator denominator = exponent at *
  generalize (numerator / denominator : ℚ) = ratio at *
  have hless : fraction.1 < twoPow 53 * fraction.2 := by
    have hbound := hcompare (twoPow 53) 1
    rw [Nat.cast_one, one_mul, one_mul, cast_twoPow] at hbound
    exact lt_of_not_ge (hbound.not.2 hhigh.not_ge)
  have hfull : twoPow 52 ≤ roundDiv fraction.1 fraction.2 ∨ exponent = -1074 := by
    refine hlow.imp_left fun hlow => le_roundDiv hpos ?_
    have hbound := hcompare (twoPow 52) 1
    rw [Nat.cast_one, one_mul, one_mul, cast_twoPow] at hbound
    exact hbound.2 hlow
  rw [dite_eq_right_iff]
  simp only [reduceCtorEq, imp_false]
  rw [canonical_carried hleast (roundDiv_le hpos hless) hfull, ne_eq, roundDiv_eq_iff hpos (by decide) hless]
  have htwo : (2 : ℚ) ≠ 0 := by norm_num
  have hunit : (0 : ℚ) < 2 ^ (970 : Int) := zpow_pos (by norm_num) 970
  unfold overflow
  rcases lt_trichotomy exponent 971 with hsmall | rfl | hlarge
  · have hpower : (2 : ℚ) ^ exponent ≤ 2 ^ (970 : Int) := zpow_le_zpow_right₀ (by norm_num) (by omega)
    generalize (2 : ℚ) ^ (970 : Int) = unit at *
    have hbelow : ratio < (2 ^ 54 - 1) * unit := by linarith
    simp [hsmall, hbelow]
  · -- From half a step below the next power of two the nearest mantissa is an even one without an exponent.
    have hhalf : 2 * twoPow 53 * fraction.2 ≤ 2 * fraction.1 + fraction.2 ↔
        18014398509481983 * fraction.2 ≤ 2 * fraction.1 := by
      rw [show twoPow 53 = 9007199254740992 from rfl]
      omega
    have hdouble : (2 : ℚ) ^ (971 : Int) = 2 ^ (970 : Int) * 2 := zpow_add_one₀ htwo 970
    rw [hhalf, hcompare, hdouble]
    generalize (2 : ℚ) ^ (970 : Int) = unit
    have hmeets : (18014398509481983 : Nat) * (unit * 2) ≤ (2 : Nat) * ratio ↔ (2 ^ 54 - 1) * unit ≤ ratio := by
      push_cast
      constructor <;> intro hle <;> linarith
    rw [hmeets]
    simp
  · have hpower : (2 : ℚ) ^ (970 : Int) * 2 ^ (2 : Int) ≤ 2 ^ exponent := by
      rw [← zpow_add₀ htwo]
      exact zpow_le_zpow_right₀ (by norm_num) (by omega)
    have hleading := hlow.resolve_right (by omega)
    generalize (2 : ℚ) ^ (970 : Int) = unit at *
    have habove : (2 ^ 54 - 1) * unit ≤ ratio := by
      norm_num at hpower
      linarith
    simp [habove, hlarge.le.not_gt, hlarge.ne']

theorem lt_overflow {magnitude : ℚ} (hsmall : magnitude ≤ 2 ^ 64) : magnitude < overflow := by
  have hpower : (2 : ℚ) ^ (11 : Int) ≤ 2 ^ (970 : Int) := zpow_le_zpow_right₀ (by norm_num) (by norm_num)
  unfold overflow
  generalize (2 : ℚ) ^ (970 : Int) = unit at *
  norm_num at hpower hsmall ⊢
  linarith

theorem ofInt_ne_none {value : Int} (hleast : -Int64.bound ≤ value) (hmost : value < UInt64.bound) :
    ofInt value ≠ none := by
  have hbound : value.natAbs ≤ 2 ^ 64 := by
    unfold Int64.bound at hleast
    unfold UInt64.bound at hmost
    omega
  have hmagnitude : ((value.natAbs : Nat) / (1 : Nat) : ℚ) ≤ 2 ^ 64 := by
    rw [Nat.cast_one, div_one]
    exact_mod_cast hbound
  unfold ofInt
  rw [ne_eq, ofRatio_eq_none Nat.one_pos]
  exact (lt_overflow hmagnitude).not_ge

/-! ### Decimals -/

theorem pow_length_toDigits (hdigits : digits ≠ 0) :
    (10 : ℚ) ^ ((Nat.toDigits 10 digits).length - 1 : Int) ≤ digits ∧
      (digits : ℚ) < 10 ^ ((Nat.toDigits 10 digits).length : Int) := by
  have hlength (places : Nat) := Nat.length_toDigits_le_iff (n := digits) (k := places + 1) (by decide : 1 < 10)
    (Nat.succ_pos places)
  obtain ⟨places, hplaces⟩ : ∃ places, (Nat.toDigits 10 digits).length = places + 1 :=
    Nat.exists_eq_succ_of_ne_zero Nat.length_toDigits_pos.ne'
  rw [hplaces] at hlength ⊢
  constructor
  · have hle : 10 ^ places ≤ digits := by
      cases places with
      | zero => exact Nat.one_le_iff_ne_zero.2 hdigits
      | succ places => exact le_of_not_gt fun hlt => absurd ((hlength places).2 hlt) (by omega)
    rw [Nat.cast_succ, add_sub_cancel_right, zpow_natCast]
    exact_mod_cast hle
  · rw [zpow_natCast]
    exact_mod_cast (hlength places).1 le_rfl

theorem overflow_le : overflow ≤ 10 ^ (310 : Int) := by
  have hle : 18014398509481983 * 2 ^ 970 ≤ 10 ^ 310 := by decide +kernel
  have hcast : ((18014398509481983 * 2 ^ 970 : Nat) : ℚ) ≤ ((10 ^ 310 : Nat) : ℚ) := Nat.cast_le.2 hle
  rw [Nat.cast_mul, Nat.cast_pow, Nat.cast_pow, Nat.cast_ofNat, Nat.cast_ofNat, Nat.cast_ofNat] at hcast
  rw [overflow, zpow_ofNat, zpow_ofNat, show (2 : ℚ) ^ 54 - 1 = 18014398509481983 by norm_num]
  exact hcast

/-- Whatever way a decimal is read, it has a nearest double exactly if it is below the bound. -/
theorem ofDecimal_eq_none : ofDecimal negative digits exponent = none ↔ overflow ≤ digits * 10 ^ exponent := by
  have hten : (10 : ℚ) ≠ 0 := by norm_num
  unfold ofDecimal
  dsimp only
  rcases eq_or_ne digits 0 with rfl | hdigits
  · simp [overflow_pos]
  obtain ⟨hlow, hhigh⟩ := pow_length_toDigits hdigits
  have hscale : (0 : ℚ) < 10 ^ exponent := zpow_pos (by norm_num) exponent
  generalize ((Nat.toDigits 10 digits).length : Int) = places at *
  split
  · rename_i hsmall
    have hbelow : digits * (10 : ℚ) ^ exponent < overflow := by
      apply lt_overflow
      calc digits * (10 : ℚ) ^ exponent ≤ 10 ^ places * 10 ^ exponent := by gcongr
        _ = 10 ^ (places + exponent) := (zpow_add₀ hten places exponent).symm
        _ ≤ 10 ^ (0 : Int) := zpow_le_zpow_right₀ (by norm_num) (by omega)
        _ ≤ 2 ^ 64 := by norm_num
    simp [hbelow]
  · split
    · have habove : overflow ≤ digits * (10 : ℚ) ^ exponent := by
        calc overflow ≤ 10 ^ (310 : Int) := overflow_le
          _ ≤ 10 ^ (places - 1 + exponent) := zpow_le_zpow_right₀ (by norm_num) (by omega)
          _ = 10 ^ (places - 1) * 10 ^ exponent := zpow_add₀ hten (places - 1) exponent
          _ ≤ digits * 10 ^ exponent := by gcongr
      simp [habove]
    · split
      · rename_i hnonneg
        obtain ⟨power, rfl⟩ := Int.eq_ofNat_of_zero_le hnonneg
        rw [ofRatio_eq_none Nat.one_pos, Int.toNat_natCast, Nat.cast_mul, cast_tenPow, Nat.cast_one, div_one,
          zpow_natCast]
      · rename_i hneg
        obtain ⟨power, rfl⟩ : ∃ power : Nat, exponent = -power := ⟨(-exponent).toNat, by omega⟩
        have hpositive : 0 < tenPow power := Nat.pow_pos (by decide)
        rw [neg_neg, Int.toNat_natCast, ofRatio_eq_none hpositive, cast_tenPow, zpow_neg, zpow_natCast, div_eq_mul_inv]

/-! ### Integers -/

theorem value_of_toInt? {x : Binary64} {n : Int} (hint : x.toInt? = some n) : x.value = n := by
  have hsigned (magnitude : Nat) : (if x.negative then (-1 : ℚ) else 1) * magnitude =
      ((if x.negative then -(magnitude : Int) else magnitude : Int) : ℚ) := by
    split <;> simp
  unfold toInt? at hint
  dsimp only at hint
  unfold value
  rw [mul_assoc]
  split at hint
  · rename_i hnonneg
    rw [← Option.some.inj hint, ← hsigned, Nat.cast_mul, cast_twoPow, ← zpow_natCast, Int.toNat_of_nonneg hnonneg]
  · split at hint
    · rename_i hneg hwhole
      have hunit : (twoPow (-x.exponent).toNat : ℚ) ≠ 0 := by
        rw [cast_twoPow]
        positivity
      rw [← Option.some.inj hint, ← hsigned, Nat.cast_div (Nat.dvd_of_mod_eq_zero hwhole) hunit, cast_twoPow,
        ← zpow_natCast, Int.toNat_of_nonneg (by omega), zpow_neg, div_inv_eq_mul]
    · cases hint

end Binary64

end RelationalGraphQL
