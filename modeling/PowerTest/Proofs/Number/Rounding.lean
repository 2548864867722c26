import Mathlib
import PowerTest.Number.Shortest

/-!
# Numbers that round to a double

`Magnitude.Covers` says which numbers lie so near to a magnitude that they round to it: half a unit
around it, the ends only if its significand is even. A ratio that is covered has the bits of the
magnitude as its rounded bits (`bitsOfRatio_eq`).
-/

namespace PowerTest.Number

/-- The exact number of a decimal. -/
def Decimal.value (decimal : Decimal) : ℚ := decimal.digits * 10 ^ decimal.exponent

namespace Magnitude

/-- The exact number of a magnitude. -/
def value (magnitude : Magnitude) : ℚ := magnitude.significand * 2 ^ magnitude.exponent

/-- The bits of the double without a sign that has a magnitude. -/
def bits (magnitude : Magnitude) : Nat :=
  (magnitude.exponent - leastExponent).toNat * 2 ^ 52 + magnitude.significand

/-- How far the numbers that round to a magnitude reach below it, in quarters of its unit. -/
def reach (magnitude : Magnitude) : Nat :=
  if magnitude.significand = 2 ^ 52 ∧ leastExponent < magnitude.exponent then 1 else 2

/-- A magnitude of a double that is not zero. -/
structure Canonical (magnitude : Magnitude) : Prop where
  positive : 0 < magnitude.significand
  small : magnitude.significand < 2 ^ 53
  least : leastExponent ≤ magnitude.exponent
  greatest : magnitude.exponent ≤ 971
  normal : leastExponent < magnitude.exponent → 2 ^ 52 ≤ magnitude.significand

/-- A number near enough to a magnitude to round to it, counted in quarters of its unit. -/
structure Covers (magnitude : Magnitude) (number : ℚ) : Prop where
  low : 4 * magnitude.significand - magnitude.reach ≤ number / 2 ^ (magnitude.exponent - 2)
  high : number / 2 ^ (magnitude.exponent - 2) ≤ 4 * magnitude.significand + 2
  inside : magnitude.significand % 2 = 1 →
    4 * magnitude.significand - magnitude.reach < number / 2 ^ (magnitude.exponent - 2) ∧
      number / 2 ^ (magnitude.exponent - 2) < 4 * magnitude.significand + 2

end Magnitude

variable {magnitude : Magnitude} {numerator denominator : Nat} {number : ℚ}

/-! ## Rounded quotients -/

/-- The whole part of a quotient is the number that it is near to or the one before it. -/
theorem eq_div_or_eq_succ_div {whole : Nat} (positive : 0 < denominator)
    (low : 2 * whole * denominator ≤ 2 * numerator + denominator)
    (high : 2 * numerator ≤ (2 * whole + 1) * denominator) :
    whole = numerator / denominator ∨ whole = numerator / denominator + 1 := by
  have split := Nat.div_add_mod numerator denominator
  have small := Nat.mod_lt numerator positive
  set quotient := numerator / denominator
  set left := numerator % denominator
  have upper : quotient ≤ whole := by
    by_contra above
    have step : (whole + 1) * denominator ≤ quotient * denominator :=
      Nat.mul_le_mul_right _ (by omega)
    nlinarith
  have lower : whole ≤ quotient + 1 := by
    by_contra above
    have step : (quotient + 2) * denominator ≤ whole * denominator :=
      Nat.mul_le_mul_right _ (by omega)
    nlinarith
  omega

/-- Rounding, with both sides of each comparison multiplied out. -/
theorem nearestEven_eq_of_mul {whole : Nat} (positive : 0 < denominator)
    (low : 2 * whole * denominator ≤ 2 * numerator + denominator)
    (high : 2 * numerator ≤ (2 * whole + 1) * denominator)
    (inside : whole % 2 = 1 → 2 * whole * denominator < 2 * numerator + denominator ∧
      2 * numerator < (2 * whole + 1) * denominator) :
    nearestEven numerator denominator = whole := by
  have near := eq_div_or_eq_succ_div positive low high
  have split := Nat.div_add_mod numerator denominator
  simp only [nearestEven]
  set quotient := numerator / denominator
  set left := numerator % denominator
  have swap : denominator * quotient = quotient * denominator := Nat.mul_comm _ _
  rcases near with rfl | rfl
  · have twice : 2 * left ≤ denominator := by nlinarith
    have strict : quotient % 2 = 1 → 2 * left < denominator := by
      intro odd
      have := (inside odd).2
      nlinarith
    split
    · rfl
    · split
      · omega
      · split <;> omega
  · have twice : denominator ≤ 2 * left := by nlinarith
    have strict : (quotient + 1) % 2 = 1 → denominator < 2 * left := by
      intro odd
      have := (inside odd).1
      nlinarith
    split
    · omega
    · split
      · rfl
      · split <;> omega

/-- A quotient rounds to the whole number that it is at most half a unit away from. -/
theorem nearestEven_eq {whole : Nat} (positive : 0 < denominator)
    (low : (2 * whole : ℚ) - 1 ≤ 2 * (numerator / denominator))
    (high : 2 * (numerator / denominator : ℚ) ≤ 2 * whole + 1)
    (inside : whole % 2 = 1 → (2 * whole : ℚ) - 1 < 2 * (numerator / denominator) ∧
      2 * (numerator / denominator : ℚ) < 2 * whole + 1) :
    nearestEven numerator denominator = whole := by
  have below : (0 : ℚ) < denominator := by exact_mod_cast positive
  rw [← mul_div_assoc] at low high inside
  rw [le_div_iff₀ below] at low
  rw [div_le_iff₀ below] at high
  rw [lt_div_iff₀ below, div_lt_iff₀ below] at inside
  refine nearestEven_eq_of_mul positive ?_ (by exact_mod_cast high) fun odd => ?_
  · have cast : (2 * whole * denominator : ℚ) ≤ 2 * numerator + denominator := by linarith
    exact_mod_cast cast
  · obtain ⟨after, before⟩ := inside odd
    have cast : (2 * whole * denominator : ℚ) < 2 * numerator + denominator := by linarith
    exact ⟨by exact_mod_cast cast, by exact_mod_cast before⟩

/-! ## Binades -/

theorem scaledDown_pos (positive : 0 < denominator) (exponent : Int) :
    0 < (scaledDown numerator denominator exponent).2 := by
  cases exponent with
  | ofNat power => exact Nat.mul_pos positive (Nat.two_pow_pos power)
  | negSucc power => exact positive

theorem scaledDown_value (numerator : Nat) (positive : 0 < denominator) (exponent : Int) :
    ((scaledDown numerator denominator exponent).1 : ℚ) /
      (scaledDown numerator denominator exponent).2 =
        (numerator / denominator : ℚ) / 2 ^ exponent := by
  have below : (denominator : ℚ) ≠ 0 := by exact_mod_cast positive.ne'
  cases exponent with
  | ofNat power =>
    simp only [scaledDown, Int.ofNat_eq_natCast, zpow_natCast]
    push_cast
    rw [div_div]
  | negSucc power =>
    simp only [scaledDown, zpow_negSucc]
    push_cast
    field_simp

/-- A ratio lies in its binade. -/
theorem binade_spec (above : 0 < numerator) (below : 0 < denominator) :
    (2 : ℚ) ^ binade numerator denominator ≤ numerator / denominator ∧
      (numerator / denominator : ℚ) < 2 ^ (binade numerator denominator + 1) := by
  have divisor : (0 : ℚ) < denominator := by exact_mod_cast below
  have least : (2 : ℚ) ^ numerator.log2 ≤ numerator := by
    exact_mod_cast Nat.log2_self_le above.ne'
  have greatest : (numerator : ℚ) < 2 ^ (numerator.log2 + 1) := by
    exact_mod_cast Nat.lt_log2_self
  have least' : (2 : ℚ) ^ denominator.log2 ≤ denominator := by
    exact_mod_cast Nat.log2_self_le below.ne'
  have greatest' : (denominator : ℚ) < 2 ^ (denominator.log2 + 1) := by
    exact_mod_cast Nat.lt_log2_self
  set guess : Int := (numerator.log2 : Int) - denominator.log2 with guess_eq
  -- Comparing the two powers leaves two binades.
  have upper : (numerator / denominator : ℚ) < 2 ^ (guess + 1) := by
    rw [div_lt_iff₀ divisor]
    calc (numerator : ℚ) < 2 ^ (numerator.log2 + 1) := greatest
      _ = 2 ^ (guess + 1) * 2 ^ denominator.log2 := by
        rw [← zpow_natCast, ← zpow_natCast, ← zpow_add₀ (by norm_num)]
        congr 1
        push_cast
        omega
      _ ≤ 2 ^ (guess + 1) * denominator := by gcongr
  have lower : (2 : ℚ) ^ (guess - 1) < numerator / denominator := by
    rw [lt_div_iff₀ divisor]
    calc (2 : ℚ) ^ (guess - 1) * denominator < 2 ^ (guess - 1) * 2 ^ (denominator.log2 + 1) := by
          gcongr
      _ = 2 ^ numerator.log2 := by
        rw [← zpow_natCast, ← zpow_natCast, ← zpow_add₀ (by norm_num)]
        congr 1
        push_cast
        omega
      _ ≤ numerator := least
  have scaled := scaledDown_value numerator below guess
  have positive : (0 : ℚ) < (scaledDown numerator denominator guess).2 := by
    exact_mod_cast scaledDown_pos below guess
  have unit : (0 : ℚ) < 2 ^ guess := by positivity
  have compare : (scaledDown numerator denominator guess).2 ≤
      (scaledDown numerator denominator guess).1 ↔ (2 : ℚ) ^ guess ≤ numerator / denominator := by
    rw [← one_le_div unit, ← scaled, one_le_div positive]
    exact Nat.cast_le.symm
  simp only [binade, ← guess_eq]
  split
  · rename_i reached
    exact ⟨compare.mp reached, upper⟩
  · rename_i missed
    refine ⟨lower.le, ?_⟩
    rw [sub_add_cancel]
    exact not_le.mp (mt compare.mpr missed)

/-! ## Rounded ratios -/

namespace Magnitude

theorem reach_le (magnitude : Magnitude) : magnitude.reach ≤ 2 := by
  unfold reach
  split <;> omega

theorem unit_pos (magnitude : Magnitude) : (0 : ℚ) < 2 ^ (magnitude.exponent - 2) := by
  positivity

theorem bits_lt (canonical : magnitude.Canonical) : magnitude.bits < infinityBits := by
  have small := canonical.small
  have least := canonical.least
  have greatest := canonical.greatest
  simp only [bits, infinityBits, leastExponent] at *
  omega

/-- What rounds to a magnitude is no further below it than half a unit. -/
theorem Covers.two_pow_le {power : Nat} (covers : magnitude.Covers number)
    (enough : 2 ^ power + 2 ≤ 4 * magnitude.significand) :
    (2 : ℚ) ^ (magnitude.exponent - 2 + power) ≤ number := by
  have reach : (magnitude.reach : ℚ) ≤ 2 := by exact_mod_cast magnitude.reach_le
  have enough : (2 : ℚ) ^ power + 2 ≤ 4 * magnitude.significand := by exact_mod_cast enough
  have low := covers.low
  rw [le_div_iff₀ magnitude.unit_pos] at low
  calc (2 : ℚ) ^ (magnitude.exponent - 2 + power) = 2 ^ power * 2 ^ (magnitude.exponent - 2) := by
        rw [zpow_add₀ two_ne_zero, zpow_natCast, mul_comm]
    _ ≤ (4 * magnitude.significand - magnitude.reach) * 2 ^ (magnitude.exponent - 2) := by
      gcongr
      linarith
    _ ≤ number := low

variable (canonical : magnitude.Canonical) (covers : magnitude.Covers number)

include canonical covers

theorem Covers.pos : 0 < number := by
  have some := canonical.positive
  exact lt_of_lt_of_le (by positivity) (@Covers.two_pow_le _ _ 1 covers (by omega))

/-- What rounds to a magnitude is below the next power of two. -/
theorem Covers.below : number < 2 ^ (magnitude.exponent + 53) := by
  have small : (magnitude.significand : ℚ) + 1 ≤ 2 ^ 53 := by exact_mod_cast canonical.small
  have high := covers.high
  rw [div_le_iff₀ magnitude.unit_pos] at high
  calc number ≤ (4 * magnitude.significand + 2) * 2 ^ (magnitude.exponent - 2) := high
    _ < 2 ^ 55 * 2 ^ (magnitude.exponent - 2) := by
      gcongr
      linarith
    _ = 2 ^ (magnitude.exponent + 53) := by
      rw [← zpow_natCast, ← zpow_add₀ (by norm_num)]
      congr 1
      push_cast
      ring

end Magnitude

open Magnitude

/-- A unit has four quarters. -/
theorem unit_eq (exponent : Int) : (2 : ℚ) ^ exponent = 4 * 2 ^ (exponent - 2) := by
  rw [zpow_sub₀ two_ne_zero]
  norm_num
  ring

theorem div_unit (number : ℚ) (exponent : Int) :
    number / 2 ^ exponent = number / 2 ^ (exponent - 2) / 4 := by
  rw [unit_eq exponent, mul_comm, ← div_div]

theorem div_half_unit (number : ℚ) (exponent : Int) :
    number / 2 ^ (exponent - 1) = number / 2 ^ (exponent - 2) / 2 := by
  rw [div_div, ← zpow_add_one₀ two_ne_zero]
  congr 2
  ring

theorem nearestEven_scaledDown (whole numerator : Nat) (exponent : Int)
    (positive : 0 < denominator)
    (low : (2 * whole : ℚ) - 1 ≤ 2 * (numerator / denominator / 2 ^ exponent))
    (high : 2 * (numerator / denominator / 2 ^ exponent : ℚ) ≤ 2 * whole + 1)
    (inside : whole % 2 = 1 →
      (2 * whole : ℚ) - 1 < 2 * (numerator / denominator / 2 ^ exponent) ∧
        2 * (numerator / denominator / 2 ^ exponent : ℚ) < 2 * whole + 1) :
    nearestEven (scaledDown numerator denominator exponent).1
      (scaledDown numerator denominator exponent).2 = whole := by
  rw [← scaledDown_value numerator positive] at low high inside
  exact nearestEven_eq (scaledDown_pos positive exponent) low high inside

/-- The exponent to which a covered ratio is scaled is that of the magnitude, but for a ratio just
below a power of two. -/
theorem exponent_of_covers (canonical : magnitude.Canonical) (above : 0 < numerator)
    (positive : 0 < denominator) (covers : magnitude.Covers (numerator / denominator)) :
    max (binade numerator denominator - 52) leastExponent = magnitude.exponent ∨
      max (binade numerator denominator - 52) leastExponent = magnitude.exponent - 1 ∧
        magnitude.significand = 2 ^ 52 ∧ leastExponent < magnitude.exponent ∧
        (numerator / denominator : ℚ) < 2 ^ (magnitude.exponent + 52) := by
  obtain ⟨lower, upper⟩ := binade_spec above positive
  have top : binade numerator denominator < magnitude.exponent + 53 :=
    (zpow_lt_zpow_iff_right₀ one_lt_two).mp (lower.trans_lt (covers.below canonical))
  have least := canonical.least
  by_cases subnormal : magnitude.exponent = leastExponent
  · left
    omega
  have normal : leastExponent < magnitude.exponent := lt_of_le_of_ne least (Ne.symm subnormal)
  -- A ratio of at least some power of two is in no binade below.
  have bottom {power : Int} (reached : (2 : ℚ) ^ power ≤ numerator / denominator) :
      power ≤ binade numerator denominator :=
    Int.lt_add_one_iff.mp ((zpow_lt_zpow_iff_right₀ one_lt_two).mp (reached.trans_lt upper))
  by_cases power : magnitude.significand = 2 ^ 52
  · by_cases reached : (2 : ℚ) ^ (magnitude.exponent + 52) ≤ numerator / denominator
    · left
      have := bottom reached
      omega
    · right
      have := bottom (@Covers.two_pow_le _ _ 53 covers (by omega))
      have not_above : binade numerator denominator < magnitude.exponent + 52 :=
        (zpow_lt_zpow_iff_right₀ one_lt_two).mp (lower.trans_lt (not_le.mp reached))
      exact ⟨by omega, power, normal, not_le.mp reached⟩
  · left
    have large := lt_of_le_of_ne (canonical.normal normal) (Ne.symm power)
    have := bottom (@Covers.two_pow_le _ _ 54 covers (by omega))
    omega

/-- A ratio that is near enough to a magnitude rounds to it. -/
theorem bitsOfRatio_eq (canonical : magnitude.Canonical) (positive : 0 < denominator)
    (covers : magnitude.Covers (numerator / denominator)) :
    bitsOfRatio numerator denominator = magnitude.bits := by
  have some : 0 < numerator := by
    have above := covers.pos canonical
    by_contra none
    rw [Nat.eq_zero_of_not_pos none, Nat.cast_zero, zero_div] at above
    exact lt_irrefl _ above
  have bounded := magnitude.bits_lt canonical
  have reach : (magnitude.reach : ℚ) ≤ 2 := by exact_mod_cast magnitude.reach_le
  have low := covers.low
  have high := covers.high
  have inside := covers.inside
  simp only [bitsOfRatio, some.ne', if_false]
  rcases exponent_of_covers canonical some positive covers with same | ⟨less, power, normal, short⟩
  · have rounded := nearestEven_scaledDown magnitude.significand numerator magnitude.exponent
      positive
      (by rw [div_unit]; linarith) (by rw [div_unit]; linarith)
      (fun odd => by
        rw [div_unit]
        exact ⟨by linarith [(inside odd).1], by linarith [(inside odd).2]⟩)
    rw [same, rounded]
    exact min_eq_left bounded.le
  · -- Just below a power of two the unit is half as large, and the ratio rounds up to the power.
    have one : magnitude.reach = 1 := if_pos ⟨power, normal⟩
    rw [one, power] at low
    have top : (numerator / denominator : ℚ) / 2 ^ (magnitude.exponent - 2) < 2 ^ 54 := by
      rw [div_lt_iff₀ magnitude.unit_pos, ← zpow_natCast, ← zpow_add₀ two_ne_zero]
      refine short.trans_eq ?_
      congr 1
      push_cast
      omega
    have rounded := nearestEven_scaledDown (2 ^ 53) numerator (magnitude.exponent - 1) positive
      (by rw [div_half_unit]; push_cast at low ⊢; linarith)
      (by rw [div_half_unit]; push_cast; linarith)
      (fun odd => absurd odd (by decide))
    have next : (magnitude.exponent - 1 - leastExponent).toNat * 2 ^ 52 + 2 ^ 53 =
        magnitude.bits := by
      simp only [bits, power, leastExponent] at normal ⊢
      omega
    rw [less, rounded, next]
    exact min_eq_left bounded.le

end PowerTest.Number
