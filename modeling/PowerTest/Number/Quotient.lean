/-!
# Rounded quotients

`nearestEven` divides to the nearest whole number and sends a half to the even neighbour. Its
result is at most half a unit from the exact quotient (`nearestEven_within_half`).
-/

namespace PowerTest.Number

/-- The whole number nearest to a quotient; of two equally near ones, the even one. -/
def nearestEven (numerator denominator : Nat) : Nat :=
  let low := numerator / denominator
  let twice := 2 * (numerator % denominator)
  if twice < denominator then low
  else if denominator < twice then low + 1
  else if low % 2 = 0 then low
  else low + 1

/-- A rounded quotient is at most half a unit from the exact one. -/
theorem nearestEven_within_half (numerator denominator : Nat) (positive : 0 < denominator) :
    2 * numerator ≤ (2 * nearestEven numerator denominator + 1) * denominator ∧
      2 * nearestEven numerator denominator * denominator ≤ 2 * numerator + denominator := by
  have whole := Nat.div_add_mod numerator denominator
  have small := Nat.mod_lt numerator positive
  have expand : ∀ count : Nat, (2 * count + 1) * denominator = 2 * (denominator * count) + denominator := by
    intro count
    rw [Nat.add_mul, Nat.mul_assoc, Nat.mul_comm count, Nat.one_mul]
  have twice : ∀ count : Nat, 2 * count * denominator = 2 * (denominator * count) := by
    intro count
    rw [Nat.mul_assoc, Nat.mul_comm count]
  have next : denominator * (numerator / denominator + 1) =
      denominator * (numerator / denominator) + denominator := Nat.mul_succ _ _
  simp only [nearestEven, expand, twice]
  split
  · omega
  · split
    · rw [next]; omega
    · split
      · omega
      · rw [next]; omega

end PowerTest.Number
