import PowerTest.Proofs.Number.Rounding

/-!
# The shortest decimal of a double

The interval in which the shortest decimal is searched holds the numbers that round to the
magnitude. One of the grids has a point in it, so that a decimal is found (`covers_shortest`).
-/

namespace PowerTest.Number

variable {magnitude : Magnitude}

open Magnitude

/-! ## Intervals -/

/-- The interval of a magnitude over its denominator, in quarters of the magnitude's unit. -/
structure Interval.Quarters (interval : Interval) (magnitude : Magnitude) (unit : Nat) : Prop where
  positive : 0 < unit
  below : 0 < interval.denominator
  unit_eq : (unit : ℚ) = 2 ^ (magnitude.exponent - 2) * interval.denominator
  low : interval.low = (4 * magnitude.significand - magnitude.reach) * unit
  exact : interval.exact = 4 * magnitude.significand * unit
  high : interval.high = (4 * magnitude.significand + 2) * unit
  closed : interval.closed = (magnitude.significand % 2 == 0)

theorem Interval.quarters_ofMagnitude (magnitude : Magnitude) :
    ∃ unit, (Interval.ofMagnitude magnitude).Quarters magnitude unit := by
  unfold Interval.ofMagnitude
  simp only
  split
  · rename_i power quarter
    refine ⟨2 ^ power, Nat.two_pow_pos _, Nat.one_pos, ?_, rfl, rfl, rfl, rfl⟩
    rw [quarter, Int.ofNat_eq_natCast, zpow_natCast]
    push_cast
    ring
  · rename_i power quarter
    refine ⟨1, Nat.one_pos, Nat.two_pow_pos _, ?_, ?_, ?_, ?_, rfl⟩
    · rw [quarter, zpow_negSucc]
      push_cast
      field_simp
    · rw [Nat.mul_one]
      rfl
    · rw [Nat.mul_one]
    · rw [Nat.mul_one]

theorem Interval.Quarters.value_eq {interval : Interval} {unit : Nat}
    (quarters : interval.Quarters magnitude unit) :
    (interval.exact / interval.denominator : ℚ) = magnitude.value := by
  have below : (interval.denominator : ℚ) ≠ 0 := by exact_mod_cast quarters.below.ne'
  rw [quarters.exact]
  push_cast
  rw [quarters.unit_eq, Magnitude.value, Number.unit_eq magnitude.exponent]
  field_simp

/-- A point lies in the interval of a magnitude if and only if its number rounds to it. -/
theorem Interval.holds_iff {interval : Interval} {unit scale point : Nat}
    (canonical : magnitude.Canonical) (quarters : interval.Quarters magnitude unit)
    (scaled : 0 < scale) :
    interval.holds scale point = true ↔
      magnitude.Covers (point / (scale * interval.denominator)) := by
  have reach := magnitude.reach_le
  have some := canonical.positive
  have unit_pos : (0 : ℚ) < unit * scale := by
    have := quarters.positive
    positivity
  have below : (interval.denominator : ℚ) ≠ 0 := by exact_mod_cast quarters.below.ne'
  have scaled' : (scale : ℚ) ≠ 0 := by exact_mod_cast scaled.ne'
  have count : (point / (scale * interval.denominator) : ℚ) / 2 ^ (magnitude.exponent - 2) =
      point / (unit * scale) := by
    rw [quarters.unit_eq]
    field_simp
  have low : ((4 * magnitude.significand - magnitude.reach : Nat) : ℚ) =
      4 * magnitude.significand - magnitude.reach := by
    rw [Nat.cast_sub (by omega)]
    push_cast
    rfl
  have lowest : interval.low * scale ≤ point ↔
      (4 * magnitude.significand - magnitude.reach : ℚ) ≤ point / (unit * scale) := by
    rw [le_div_iff₀ unit_pos, ← low, quarters.low, Nat.mul_assoc]
    norm_cast
  have highest : point ≤ interval.high * scale ↔
      (point / (unit * scale) : ℚ) ≤ 4 * magnitude.significand + 2 := by
    rw [div_le_iff₀ unit_pos, quarters.high, Nat.mul_assoc]
    norm_cast
  have lowest' : interval.low * scale < point ↔
      (4 * magnitude.significand - magnitude.reach : ℚ) < point / (unit * scale) := by
    rw [lt_div_iff₀ unit_pos, ← low, quarters.low, Nat.mul_assoc]
    norm_cast
  have highest' : point < interval.high * scale ↔
      (point / (unit * scale) : ℚ) < 4 * magnitude.significand + 2 := by
    rw [div_lt_iff₀ unit_pos, quarters.high, Nat.mul_assoc]
    norm_cast
  unfold Interval.holds
  rw [quarters.closed]
  split
  · rename_i even
    have even : magnitude.significand % 2 = 0 := beq_iff_eq.mp even
    rw [Bool.and_eq_true, decide_eq_true_iff, decide_eq_true_iff, lowest, highest]
    constructor
    · rintro ⟨after, before⟩
      exact ⟨count ▸ after, count ▸ before, fun odd => by omega⟩
    · intro covers
      exact ⟨count ▸ covers.low, count ▸ covers.high⟩
  · rename_i odd
    have odd : magnitude.significand % 2 = 1 := by
      rw [beq_iff_eq] at odd
      omega
    rw [Bool.and_eq_true, decide_eq_true_iff, decide_eq_true_iff, lowest', highest']
    constructor
    · rintro ⟨after, before⟩
      exact ⟨count ▸ after.le, count ▸ before.le, fun _ => ⟨count ▸ after, count ▸ before⟩⟩
    · intro covers
      exact count ▸ covers.inside odd

/-! ## Grids -/

/-- The point next to the exact number among the multiples of a step. -/
def Interval.nextTo? (interval : Interval) (tie : Tie) (step scale : Nat) : Option Nat :=
  let exact := interval.exact * scale
  let low := exact / step
  match interval.holds scale (low * step), interval.holds scale ((low + 1) * step) with
  | true, true =>
    let middle := (low + (low + 1)) * step
    if 2 * exact < middle then some low
    else if middle < 2 * exact then some (low + 1)
    else if tie == .up || low % 2 == 1 then some (low + 1)
    else some low
  | true, false => some low
  | false, true => some (low + 1)
  | false, false => none

theorem Interval.holds_of_nextTo? {interval : Interval} {tie : Tie} {step scale digits : Nat}
    (found : interval.nextTo? tie step scale = some digits) :
    interval.holds scale (digits * step) = true := by
  unfold Interval.nextTo? at found
  simp only at found
  split at found
  · rename_i low high
    split_ifs at found <;> cases found
    · exact low
    · exact high
    · exact high
    · exact low
  · rename_i low _
    cases found
    exact low
  · rename_i high
    cases found
    exact high
  · cases found

theorem Interval.not_holds_of_nextTo? {interval : Interval} {tie : Tie} {step scale : Nat}
    (missed : interval.nextTo? tie step scale = none) :
    interval.holds scale (interval.exact * scale / step * step) = false ∧
      interval.holds scale ((interval.exact * scale / step + 1) * step) = false := by
  unfold Interval.nextTo? at missed
  simp only at missed
  split at missed
  · split_ifs at missed
  · cases missed
  · cases missed
  · rename_i low high
    exact ⟨low, high⟩

/-- The steps of a grid as numerators over the interval's denominator and a scale. -/
structure Interval.Grid (interval : Interval) (exponent : Int) (step scale : Nat) : Prop where
  stepped : 0 < step
  scaled : 0 < scale
  step_eq : (step : ℚ) = 10 ^ exponent * (scale * interval.denominator)
  nearest : ∀ tie, interval.nearestOnGrid? tie exponent = interval.nextTo? tie step scale

theorem Interval.grid {interval : Interval} (below : 0 < interval.denominator) (exponent : Int) :
    ∃ step scale, interval.Grid exponent step scale := by
  cases exponent with
  | ofNat power =>
    refine ⟨_, _, Nat.mul_pos below (Nat.pow_pos (by decide)), Nat.one_pos, ?_, fun _ => rfl⟩
    rw [Int.ofNat_eq_natCast, zpow_natCast]
    push_cast
    ring
  | negSucc power =>
    refine ⟨_, _, below, Nat.pow_pos (by decide), ?_, fun _ => rfl⟩
    rw [zpow_negSucc]
    push_cast
    field_simp

/-- A point of a grid as a number. -/
theorem Interval.Grid.point {interval : Interval} {exponent : Int} {step scale : Nat}
    (grid : interval.Grid exponent step scale) (below : 0 < interval.denominator)
    (digits : Nat) :
    ((digits * step : Nat) : ℚ) / (scale * interval.denominator) =
      Decimal.value ⟨digits, exponent⟩ := by
  have below : (interval.denominator : ℚ) ≠ 0 := by exact_mod_cast below.ne'
  have scaled : (scale : ℚ) ≠ 0 := by exact_mod_cast grid.scaled.ne'
  rw [Decimal.value, Nat.cast_mul, grid.step_eq]
  field_simp

/-- What a grid gives rounds to the magnitude. -/
theorem Interval.covers_of_nearestOnGrid? {interval : Interval} {unit digits : Nat} {tie : Tie}
    {exponent : Int} (canonical : magnitude.Canonical)
    (quarters : interval.Quarters magnitude unit)
    (found : interval.nearestOnGrid? tie exponent = some digits) :
    magnitude.Covers (Decimal.value ⟨digits, exponent⟩) := by
  obtain ⟨step, scale, grid⟩ := interval.grid quarters.below exponent
  rw [grid.nearest] at found
  have covers := (interval.holds_iff canonical quarters grid.scaled).mp
    (interval.holds_of_nextTo? found)
  rwa [grid.point quarters.below] at covers

theorem covers_of_inside {number : ℚ}
    (low : 4 * magnitude.significand - magnitude.reach < number / 2 ^ (magnitude.exponent - 2))
    (high : number / 2 ^ (magnitude.exponent - 2) < 4 * magnitude.significand + 2) :
    magnitude.Covers number :=
  ⟨low.le, high.le, fun _ => ⟨low, high⟩⟩

/-- The exact number lies between two points of a grid that are next to each other. -/
theorem Interval.Grid.around {interval : Interval} {exponent : Int} {unit step scale : Nat}
    (grid : interval.Grid exponent step scale) (quarters : interval.Quarters magnitude unit) :
    ((interval.exact * scale / step : Nat) : ℚ) * 10 ^ exponent ≤ magnitude.value ∧
      magnitude.value < (((interval.exact * scale / step : Nat) : ℚ) + 1) * 10 ^ exponent := by
  set low := interval.exact * scale / step
  have below : (interval.denominator : ℚ) ≠ 0 := by exact_mod_cast quarters.below.ne'
  have exact_eq : (interval.exact * scale : ℚ) =
      magnitude.value * (scale * interval.denominator) := by
    rw [← quarters.value_eq]
    field_simp
  have width : (0 : ℚ) < scale * interval.denominator := by
    have := grid.scaled
    have := quarters.below
    positivity
  constructor
  · have whole : (low * step : ℚ) ≤ interval.exact * scale := by
      exact_mod_cast Nat.div_mul_le_self (interval.exact * scale) step
    rw [exact_eq, grid.step_eq, ← mul_assoc (low : ℚ)] at whole
    exact le_of_mul_le_mul_right whole width
  · have whole : (interval.exact * scale : ℚ) < (low + 1) * step := by
      exact_mod_cast (Nat.div_lt_iff_lt_mul grid.stepped).mp (Nat.lt_succ_self low)
    rw [exact_eq, grid.step_eq, ← mul_assoc (low + 1 : ℚ)] at whole
    exact lt_of_mul_lt_mul_right whole width.le

/-- Seventeen digits tell apart what is a magnitude's reach and half a unit away from it. -/
theorem Magnitude.Canonical.narrow (canonical : magnitude.Canonical) :
    4 * magnitude.significand < (magnitude.reach + 2) * 10 ^ 16 := by
  have small := canonical.small
  unfold reach
  split <;> omega

/-- A grid finer than the magnitude's unit has a point in the interval. -/
theorem Interval.nearestOnGrid?_isSome {interval : Interval} {unit : Nat} (tie : Tie)
    {exponent : Int} (canonical : magnitude.Canonical)
    (quarters : interval.Quarters magnitude unit)
    (fine : (10 : ℚ) ^ exponent * 10 ^ 16 ≤ magnitude.value) :
    (interval.nearestOnGrid? tie exponent).isSome := by
  obtain ⟨step, scale, grid⟩ := interval.grid quarters.below exponent
  by_contra none
  rw [grid.nearest] at none
  obtain ⟨before, after⟩ := interval.not_holds_of_nextTo? (Option.not_isSome_iff_eq_none.mp none)
  obtain ⟨left, right⟩ := grid.around quarters
  set low := interval.exact * scale / step
  have first := mt (interval.holds_iff canonical quarters grid.scaled).mpr
    (Bool.eq_false_iff.mp before)
  have second := mt (interval.holds_iff canonical quarters grid.scaled).mpr
    (Bool.eq_false_iff.mp after)
  rw [grid.point quarters.below, Decimal.value] at first second
  push_cast at first second
  have unit_pos := magnitude.unit_pos
  set quarter : ℚ := 2 ^ (magnitude.exponent - 2)
  set gap : ℚ := 10 ^ exponent
  have value_eq : magnitude.value = 4 * magnitude.significand * quarter := by
    rw [Magnitude.value, unit_eq]
    ring
  rw [value_eq] at left right fine
  -- Neither point is inside, so that the points are more than a unit apart.
  have under : (low * gap : ℚ) ≤ (4 * magnitude.significand - magnitude.reach) * quarter := by
    by_contra inside
    refine first (covers_of_inside ?_ ?_)
    · rw [lt_div_iff₀ unit_pos]
      exact not_le.mp inside
    · rw [div_lt_iff₀ unit_pos]
      linarith
  have beyond : ((4 * magnitude.significand + 2) * quarter : ℚ) ≤ (low + 1) * gap := by
    by_contra inside
    refine second (covers_of_inside ?_ ?_)
    · have reach : (0 : ℚ) ≤ magnitude.reach * quarter := by positivity
      rw [lt_div_iff₀ unit_pos]
      linarith
    · rw [div_lt_iff₀ unit_pos]
      exact not_le.mp inside
  have apart : (magnitude.reach + 2) * quarter ≤ gap := by linarith
  have total : (magnitude.reach + 2 : ℚ) * 10 ^ 16 ≤ 4 * magnitude.significand := by
    refine le_of_mul_le_mul_right ?_ unit_pos
    linarith
  exact absurd total (not_le.mpr (by exact_mod_cast canonical.narrow))

/-! ## The search -/

/-- The count of a number's digits bounds the number. -/
theorem pow_length_toDigits {number : Nat} (positive : 0 < number) :
    (10 : ℚ) ^ (((Nat.toDigits 10 number).length : Int) - 1) ≤ number ∧
      (number : ℚ) < 10 ^ ((Nat.toDigits 10 number).length : Int) := by
  have some : 0 < (Nat.toDigits 10 number).length := Nat.length_toDigits_pos
  have upper : number < 10 ^ (Nat.toDigits 10 number).length :=
    (Nat.length_toDigits_le_iff (by decide) some).mp le_rfl
  have lower : 10 ^ ((Nat.toDigits 10 number).length - 1) ≤ number := by
    by_cases one : (Nat.toDigits 10 number).length = 1
    · rw [one]
      exact positive
    · refine not_lt.mp (mt (Nat.length_toDigits_le_iff (by decide) ?_).mpr ?_)
      · omega
      · omega
  refine ⟨?_, ?_⟩
  · rw [← Nat.cast_pred some, zpow_natCast]
    exact_mod_cast lower
  · rw [zpow_natCast]
    exact_mod_cast upper

/-- The place of an interval is not above the first digit of its exact number. -/
theorem Interval.pow_place_le {interval : Interval} {unit : Nat}
    (canonical : magnitude.Canonical) (quarters : interval.Quarters magnitude unit) :
    (10 : ℚ) ^ (interval.place - 1) ≤ magnitude.value := by
  have below : (0 : ℚ) < interval.denominator := by exact_mod_cast quarters.below
  obtain ⟨shift, shift_eq⟩ : ∃ shift : Nat, shift = 10 ^ 330 := ⟨_, rfl⟩
  have shift_cast : (shift : ℚ) = 10 ^ (330 : Int) := by
    rw [shift_eq, Nat.cast_pow]
    exact (zpow_natCast 10 330).symm
  -- Shifted that far, even the least magnitude has a digit before the point.
  have reached : (1 : ℚ) ≤ magnitude.value * shift := by
    have some : (1 : ℚ) ≤ magnitude.significand := by exact_mod_cast canonical.positive
    have long : 2 ^ 1074 ≤ shift := by
      rw [shift_eq]
      decide +kernel
    calc (1 : ℚ) = 2 ^ leastExponent * ((2 ^ 1074 : Nat) : ℚ) := by
          rw [Nat.cast_pow, Nat.cast_ofNat]
          exact (zpow_neg_mul_zpow_self 1074 two_ne_zero).symm
      _ ≤ 2 ^ magnitude.exponent * shift := by
        gcongr
        · exact one_le_two
        · exact canonical.least
      _ ≤ magnitude.value * shift := by
        gcongr
        exact le_mul_of_one_le_left (by positivity) some
  have value_eq := quarters.value_eq
  obtain ⟨whole, whole_eq⟩ : ∃ whole, whole = interval.exact * shift / interval.denominator :=
    ⟨_, rfl⟩
  have at_most : (whole : ℚ) ≤ magnitude.value * shift := by
    rw [← value_eq, div_mul_eq_mul_div, whole_eq]
    have cast : (((interval.exact * shift) / interval.denominator : Nat) : ℚ) ≤
        ((interval.exact * shift : Nat) : ℚ) / interval.denominator := Nat.cast_div_le
    exact_mod_cast cast
  have some : 0 < whole := by
    rw [← value_eq, div_mul_eq_mul_div, one_le_div below] at reached
    rw [whole_eq]
    exact Nat.div_pos (by exact_mod_cast reached) quarters.below
  have digits := (pow_length_toDigits some).1.trans at_most
  rw [Interval.place, ← shift_eq, ← whole_eq]
  refine le_of_mul_le_mul_right ?_ (by positivity : (0 : ℚ) < 10 ^ (330 : Int))
  rw [← zpow_add₀ (by norm_num), ← shift_cast]
  convert digits using 2
  ring

theorem trimZeros_value (fuel : Nat) (decimal : Decimal) :
    (decimal.trimZeros fuel).value = decimal.value := by
  induction fuel generalizing decimal with
  | zero => rfl
  | succ fuel ih =>
    rw [Decimal.trimZeros]
    split
    · rename_i zero
      rw [ih]
      have ten : 10 * (decimal.digits / 10) = decimal.digits :=
        Nat.mul_div_cancel' (Nat.dvd_of_mod_eq_zero zero.2)
      have cast : (10 * (decimal.digits / 10 : Nat) : ℚ) = decimal.digits := by exact_mod_cast ten
      simp only [Decimal.value]
      rw [← cast, zpow_add_one₀ (by norm_num)]
      ring
    · rfl

/-- The shortest decimal of a magnitude rounds to it. -/
theorem covers_shortest (canonical : magnitude.Canonical) (tie : Tie) :
    magnitude.Covers (shortest tie magnitude).value := by
  obtain ⟨unit, quarters⟩ := Interval.quarters_ofMagnitude magnitude
  set interval := Interval.ofMagnitude magnitude
  -- The last grid of the search is fine enough.
  have fine : (10 : ℚ) ^ (interval.place - ((16 : Nat) + 1)) * 10 ^ 16 ≤ magnitude.value := by
    refine le_of_eq_of_le ?_ (interval.pow_place_le canonical quarters)
    rw [← zpow_natCast, ← zpow_add₀ (by norm_num)]
    congr 1
    push_cast
    ring
  have last := interval.nearestOnGrid?_isSome tie canonical quarters fine
  have some : ((List.range 17).findSome? fun (count : Nat) =>
      (interval.nearestOnGrid? tie (interval.place - (count + 1))).map fun digits =>
        Decimal.mk digits (interval.place - (count + 1))).isSome := by
    rw [List.findSome?_isSome_iff]
    refine ⟨16, List.mem_range.mpr (by decide), ?_⟩
    rw [Option.isSome_map]
    exact last
  obtain ⟨decimal, found⟩ := Option.isSome_iff_exists.mp some
  have shortest_eq : shortest tie magnitude = decimal.trimZeros 17 := by
    unfold shortest
    rw [if_neg canonical.positive.ne']
    exact congrArg (fun found : Option Decimal => (found.getD ⟨0, 0⟩).trimZeros 17) found
  rw [shortest_eq, trimZeros_value]
  obtain ⟨count, -, here⟩ := List.exists_of_findSome?_eq_some found
  obtain ⟨digits, point, rfl⟩ := Option.map_eq_some_iff.mp here
  exact interval.covers_of_nearestOnGrid? canonical quarters point

end PowerTest.Number
