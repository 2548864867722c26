import PowerTest.Number.Binary64

/-!
# Shortest decimals

The shortest decimal of a double is the one with the fewest digits that reads back as that
double, and among those the nearest. The search goes through the grids of one digit, two digits,
and so on: if a point of a grid reads back, one of the two points next to the double does.
-/

namespace PowerTest.Number

/-- The exact number `digits * 10 ^ exponent`. -/
structure Decimal where
  digits : Nat
  exponent : Int
  deriving DecidableEq, Repr

/-- Which of two equally near grid points is taken. -/
inductive Tie
  | toEven
  | up
  deriving DecidableEq, Repr

/-- The numbers that read back as a double, as an interval of numerators over one denominator. -/
structure Interval where
  low : Nat
  exact : Nat
  high : Nat
  denominator : Nat
  closed : Bool

/-- Half a unit in the last place around a magnitude; below a power of two the unit is half as
large, and the ends belong to the interval if the significand is even. -/
def Interval.ofMagnitude (magnitude : Magnitude) : Interval :=
  let significand := magnitude.significand
  let below := if significand = 2 ^ 52 ∧ leastExponent < magnitude.exponent then 1 else 2
  let closed := significand % 2 == 0
  match magnitude.exponent - 2 with
  | .ofNat power =>
    ⟨(4 * significand - below) * 2 ^ power, 4 * significand * 2 ^ power,
      (4 * significand + 2) * 2 ^ power, 1, closed⟩
  | .negSucc power =>
    ⟨4 * significand - below, 4 * significand, 4 * significand + 2, 2 ^ (power + 1), closed⟩

/-- Whether a point of a grid, as a numerator over the interval's denominator, lies inside. -/
def Interval.holds (interval : Interval) (scale point : Nat) : Bool :=
  if interval.closed then
    interval.low * scale ≤ point && point ≤ interval.high * scale
  else
    interval.low * scale < point && point < interval.high * scale

/-- The point next to the exact number on the grid of multiples of `10 ^ exponent` that lies in
the interval, the nearer one if both neighbours do. -/
def Interval.nearestOnGrid? (interval : Interval) (tie : Tie) (exponent : Int) : Option Nat :=
  let (unit, scale) :=
    match exponent with
    | .ofNat power => (interval.denominator * 10 ^ power, 1)
    | .negSucc power => (interval.denominator, 10 ^ (power + 1))
  let exact := interval.exact * scale
  let low := exact / unit
  let high := low + 1
  match interval.holds scale (low * unit), interval.holds scale (high * unit) with
  | true, true =>
    let middle := (low + high) * unit
    if 2 * exact < middle then some low
    else if middle < 2 * exact then some high
    else if tie == .up || low % 2 == 1 then some high
    else some low
  | true, false => some low
  | false, true => some high
  | false, false => none

/-- The least place with `exact < 10 ^ place`, for the exact number of an interval. -/
def Interval.place (interval : Interval) : Int :=
  ((Nat.toDigits 10 (interval.exact * 10 ^ 330 / interval.denominator)).length : Int) - 330

/-- A decimal without zeros at the end of its digits; at most `fuel` are taken away. -/
def Decimal.trimZeros : Nat → Decimal → Decimal
  | 0, decimal => decimal
  | fuel + 1, decimal =>
    if decimal.digits ≠ 0 ∧ decimal.digits % 10 = 0 then
      trimZeros fuel ⟨decimal.digits / 10, decimal.exponent + 1⟩
    else decimal

/-- The shortest decimal that reads back as a magnitude. Seventeen digits always suffice. -/
def shortest (tie : Tie) (magnitude : Magnitude) : Decimal :=
  if magnitude.significand = 0 then ⟨0, 0⟩
  else
    let interval := Interval.ofMagnitude magnitude
    let place := interval.place
    let found := (List.range 17).findSome? fun (count : Nat) =>
      let exponent : Int := place - (count + 1)
      (interval.nearestOnGrid? tie exponent).map fun digits => Decimal.mk digits exponent
    (found.getD ⟨0, 0⟩).trimZeros 17

end PowerTest.Number
