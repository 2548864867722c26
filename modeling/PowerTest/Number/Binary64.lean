import PowerTest.Number.Quotient
import PowerTest.Text.Digits

/-!
# Doubles as exact numbers

A finite double is a significand below `2 ^ 53` times a power of two. `magnitude?` takes a double
apart, and `ofRatio` finds the double nearest to a ratio of whole numbers, a half going to the
even significand. Everything else in the library that reads or writes a double goes through these
two, in exact arithmetic.
-/

namespace PowerTest.Number

/-- The exact number `significand * 2 ^ exponent`. -/
structure Magnitude where
  significand : Nat
  exponent : Int
  deriving DecidableEq, Repr

/-- The least exponent of a double's magnitude. -/
def leastExponent : Int := -1074

/-- Whether a double has its sign bit set, zero and infinity included. -/
def isNegative (value : Float) : Bool :=
  2 ^ 63 ≤ value.toBits.toNat

/-- The magnitude of a double with the given bits, if it is finite. -/
def magnitudeOfBits? (bits : Nat) : Option Magnitude :=
  let fraction : Nat := bits % 2 ^ 52
  let field : Nat := bits / 2 ^ 52 % 2 ^ 11
  if field = 2047 then none
  else if field = 0 then some ⟨fraction, leastExponent⟩
  else some ⟨fraction + 2 ^ 52, (field : Int) - 1075⟩

/-- The magnitude of a finite double. -/
def magnitude? (value : Float) : Option Magnitude :=
  magnitudeOfBits? value.toBits.toNat

/-- The bits of positive infinity, the first that belong to no finite magnitude. -/
def infinityBits : Nat := 2047 * 2 ^ 52

/-- A ratio divided by a power of two. -/
def scaledDown (numerator denominator : Nat) (exponent : Int) : Nat × Nat :=
  match exponent with
  | .ofNat power => (numerator, denominator * 2 ^ power)
  | .negSucc power => (numerator * 2 ^ (power + 1), denominator)

/-- The exponent of the binade that holds a positive ratio: the ratio lies in the interval
from `2 ^ binade` up to and without `2 ^ (binade + 1)`. -/
def binade (numerator denominator : Nat) : Int :=
  let guess : Int := (numerator.log2 : Int) - (denominator.log2 : Int)
  let (above, below) := scaledDown numerator denominator guess
  if below ≤ above then guess else guess - 1

/-- The bits of the nonnegative double nearest to a ratio. The bits of successive doubles are
successive numbers, so a significand that rounds up to the next power of two needs no care. -/
def bitsOfRatio (numerator denominator : Nat) : Nat :=
  if numerator = 0 then 0
  else
    let exponent := max (binade numerator denominator - 52) leastExponent
    let (above, below) := scaledDown numerator denominator exponent
    let significand := nearestEven above below
    min ((exponent - leastExponent).toNat * 2 ^ 52 + significand) infinityBits

/-- The double with a sign and the bits of a magnitude. -/
def signed (negative : Bool) (bits : Nat) : Float :=
  Float.ofBits (UInt64.ofNat (if negative then 2 ^ 63 + bits else bits))

/-- The double nearest to `digits * 10 ^ exponent`. Exponents so far out that every such number
is infinite or rounds to zero are not raised to. -/
def ofDecimal (negative : Bool) (digits : Nat) (exponent : Int) : Float :=
  let size : Int := (Nat.toDigits 10 digits).length + exponent
  if digits = 0 || size < -400 then signed negative 0
  else if 400 < size then signed negative infinityBits
  else
    match exponent with
    | .ofNat power => signed negative (bitsOfRatio (digits * 10 ^ power) 1)
    | .negSucc power => signed negative (bitsOfRatio digits (10 ^ (power + 1)))

end PowerTest.Number
