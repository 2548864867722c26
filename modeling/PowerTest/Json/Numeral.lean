import PowerTest.Number.Numeral
import PowerTest.Number.Layout

/-!
# JSON numerals

A numeral is a whole number without leading zeros, an optional fraction and an optional exponent.
Its double is reached by scaling: as many leading digits as fit a word of 64 bits become a double,
which one power of ten then multiplies or divides. A result too large for a double is refused.
-/

namespace PowerTest.Json

/-- The parts of a numeral. -/
structure Numeral where
  negative : Bool
  whole : List Char
  fraction : List Char
  /-- The exponent's sign and digits. -/
  exponent : Option (Bool × List Char)
  deriving DecidableEq, Repr

namespace Numeral

/-- A fraction at the start of a text, if there is one; a point needs a digit after it. -/
def splitFraction? : List Char → Option (List Char × List Char)
  | '.' :: rest =>
    let (digits, rest) := Number.leadingDigits rest
    if digits.isEmpty then none else some (digits, rest)
  | rest => some ([], rest)

/-- An exponent at the start of a text, if there is one; its mark needs a digit after it. -/
def splitExponent? : List Char → Option (Option (Bool × List Char) × List Char)
  | [] => some (none, [])
  | mark :: rest =>
    if mark == 'e' || mark == 'E' then
      let (negative, rest) := Number.leadingSign rest
      let (digits, rest) := Number.leadingDigits rest
      if digits.isEmpty then none else some (some (negative, digits), rest)
    else some (none, mark :: rest)

/-- The numeral at the start of a text, and what follows it. -/
def split? (text : List Char) : Option (Numeral × List Char) :=
  let (negative, rest) :=
    match text with
    | '-' :: rest => (true, rest)
    | rest => (false, rest)
  let (whole, rest) := Number.leadingDigits rest
  if whole.isEmpty || (whole.head? == some '0' && whole.length ≠ 1) then none
  else do
    let (fraction, rest) ← splitFraction? rest
    let (exponent, rest) ← splitExponent? rest
    some (⟨negative, whole, fraction, exponent⟩, rest)

/-- Digits added to a number for as long as it fits a word of 64 bits, and the digits left. -/
def fillWord (known : Nat) : List Char → Nat × List Char
  | [] => (known, [])
  | first :: rest =>
    let longer := known * 10 + (first.toNat - '0'.toNat)
    if longer < 2 ^ 64 then fillWord longer rest else (known, first :: rest)

/-- A double multiplied by a power of ten in steps that doubles can hold. -/
def scale? : Nat → Float → Int → Option Float
  | 0, value, _ => some value
  | fuel + 1, value, exponent =>
    if 0 ≤ exponent then
      if 308 < exponent then
        if value == 0.0 then some value else none
      else
        let scaled := value * Number.ofDecimal false 1 exponent
        if scaled.isInf then none else some scaled
    else if -308 ≤ exponent then some (value / Number.ofDecimal false 1 (-exponent))
    else if value == 0.0 then some value
    else scale? fuel (value / Number.ofDecimal false 1 308) (exponent + 308)

/-- The double of a numeral. -/
def toFloat? (numeral : Numeral) : Option Float :=
  let (leading, dropped) := fillWord 0 numeral.whole
  let (significand, unread) := fillWord leading numeral.fraction
  let start : Int := (dropped.length : Int) - (numeral.fraction.length - unread.length : Nat)
  let exponent : Int :=
    match numeral.exponent with
    | none => 0
    | some (negative, digits) =>
      let value : Int := Text.decimalValue digits
      if negative then -value else value
  let magnitude := scale? 4 (Number.signed false (Number.bitsOfRatio significand 1)) (start + exponent)
  magnitude.map fun value => if numeral.negative then -value else value

/-- The number of a numeral without sign, fraction and exponent, if it fits a word of 64 bits. -/
def toWord? (numeral : Numeral) : Option Nat :=
  if numeral.negative || !numeral.fraction.isEmpty || numeral.exponent.isSome then none
  else
    match fillWord 0 numeral.whole with
    | (value, []) => some value
    | _ => none

/-- The numeral that a whole text spells. -/
def ofText? (text : String) : Option Numeral :=
  match split? text.toList with
  | some (numeral, []) => some numeral
  | _ => none

end Numeral

/-- How doubles are written in JSON. -/
def layout : Number.Layout where
  positional := some (-4, 16)
  wholeEnding := ".0"
  exponentSign := "+"
  tie := .toEven
  infinite := "null"
  negativeInfinite := "null"
  notANumber := "null"

end PowerTest.Json
