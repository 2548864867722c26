import PowerTest.Number.Shortest
import PowerTest.Text.Digits

/-!
# How doubles are written

A `Layout` holds the decisions of one place that writes doubles: where positional notation ends,
whether whole numbers keep a fraction, and the words for what is not finite. `Layout.render`
writes the shortest decimal in a layout, and `fixed` writes a number of places instead.
-/

namespace PowerTest.Number

/-- The decisions of a place that writes doubles in their shortest form. -/
structure Layout where
  /-- The decimal point positions written without an exponent; all of them if absent. The point
  of `digits * 10 ^ exponent` stands at the count of digits plus the exponent. -/
  positional : Option (Int × Int)
  /-- What follows a whole number written without an exponent. -/
  wholeEnding : String
  /-- What stands before an exponent that is not negative. -/
  exponentSign : String
  /-- Which of two equally short and near decimals is written. -/
  tie : Tie
  infinite : String
  negativeInfinite : String
  notANumber : String

/-- A sign in front of text. -/
def withSign (negative : Bool) (text : String) : String :=
  if negative then "-" ++ text else text

/-- Digits with the point after the given number of them, zeros filling the gaps. -/
def positionalText (wholeEnding : String) (digits : List Char) (point : Int) : String :=
  let count : Int := digits.length
  if count ≤ point then
    String.ofList (digits ++ List.replicate (point - count).toNat '0') ++ wholeEnding
  else if 0 < point then
    String.ofList (digits.take point.toNat ++ '.' :: digits.drop point.toNat)
  else
    "0." ++ String.ofList (List.replicate (-point).toNat '0' ++ digits)

/-- Digits with the point after the first of them, and an exponent. -/
def scientificText (exponentSign : String) (digits : List Char) (point : Int) : String :=
  let mantissa :=
    match digits with
    | first :: second :: rest => String.ofList (first :: '.' :: second :: rest)
    | _ => String.ofList digits
  mantissa ++ "e" ++ (if point - 1 < 0 then "-" else exponentSign) ++
    Text.decimal (point - 1).natAbs

/-- A decimal in a layout. -/
def Layout.decimalText (layout : Layout) (decimal : Decimal) : String :=
  let digits := Nat.toDigits 10 decimal.digits
  let point : Int := digits.length + decimal.exponent
  match layout.positional with
  | none => positionalText layout.wholeEnding digits point
  | some (least, greatest) =>
    if decimal.digits = 0 || (least ≤ point && point ≤ greatest) then
      positionalText layout.wholeEnding digits point
    else scientificText layout.exponentSign digits point

/-- A double in a layout. -/
def Layout.render (layout : Layout) (value : Float) : String :=
  match magnitude? value with
  | some magnitude =>
    withSign (isNegative value) (layout.decimalText (shortest layout.tie magnitude))
  | none =>
    if value.isNaN then layout.notANumber
    else if isNegative value then layout.negativeInfinite
    else layout.infinite

/-- Doubles in arguments and messages: always positional, and whole numbers without a fraction. -/
def plain : Layout where
  positional := none
  wholeEnding := ""
  exponentSign := ""
  tie := .up
  infinite := "inf"
  negativeInfinite := "-inf"
  notANumber := "NaN"

/-- A magnitude with a fixed number of places, a half going to the even last digit. -/
def fixedMagnitude (places : Nat) (magnitude : Magnitude) : String :=
  let scaled := magnitude.significand * 10 ^ places
  let rounded :=
    match magnitude.exponent with
    | .ofNat power => scaled * 2 ^ power
    | .negSucc power => nearestEven scaled (2 ^ (power + 1))
  let digits := Nat.toDigits 10 rounded
  let padded := List.replicate (places + 1 - digits.length) '0' ++ digits
  let whole := padded.length - places
  String.ofList (padded.take whole ++ '.' :: padded.drop whole)

/-- A double with a fixed positive number of places. -/
def fixed (places : Nat) (value : Float) : String :=
  match magnitude? value with
  | some magnitude => withSign (isNegative value) (fixedMagnitude places magnitude)
  | none => plain.render value

end PowerTest.Number
