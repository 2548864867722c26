import PowerTest.Number.Binary64
import PowerTest.Text.Digits

/-!
# Numerals

A numeral is an optional sign followed by digits, of which some may stand after a point, and an
optional exponent; or by the name of an infinity or of the value that is no number, in letters of
any case. `readFloat` gives the nearest double.
-/

namespace PowerTest.Number

/-- Why a text is no numeral. -/
inductive NumeralFault
  | empty
  | invalid
  deriving DecidableEq, Repr

/-- The wording of a numeral fault. -/
def NumeralFault.message : NumeralFault → String
  | .empty => "cannot parse float from empty string"
  | .invalid => "invalid float literal"

/-- The digits at the start of a text and what follows them. -/
def leadingDigits (text : List Char) : List Char × List Char :=
  (text.takeWhile Text.isDigit, text.dropWhile Text.isDigit)

/-- A sign at the start of a text, if there is one, and what follows it. -/
def leadingSign : List Char → Bool × List Char
  | '+' :: rest => (false, rest)
  | '-' :: rest => (true, rest)
  | text => (false, text)

/-- The exponent that a text spells; none is zero. -/
def exponent? : List Char → Option Int
  | [] => some 0
  | marker :: rest =>
    if marker == 'e' || marker == 'E' then
      let (negative, digits) := leadingSign rest
      if digits.isEmpty || !digits.all Text.isDigit then none
      else
        let value : Int := Text.decimalValue digits
        some (if negative then -value else value)
    else none

/-- The digits and the exponent of a numeral without its sign. -/
def unsignedDecimal? (text : List Char) : Option (Nat × Int) :=
  let (whole, rest) := leadingDigits text
  let (fraction, rest) :=
    match rest with
    | '.' :: rest => leadingDigits rest
    | rest => ([], rest)
  if whole.isEmpty && fraction.isEmpty then none
  else
    (exponent? rest).map fun exponent =>
      (Text.decimalValue (whole ++ fraction), exponent - fraction.length)

/-- The double that a text names, if it is one of the names. -/
def namedFloat? (negative : Bool) (text : List Char) : Option Float :=
  let name := String.ofList (text.map Char.toLower)
  if name == "inf" || name == "infinity" then some (signed negative infinityBits)
  else if name == "nan" then some (0.0 / 0.0)
  else none

/-- The double nearest to what a numeral spells. -/
def readFloat (text : List Char) : Except NumeralFault Float :=
  if text.isEmpty then .error .empty
  else
    let (negative, rest) := leadingSign text
    match unsignedDecimal? rest with
    | some (digits, exponent) => .ok (ofDecimal negative digits exponent)
    | none =>
      match namedFloat? negative rest with
      | some value => .ok value
      | none => .error .invalid

end PowerTest.Number
