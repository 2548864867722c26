import PowerTest.Number.Numeral

/-!
# Meanings of plain scalars

Which texts stand for nothing, for a truth value or for a number when they are written plainly. A
text that stands for one of these has to be quoted to stand for itself.
-/

namespace PowerTest.Yaml

/-- Whether a text is a word for nothing. -/
def isNull (text : String) : Bool := ["null", "Null", "NULL", "~"].contains text

/-- The truth value that a text stands for. -/
def flag? (text : String) : Option Bool :=
  if ["true", "True", "TRUE"].contains text then some true
  else if ["false", "False", "FALSE"].contains text then some false
  else none

/-- Whether a text starts with a sign. -/
def startsSigned : List Char → Bool
  | '+' :: _ => true
  | '-' :: _ => true
  | _ => false

/-- Whether a text is a zero followed by more digits, with or without a sign. Such a text stands for
itself. -/
def isPadded (text : List Char) : Bool :=
  match (Number.leadingSign text).2 with
  | '0' :: second :: rest => (second :: rest).all Text.isDigit
  | _ => false

/-- The number in a base other than ten that a text without its sign spells. -/
def basedNumber? : List Char → Option Nat
  | '0' :: 'x' :: digits => Text.ofDigits? 16 digits
  | '0' :: 'o' :: digits => Text.ofDigits? 8 digits
  | '0' :: 'b' :: digits => Text.ofDigits? 2 digits
  | _ => none

/-- A number below a limit. -/
def below? (limit : Nat) (number : Option Nat) : Option Nat :=
  number.bind fun value => if value < limit then some value else none

/-- The number that a text without its sign spells, if the text is not padded. -/
def magnitude? (limit : Nat) (padded : Bool) (text : List Char) : Option Nat :=
  match below? limit (basedNumber? text) with
  | some value => some value
  | none => if padded then none else below? limit (Text.ofDigits? 10 text)

/-- The whole number below a limit that a text stands for. -/
def natural? (limit : Nat) (text : String) : Option Nat :=
  let characters := text.toList
  let digits :=
    match characters with
    | '+' :: rest => rest
    | _ => characters
  magnitude? limit (isPadded characters) digits

/-- The magnitude of the negative number, at most a limit, that a text stands for. -/
def negative? (limit : Nat) (text : String) : Option Nat :=
  match text.toList with
  | '-' :: digits => magnitude? (limit + 1) (isPadded ('-' :: digits)) digits
  | _ => none

/-- The double that a text stands for. Numerals of infinite doubles stand for none. -/
def float? (text : String) : Option Float :=
  let characters := text.toList
  let (signed, unsigned) :=
    match characters with
    | '+' :: rest => (true, rest)
    | _ => (false, characters)
  if signed && startsSigned unsigned then none
  else if [".inf", ".Inf", ".INF"].contains (String.ofList unsigned) then
    some (Number.signed false Number.infinityBits)
  else if ["-.inf", "-.Inf", "-.INF"].contains text then
    some (Number.signed true Number.infinityBits)
  else if [".nan", ".NaN", ".NAN"].contains text then some (0.0 / 0.0)
  else
    match Number.readFloat unsigned with
    | .ok value => if value.isFinite then some value else none
    | .error _ => none

end PowerTest.Yaml
