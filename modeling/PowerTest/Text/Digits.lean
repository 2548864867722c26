/-!
# Digits

Reading and writing whole numbers in a base. `ofDigits?` refuses an empty sequence and any
character that is no digit of the base.
-/

namespace PowerTest.Text

/-- Powers of whole numbers are those of the core library, whatever else is imported. -/
@[default_instance 10001]
instance (priority := 1001) powNat : Pow Nat Nat := instPowNat

/-- The value of a digit in the bases up to sixteen; letters may be of either case. -/
def digit? (base : Nat) (character : Char) : Option Nat :=
  let value :=
    if '0' ≤ character && character ≤ '9' then some (character.toNat - '0'.toNat)
    else if 'a' ≤ character && character ≤ 'f' then some (character.toNat - 'a'.toNat + 10)
    else if 'A' ≤ character && character ≤ 'F' then some (character.toNat - 'A'.toNat + 10)
    else none
  value.bind fun value => if value < base then some value else none

/-- Whether a character is a decimal digit. -/
def isDigit (character : Char) : Bool :=
  '0' ≤ character && character ≤ '9'

/-- Further digits read after a number that is already known. -/
def continueNumber? (base : Nat) (known : Nat) : List Char → Option Nat
  | [] => some known
  | first :: rest =>
    match digit? base first with
    | some value => continueNumber? base (known * base + value) rest
    | none => none

/-- The number that digits of a base spell. -/
def ofDigits? (base : Nat) : List Char → Option Nat
  | [] => none
  | digits => continueNumber? base 0 digits

/-- The value of characters known to be decimal digits. -/
def decimalValue (digits : List Char) : Nat :=
  digits.foldl (fun known character => known * 10 + (character.toNat - '0'.toNat)) 0

/-- A number in decimal digits, without leading zeros. -/
def decimal (number : Nat) : String :=
  String.ofList (Nat.toDigits 10 number)

/-- A number in exactly `width` hexadecimal digits, which hold it modulo a power of sixteen. -/
def hexadecimal (letters : String) (width number : Nat) : String :=
  let digits := letters.toList
  String.ofList ((List.range width).map fun place =>
    digits.getD (number / 16 ^ (width - 1 - place) % 16) '0')

/-- Hexadecimal digits with small letters. -/
def smallHexadecimal : Nat → Nat → String := hexadecimal "0123456789abcdef"

/-- Hexadecimal digits with capital letters. -/
def capitalHexadecimal : Nat → Nat → String := hexadecimal "0123456789ABCDEF"

end PowerTest.Text
