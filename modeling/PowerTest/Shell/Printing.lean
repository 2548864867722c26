import PowerTest.Shell.Arithmetic
import PowerTest.Text.Encoding

/-!
# Printing

What the two commands that write their arguments write: one with blanks between them, the other in
a format that is used again until no argument is left.
-/

namespace PowerTest.Shell

/-- Bytes to write, and whether an escape said to stop after them. -/
structure Printed where
  bytes : Bytes
  stopped : Bool
  deriving DecidableEq, Repr

/-- The byte of an escape of one letter. -/
def escapedByte? : Char → Option UInt8
  | 'a' => some 7
  | 'b' => some 8
  | 't' => some 9
  | 'n' => some 10
  | 'v' => some 11
  | 'f' => some 12
  | 'r' => some 13
  | '\\' => some 92
  | _ => none

/-- The octal digits at the start of a text, at most a number of them. -/
def octalDigits (count : Nat) (text : List Char) : List Char :=
  (text.take count).takeWhile fun character => '0' ≤ character && character ≤ '7'

/-- The bytes of an escape whose backslash has been read, and what follows it. -/
def readEscape (text : List Char) : Printed × List Char :=
  match text with
  | [] => (⟨[92], false⟩, [])
  | 'c' :: rest => (⟨[], true⟩, rest)
  | first :: rest =>
    let digits := octalDigits (if first == '0' then 4 else 3) text
    if !digits.isEmpty then
      (⟨[UInt8.ofNat ((Text.ofDigits? 8 digits).getD 0)], false⟩, text.drop digits.length)
    else
      match escapedByte? first with
      | some byte => (⟨[byte], false⟩, rest)
      | none => (⟨92 :: Text.encode first.toString, false⟩, rest)

/-- The bytes of a text with escapes. -/
def unescape : Nat → List Char → Printed
  | 0, _ => ⟨[], false⟩
  | _ + 1, [] => ⟨[], false⟩
  | fuel + 1, '\\' :: rest =>
    let (escape, rest) := readEscape rest
    if escape.stopped then escape
    else
      let others := unescape fuel rest
      ⟨escape.bytes ++ others.bytes, others.stopped⟩
  | fuel + 1, character :: rest =>
    let others := unescape fuel rest
    ⟨Text.encode character.toString ++ others.bytes, others.stopped⟩

/-- The arguments with blanks between them and a line end after them. -/
def echoed (escapes : Bool) (arguments : List String) : Bytes :=
  let (lineEnd, arguments) :=
    match arguments with
    | "-n" :: rest => (false, rest)
    | _ => (true, arguments)
  let text := " ".intercalate arguments
  let printed :=
    if escapes then unescape (text.length + 1) text.toList else ⟨Text.encode text, false⟩
  printed.bytes ++ if lineEnd && !printed.stopped then [10] else []

/-- How an argument is written. -/
structure Conversion where
  left : Bool
  zeros : Bool
  width : Nat
  letter : Char

/-- The conversion whose percent sign has been read, and what follows it. -/
def readConversion? (text : List Char) : Option (Conversion × List Char) :=
  let flags := text.takeWhile fun character => "-0+ #".toList.contains character
  let rest := text.drop flags.length
  let digits := rest.takeWhile Text.isDigit
  match rest.drop digits.length with
  | letter :: rest =>
    some (⟨flags.contains '-', flags.contains '0', Text.decimalValue digits, letter⟩, rest)
  | [] => none

/-- Bytes filled up to a width. -/
def Conversion.pad (conversion : Conversion) (zeros : Bool) (bytes : Bytes) : Bytes :=
  let missing := conversion.width - bytes.length
  if conversion.left then bytes ++ List.replicate missing 32
  else if zeros && conversion.zeros then
    match bytes with
    | 45 :: digits => 45 :: List.replicate missing 48 ++ digits
    | _ => List.replicate missing 48 ++ bytes
  else List.replicate missing 32 ++ bytes

/-- The digits of a number in a base. -/
def inBase (base : Nat) (value : Int) : String :=
  String.ofList (Nat.toDigits base value.natAbs)

/-- What a conversion makes of an argument; a missing one is empty. -/
def Conversion.apply (conversion : Conversion) (argument : String) : Printed :=
  let value := (ofNumeral? argument.toList).getD 0
  let number (text : String) : Printed := ⟨conversion.pad true (Text.encode text), false⟩
  match conversion.letter with
  | 's' => ⟨conversion.pad false (Text.encode argument), false⟩
  | 'b' => unescape (argument.length + 1) argument.toList
  | 'c' => ⟨conversion.pad false (Text.encode (String.ofList (argument.toList.take 1))), false⟩
  | 'd' => number (numeralText value)
  | 'i' => number (numeralText value)
  | 'u' => number (numeralText value)
  | 'o' => number (inBase 8 value)
  | 'x' => number (inBase 16 value)
  | 'X' => number (inBase 16 value).toUpper
  | _ => ⟨[], false⟩

/-- The bytes of a format used once, and the arguments left. -/
def formatOnce : Nat → List Char → List String → Printed × List String
  | 0, _, arguments => (⟨[], false⟩, arguments)
  | _ + 1, [], arguments => (⟨[], false⟩, arguments)
  | fuel + 1, '%' :: '%' :: rest, arguments =>
    let (others, arguments) := formatOnce fuel rest arguments
    (⟨37 :: others.bytes, others.stopped⟩, arguments)
  | fuel + 1, '%' :: rest, arguments =>
    match readConversion? rest with
    | none => (⟨[37], false⟩, arguments)
    | some (conversion, rest) =>
      let printed := conversion.apply (arguments.head?.getD "")
      if printed.stopped then (printed, [])
      else
        let (others, arguments) := formatOnce fuel rest (arguments.drop 1)
        (⟨printed.bytes ++ others.bytes, others.stopped⟩, arguments)
  | fuel + 1, '\\' :: rest, arguments =>
    let (escape, rest) := readEscape rest
    if escape.stopped then (escape, [])
    else
      let (others, arguments) := formatOnce fuel rest arguments
      (⟨escape.bytes ++ others.bytes, others.stopped⟩, arguments)
  | fuel + 1, character :: rest, arguments =>
    let (others, arguments) := formatOnce fuel rest arguments
    (⟨Text.encode character.toString ++ others.bytes, others.stopped⟩, arguments)

/-- The bytes of a format used until no argument is left. -/
def formatted : Nat → String → List String → Bytes
  | 0, _, _ => []
  | fuel + 1, format, arguments =>
    let (printed, left) := formatOnce (format.length + 1) format.toList arguments
    if left.isEmpty || left.length = arguments.length || printed.stopped then printed.bytes
    else printed.bytes ++ formatted fuel format left

example : echoed true ["a\\tb", "c"] = Text.encode "a\tb c\n" := by decide +kernel
example : formatted 3 "%s\\n" ["a", "b"] = Text.encode "a\nb\n" := by decide +kernel
example : formatted 1 "Q1:\\377" [] = [81, 49, 58, 255] := by decide +kernel

end PowerTest.Shell
