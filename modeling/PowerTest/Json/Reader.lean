import PowerTest.Json.Numeral
import PowerTest.Json.Value

/-!
# Reading JSON

`Json.parse?` reads a text that holds one value and nothing after it but blanks. Values may be
nested to any depth.
-/

namespace PowerTest.Json

/-- A text without the blanks at its start. -/
def skipBlanks (input : List Char) : List Char :=
  input.dropWhile fun character =>
    character == ' ' || character == '\n' || character == '\t' || character == '\r'

/-- A string that has been read up to some place: its characters in reverse, the first half of a
surrogate pair if that was the last escape, and whether it can still spell a text. -/
structure Spelling where
  reversed : List Char
  pending : Option Nat
  sound : Bool

namespace Spelling

/-- A string before its first character. -/
def start : Spelling := ⟨[], none, true⟩

/-- A string with one more character. -/
def push (spelling : Spelling) (character : Char) : Spelling :=
  ⟨character :: spelling.reversed, none, spelling.sound && spelling.pending.isNone⟩

/-- A string with one more escaped code unit. -/
def pushUnit (spelling : Spelling) (unit : Nat) : Spelling :=
  if 0xD800 ≤ unit && unit ≤ 0xDBFF then
    ⟨spelling.reversed, some unit, spelling.sound && spelling.pending.isNone⟩
  else if 0xDC00 ≤ unit && unit ≤ 0xDFFF then
    match spelling.pending with
    | some first =>
      ⟨Char.ofNat (0x10000 + (first - 0xD800) * 0x400 + (unit - 0xDC00)) :: spelling.reversed,
        none, spelling.sound⟩
    | none => ⟨spelling.reversed, none, false⟩
  else spelling.push (Char.ofNat unit)

/-- The text that a string spells, if it spells one. -/
def finish (spelling : Spelling) : Option String :=
  if spelling.sound && spelling.pending.isNone then some (String.ofList spelling.reversed.reverse)
  else none

end Spelling

/-- The character of an escape of one letter. -/
def escaped? : Char → Option Char
  | '"' => some '"'
  | '\\' => some '\\'
  | '/' => some '/'
  | 'b' => some '\x08'
  | 'f' => some '\x0c'
  | 'n' => some '\n'
  | 'r' => some '\r'
  | 't' => some '\t'
  | _ => none

/-- The rest of a string whose opening quote has been read, and what follows its closing quote. -/
def readString? (spelling : Spelling) : List Char → Option (Option String × List Char)
  | [] => none
  | '"' :: rest => some (spelling.finish, rest)
  | '\\' :: 'u' :: first :: second :: third :: fourth :: rest =>
    match Text.ofDigits? 16 [first, second, third, fourth] with
    | some unit => readString? (spelling.pushUnit unit) rest
    | none => none
  | '\\' :: letter :: rest =>
    match escaped? letter with
    | some character => readString? (spelling.push character) rest
    | none => none
  | character :: rest =>
    if character.toNat < 0x20 || character == '\\' then none
    else readString? (spelling.push character) rest

/-- A text without a word at its start. -/
def dropWord? (word input : List Char) : Option (List Char) :=
  if word.isPrefixOf input then some (input.drop word.length) else none

mutual

/-- The value at the start of a text, after blanks, and what follows it. -/
def readValue? : Nat → List Char → Option (Json × List Char)
  | 0, _ => none
  | fuel + 1, input =>
    match skipBlanks input with
    | '"' :: rest => (readString? .start rest).map fun (spelled, rest) => (.string spelled, rest)
    | '[' :: rest =>
      match skipBlanks rest with
      | ']' :: rest => some (.array [], rest)
      | rest => (readItems? fuel rest).map fun (items, rest) => (.array items, rest)
    | '{' :: rest =>
      match skipBlanks rest with
      | '}' :: rest => some (.object [], rest)
      | rest => (readMembers? fuel rest).map fun (members, rest) => (.object members, rest)
    | 'n' :: rest => (dropWord? ['u', 'l', 'l'] rest).map fun rest => (.null, rest)
    | 't' :: rest => (dropWord? ['r', 'u', 'e'] rest).map fun rest => (.bool true, rest)
    | 'f' :: rest => (dropWord? ['a', 'l', 's', 'e'] rest).map fun rest => (.bool false, rest)
    | rest =>
      (Numeral.split? rest).map fun (_, after) =>
        (.number (String.ofList (rest.take (rest.length - after.length))), after)

/-- The items of an array up to its closing bracket. -/
def readItems? : Nat → List Char → Option (List Json × List Char)
  | 0, _ => none
  | fuel + 1, input =>
    match readValue? fuel input with
    | none => none
    | some (item, rest) =>
      match skipBlanks rest with
      | ']' :: rest => some ([item], rest)
      | ',' :: rest => (readItems? fuel rest).map fun (items, rest) => (item :: items, rest)
      | _ => none

/-- The members of an object up to its closing brace. -/
def readMembers? : Nat → List Char → Option (List (Option String × Json) × List Char)
  | 0, _ => none
  | fuel + 1, input =>
    match skipBlanks input with
    | '"' :: rest =>
      match readString? .start rest with
      | none => none
      | some (name, rest) =>
        match skipBlanks rest with
        | ':' :: rest =>
          match readValue? fuel rest with
          | none => none
          | some (value, rest) =>
            match skipBlanks rest with
            | '}' :: rest => some ([(name, value)], rest)
            | ',' :: rest =>
              (readMembers? fuel rest).map fun (members, rest) =>
                ((name, value) :: members, rest)
            | _ => none
        | _ => none
    | _ => none

end

/-- The value that a text holds. Every step of the reader but one in two takes a character, so the
fuel is never used up. -/
def parse? (text : String) : Option Json :=
  let input := text.toList
  match readValue? (2 * input.length + 2) input with
  | some (value, rest) => if (skipBlanks rest).isEmpty then some value else none
  | none => none

end PowerTest.Json
