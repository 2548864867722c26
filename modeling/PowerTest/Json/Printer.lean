import PowerTest.Json.Numeral
import PowerTest.Json.Value

/-!
# Writing JSON

A value is written on one line (`compact`) or with each member and item on a line of its own,
indented by two blanks a level (`pretty`).
-/

namespace PowerTest.Json

/-- A character in a string. -/
def escape (character : Char) : String :=
  match character with
  | '"' => "\\\""
  | '\\' => "\\\\"
  | '\x08' => "\\b"
  | '\x0c' => "\\f"
  | '\n' => "\\n"
  | '\r' => "\\r"
  | '\t' => "\\t"
  | _ =>
    if character.toNat < 0x20 then "\\u" ++ Text.smallHexadecimal 4 character.toNat
    else character.toString

/-- A text between quotes. -/
def quote (content : String) : String :=
  content.toList.foldl (fun known character => known ++ escape character) "\"" ++ "\""

/-- A string between quotes; one that spells no text is written as null. -/
def quoteSpelled : Option String → String
  | some content => quote content
  | none => "null"

/-- Texts with a separator between them. -/
def separated (separator : String) : List String → String
  | [] => ""
  | first :: rest => rest.foldl (fun known text => known ++ separator ++ text) first

mutual

/-- A value on one line. -/
def compact : Json → String
  | null => "null"
  | bool value => if value then "true" else "false"
  | number numeral => numeral
  | string spelled => quoteSpelled spelled
  | array items => "[" ++ separated "," (compactItems items) ++ "]"
  | object members => "\x7b" ++ separated "," (compactMembers members) ++ "\x7d"

/-- The items of an array, each on one line. -/
def compactItems : List Json → List String
  | [] => []
  | item :: rest => compact item :: compactItems rest

/-- The members of an object, each on one line. -/
def compactMembers : List (Option String × Json) → List String
  | [] => []
  | (name, value) :: rest => (quoteSpelled name ++ ":" ++ compact value) :: compactMembers rest

end

/-- A line break and the indentation of a level. -/
def lineBreak (level : Nat) : String :=
  "\n" ++ String.ofList (List.replicate (2 * level) ' ')

/-- Parts on lines of their own between brackets; no parts leave the brackets together. -/
def block (level : Nat) (opening closing : String) (parts : List String) : String :=
  if parts.isEmpty then opening ++ closing
  else
    opening ++ lineBreak (level + 1) ++ separated ("," ++ lineBreak (level + 1)) parts ++
      lineBreak level ++ closing

mutual

/-- A value at a level of indentation. -/
def prettyAt (level : Nat) : Json → String
  | array items => block level "[" "]" (prettyItems (level + 1) items)
  | object members => block level "\x7b" "\x7d" (prettyMembers (level + 1) members)
  | null => "null"
  | bool value => if value then "true" else "false"
  | number numeral => numeral
  | string spelled => quoteSpelled spelled

/-- The items of an array at a level of indentation. -/
def prettyItems (level : Nat) : List Json → List String
  | [] => []
  | item :: rest => prettyAt level item :: prettyItems level rest

/-- The members of an object at a level of indentation. -/
def prettyMembers (level : Nat) : List (Option String × Json) → List String
  | [] => []
  | (name, value) :: rest =>
    (quoteSpelled name ++ ": " ++ prettyAt level value) :: prettyMembers level rest

end

/-- A value with each member and item on a line of its own. -/
def pretty (value : Json) : String := prettyAt 0 value

/-- A double as a value. -/
def ofFloat (value : Float) : Json :=
  if value.isFinite then number (layout.render value) else null

/-- A whole number as a value. -/
def ofNat (value : Nat) : Json := number (Text.decimal value)

example : pretty (record [("a", array []), ("b", array [ofFloat 1.0])]) =
    "\x7b\n  \"a\": [],\n  \"b\": [\n    1.0\n  ]\n\x7d" := by decide +kernel

end PowerTest.Json
