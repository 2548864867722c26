/-!
# JSON values

A JSON text is read into a tree that keeps all that the text says: members in order, repeated names
included, numerals as they are written, and strings that spell no text.
-/

namespace PowerTest

/-- A JSON value. -/
inductive Json
  | null
  | bool (value : Bool)
  /-- A number, as it is written. -/
  | number (numeral : String)
  /-- A string. One with half of a surrogate pair alone spells no text. -/
  | string (spelled : Option String)
  | array (items : List Json)
  | object (members : List (Option String × Json))

namespace Json

/-- A string that spells a text. -/
def text (content : String) : Json := string (some content)

/-- An object with members that have names. -/
def record (members : List (String × Json)) : Json :=
  object (members.map fun (name, value) => (some name, value))

/-- The value of a member, the first of its name. -/
def member? (value : Json) (name : String) : Option Json :=
  match value with
  | object members => members.lookup (some name)
  | _ => none

end Json

end PowerTest
