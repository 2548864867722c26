import PowerTest.Config.Reading
import PowerTest.Json.Reader

/-!
# Configurations in JSON

A section is an object, or an array of its fields in order. Members that are no field are left out,
but every name has to spell a text.
-/

namespace PowerTest

namespace Json

/-- Members whose names all spell texts. -/
def named? : List (Option String × Json) → Option (List (String × Json))
  | [] => some []
  | (none, _) :: _ => none
  | (some name, value) :: rest => (named? rest).map ((name, value) :: ·)

/-- A table is named by a string, or by the one member of an object, which is null. -/
def table? : Json → Option Table
  | string (some name) => Table.ofStem? name
  | object [(some name, null)] => Table.ofStem? name
  | _ => none

/-- What JSON values stand for in a configuration. -/
def format : Format Json where
  text?
    | string spelled => spelled
    | _ => none
  float?
    | number numeral => (Numeral.ofText? numeral).bind Numeral.toFloat?
    | _ => none
  word?
    | number numeral => (Numeral.ofText? numeral).bind Numeral.toWord?
    | _ => none
  flag?
    | bool value => some value
    | _ => none
  table? := table?
  items?
    | array items => some items
    | _ => none
  present?
    | null => some none
    | value => some (some value)
  fields? names
    | array items => if names.length < items.length then none else some (names.zip items)
    | object members => (named? members).bind (Format.known? names)
    | _ => none

end Json

/-- Read a configuration from a JSON text. -/
def Config.ofJson? (text : String) : Option Config :=
  (Json.parse? text).bind (Config.read? Json.format)

end PowerTest
