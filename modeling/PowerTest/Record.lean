import PowerTest.Failure

/-!
# Records

A delimited file holds one record a line. Every field of a record is followed by a bar, so what
follows the last bar is no field. `Source.items` reads a file line by line: each line that is not
blank gives one item, a record or the failure to decode it, and reading goes on after a failure.
-/

namespace PowerTest

/-- The fields of a record. -/
abbrev Record := List String

namespace Record

/-- The character after each field. -/
def delimiter : Char := '|'

/-- The fields of a line. -/
def ofLine (line : String) : Record :=
  ((Text.cut (· == delimiter) line.toList).dropLast).map String.ofList

/-- The record on a physical line, if the line is not blank once its line end is gone. -/
def ofBytes? (path : String) (line : Bytes) : Option (Except Failure Record) :=
  match Text.decode? line with
  | none => some (.error (.inputOutput path .undecodable))
  | some text =>
    let stripped := Text.dropEnd '\r' text.toList
    if stripped.isEmpty then none else some (.ok (ofLine (String.ofList stripped)))

/-- The physical lines of a file, without their line ends. -/
def physicalLines (content : Bytes) : List Bytes :=
  Text.lines 10 13 content

/-- The items of a file, in order. -/
def items (path : String) (content : Bytes) : List (Except Failure Record) :=
  (physicalLines content).filterMap (ofBytes? path)

end Record

/-- An opened source: a directory can be opened too, and then every read fails. -/
inductive Source
  | file (content : Bytes)
  | directory

namespace Source

/-- Open the source that a path leads to. -/
def openAt (store : Store) (path : String) : Except Failure Source :=
  match store.find path with
  | .error fault => .error (.ofSource path fault)
  | .ok (_, .directory) => .ok .directory
  | .ok (_, .file _ content) => .ok (.file content)

/-- Items up to and with the given number of failures. -/
def untilFailures : Nat → List (Except Failure Record) → List (Except Failure Record)
  | 0, _ => []
  | _, [] => []
  | patience + 1, .ok record :: rest => .ok record :: untilFailures (patience + 1) rest
  | patience + 1, .error failure :: rest => .error failure :: untilFailures patience rest

/-- The items of a source up to and with the given number of failures. -/
def items (source : Source) (path : String) (patience : Nat) : List (Except Failure Record) :=
  match source with
  | .file content => untilFailures patience (Record.items path content)
  | .directory => List.replicate patience (.error (.inputOutput path .isADirectory))

end Source

end PowerTest
