import PowerTest.Statement

/-!
# Conversions

A conversion writes the statements of each record of a delimited file to a script, one statement a
line, and removes the file when the script is complete. When a record cannot be read, the
statements before it have been written and the file stays.
-/

namespace PowerTest

/-- What happens to the content that a destination has already. -/
inductive WriteMode
  | overwrite
  | append
  deriving DecidableEq, Repr

/-- The bytes of statements, each on a line of its own. -/
def scriptBytes (statements : List String) : Bytes :=
  statements.flatMap fun statement => Text.encode statement ++ [10]

/-- The statements of the records before the first failure, how many records these are, and the
failure. -/
def statementsOf (render : Record → List String) :
    List (Except Failure Record) → List String × Nat × Option Failure
  | [] => ([], 0, none)
  | .error failure :: _ => ([], 0, some failure)
  | .ok record :: rest =>
    let (statements, count, failure) := statementsOf render rest
    (render record ++ statements, count + 1, failure)

namespace Store

/-- The store with a destination ready to be written: there, and empty if it is overwritten. -/
def openDestination (store : Store) (path : String) : WriteMode → Except Fault Store
  | .overwrite => store.write path []
  | .append => store.append path []

end Store

/-- Open a source, changing nothing. -/
def openSource (path : String) : Files Source := fun store =>
  match Source.openAt store path with
  | .ok opened => .ok opened store
  | .error failure => .error failure store

/-- Convert a delimited file, and count the records converted. The source is opened before the
destination, and read when the destination is ready. -/
def convert (render : Record → List String) (source destination : String) (mode : WriteMode) :
    Files Nat := do
  let _ ← openSource source
  Files.change (.destinationWrite destination) (·.openDestination destination mode)
  let opened ← openSource source
  let (statements, count, failure) := statementsOf render (opened.items source 1)
  Files.change (.destinationWrite destination) (·.append destination (scriptBytes statements))
  match failure with
  | some failure => throw failure
  | none =>
    Files.change (.inputOutput source) (·.remove source)
    pure count

/-- Convert the rows of a table to the statements that insert them. -/
def convertRecords (table : Table) (source destination : String) (mode : WriteMode) : Files Nat :=
  convert (fun record => [insertStatement table record]) source destination mode

/-- Convert delete keys to pairs of statements. -/
def convertDeletes (source destination : String) (mode : WriteMode) (format : KeyFormat) :
    Files Nat :=
  convert (deleteStatements format) source destination mode

end PowerTest
