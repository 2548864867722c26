import PowerTest.Failure

/-!
# Fragments

The text of the refresh query holds several statements with blank lines between them, after a
preamble that is no statement. `fragments` cuts it at the blank lines, the leftmost first, and
`splitFragments` writes each fragment to a numbered file.
-/

namespace PowerTest

/-- The pieces of a text between blank lines, given the piece read so far in reverse. -/
def blankLinePieces (current : List Char) : List Char → List (List Char)
  | [] => [current.reverse]
  | '\n' :: '\n' :: rest => current.reverse :: blankLinePieces [] rest
  | character :: rest => blankLinePieces (character :: current) rest

/-- The fragments of a text: its pieces between blank lines, the first left out. -/
def fragments (text : String) : List String :=
  ((blankLinePieces [] text.toList).drop 1).map String.ofList

/-- The name of a numbered fragment. -/
def fragmentName (stem : String) (number : Nat) : String :=
  stem ++ "." ++ Text.decimal number ++ ".sql"

/-- Write fragments to files numbered from `number`, and give the paths written. -/
def writeFragments (directory stem : String) (number : Nat) : List String → Files (List String)
  | [] => pure []
  | fragment :: rest => do
    let path := Path.join directory (fragmentName stem number)
    Files.change (.destinationWrite path) (·.write path (Text.encode fragment))
    let others ← writeFragments directory stem (number + 1) rest
    pure (path :: others)

/-- Write the fragments of a file's text to numbered files in a directory; the file stays. -/
def splitFragments (source directory stem : String) : Files (List String) := do
  let text ← Files.inspect (.ofSource source) (·.readText source)
  writeFragments directory stem 1 (fragments text)

end PowerTest
