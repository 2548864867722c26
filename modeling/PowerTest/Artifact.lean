import PowerTest.Fragment
import PowerTest.Query
import PowerTest.Staging
import PowerTest.Table

/-!
# Artifacts

The files and directories that stages hand to each other, and where they stand in the output
directory.
-/

namespace PowerTest

/-- Something that a stage writes into the output directory. -/
inductive Artifact
  | tableData (table : Table)
  | updateData (table : Table) (set : Nat)
  | deleteKeys (set : Nat)
  | loadScript (table : Table)
  /-- The insertions of the refresh set. -/
  | firstRefresh
  /-- The deletions of the refresh set. -/
  | secondRefresh
  | template (number : Nat)
  | query (number : Nat)
  /-- A numbered fragment of the refresh query. -/
  | fragment (number : Nat)
  | runDirectory (milliseconds : Nat)
  deriving DecidableEq, Repr

namespace Artifact

/-- The name of a generated query without its ending. -/
def queryStem (number : Nat) : String := "q" ++ Text.decimal number

/-- The name of the template of a query. -/
def templateName (number : Nat) : String := Text.decimal number ++ ".sql"

/-- The names of the templates of all queries. -/
def templateNames : List String :=
  queryNumbers.map templateName

/-- The name of an artifact. -/
def name : Artifact → String
  | tableData table => table.dataFile
  | updateData table set => table.updateFile set
  | deleteKeys set => "delete." ++ Text.decimal set
  | loadScript table => table.loadFile
  | firstRefresh => "RF1.sql"
  | secondRefresh => "RF2.sql"
  | template number => templateName number
  | query number => queryStem number ++ ".sql"
  | fragment number => fragmentName (queryStem refreshQuery) number
  | runDirectory milliseconds => runDirectoryName milliseconds

/-- Where an artifact stands in an output directory. -/
def path (artifact : Artifact) (directory : String) : String :=
  Path.join directory artifact.name

end Artifact

end PowerTest
