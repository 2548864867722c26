import PowerTest.Record
import PowerTest.Table

/-!
# Statements

The statements that load a record and that delete an order. Fields are written as they are, so a
quote in a field is not doubled.
-/

namespace PowerTest

/-- A field between quotes. -/
def quoted (field : String) : String := "'" ++ field ++ "'"

/-- Texts one after another. -/
def concatenation (texts : List String) : String :=
  texts.foldr (· ++ ·) ""

/-- Texts with a comma and a blank between them. -/
def commaSeparated : List String → String
  | [] => ""
  | [text] => text
  | text :: rest => text ++ ", " ++ commaSeparated rest

/-- The statement that inserts a record into a table. -/
def insertStatement (table : Table) (record : Record) : String :=
  "INSERT INTO " ++ table.sqlName ++ " VALUES (" ++ commaSeparated (record.map quoted) ++ ")"

/-- How the keys of a delete record are written. -/
inductive KeyFormat
  | raw
  | quoted
  deriving DecidableEq, Repr

namespace KeyFormat

/-- Keys are written raw unless asked otherwise. -/
def standard : KeyFormat := raw

/-- The keys of a record, one after another. -/
def render (format : KeyFormat) (record : Record) : String :=
  match format with
  | raw => concatenation record
  | quoted => concatenation (record.map PowerTest.quoted)

end KeyFormat

/-- The statement that deletes the lines of an order, and the one that deletes the order. -/
def deleteStatements (format : KeyFormat) (record : Record) : List String :=
  ["DELETE FROM LINEITEM WHERE L_ORDERKEY = " ++ format.render record,
   "DELETE FROM ORDERS WHERE O_ORDERKEY = " ++ format.render record]

end PowerTest
