import PowerTest.Text.Digits

/-!
# Tables

The eight tables of the benchmark and the names of the files that hold their rows.
-/

namespace PowerTest

/-- A base table of the benchmark. -/
inductive Table
  | customer
  | part
  | partsupp
  | region
  | supplier
  | nation
  | orders
  | lineitem
  deriving DecidableEq, Repr

namespace Table

/-- The tables in the order in which their rows are converted. -/
def all : List Table :=
  [customer, part, partsupp, region, supplier, nation, orders, lineitem]

/-- The tables that a refresh set adds rows to, in the order of its insertions. -/
def refreshed : List Table := [orders, lineitem]

/-- The name of a table in file names and configurations. -/
def stem : Table → String
  | customer => "customer"
  | part => "part"
  | partsupp => "partsupp"
  | region => "region"
  | supplier => "supplier"
  | nation => "nation"
  | orders => "orders"
  | lineitem => "lineitem"

/-- The name of a table in statements. -/
def sqlName : Table → String
  | customer => "CUSTOMER"
  | part => "PART"
  | partsupp => "PARTSUPP"
  | region => "REGION"
  | supplier => "SUPPLIER"
  | nation => "NATION"
  | orders => "ORDERS"
  | lineitem => "LINEITEM"

/-- The table with a name. -/
def ofStem? (name : String) : Option Table :=
  all.find? fun table => table.stem == name

/-- The file of generated rows. -/
def dataFile (table : Table) : String := table.stem ++ ".tbl"

/-- The file of the rows that a refresh set adds. -/
def updateFile (table : Table) (set : Nat) : String :=
  table.stem ++ ".tbl.u" ++ Text.decimal set

/-- The script that loads the generated rows. -/
def loadFile (table : Table) : String := table.stem ++ ".sql"

theorem mem_all (table : Table) : table ∈ all := by
  cases table <;> decide

@[simp] theorem ofStem?_stem (table : Table) : ofStem? table.stem = some table := by
  cases table <;> decide

end Table

end PowerTest
