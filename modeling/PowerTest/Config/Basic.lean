import PowerTest.Table

/-!
# Configurations

What a run needs to know, in four sections, and the value that each field has when nothing is said
about it.
-/

namespace PowerTest

/-- How data and queries are generated. -/
structure GeneratorConfig where
  /-- The directory with the generator's programs and files. -/
  dir : String := "./tpch-dbgen"
  /-- The program that generates data. -/
  dbgen : String := "./dbgen"
  /-- The program that generates queries. -/
  qgen : String := "./qgen"
  scaleFactor : Float := 1.0
  /-- The number of refresh sets. -/
  updateFactor : UInt32 := 1
  /-- The refresh set whose rows become the refresh scripts. -/
  refreshSet : UInt32 := 1
  /-- The tables whose rows become load scripts. -/
  tables : List Table := Table.all
  /-- The files copied into the output directory. -/
  resources : List String := ["dss.ddl", "dss.ri", "dbgen", "dists.dss", "qgen"]
  /-- The directory of the query templates, seen from the generator's directory. -/
  queryDir : String := "queries"
  /-- The copied files that are removed when all is generated. -/
  transient : List String := ["dbgen", "qgen", "dists.dss"]

/-- Where scripts are written, and how. -/
structure OutputConfig where
  dir : String := "./data"
  /-- Whether delete keys are written between quotes. -/
  quoteDeleteKeys : Bool := false

/-- The benchmark client. -/
structure ClientConfig where
  /-- The program and its arguments; no client if empty. -/
  command : List String := []
  /-- The name of the file that takes the client's output. -/
  logFileName : String := "client_stdout.txt"

/-- How commands are run. -/
structure ProcessingConfig where
  processTimeoutSecs : Option UInt64 := none
  workerThreads : Option UInt64 := none
  /-- Where the power report is saved, if it is. -/
  metricsOutputPath : Option String := none

/-- What a run needs to know. -/
structure Config where
  generator : GeneratorConfig := {}
  output : OutputConfig := {}
  client : ClientConfig := {}
  processing : ProcessingConfig := {}

/-- Whether there is a client to run. -/
def ClientConfig.isConfigured (client : ClientConfig) : Bool := !client.command.isEmpty

namespace Config

/-- The configuration when nothing is said. -/
def standard : Config := {}

end Config

end PowerTest
