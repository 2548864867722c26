import PowerTest.Artifact
import PowerTest.Config.Validation
import PowerTest.Conversion
import PowerTest.Pipeline.Stage
import PowerTest.Process.Invocation
import PowerTest.Timing.Report

/-!
# Runs

What each stage does, and the run of a plan's stages one after another. The first failure ends a
run; nothing is taken back. Preparation does not look at the client's configuration, and the only
thing that the benchmark's stages hand on is the path of the client's log.
-/

namespace PowerTest

/-- What the benchmark's stages hand on. -/
structure Progress where
  logPath : Option String
  report : Option Timing.Report

/-- Nothing handed on yet. -/
def Progress.none : Progress := ⟨.none, .none⟩

namespace Pipeline

variable {Memory : Type}

/-- Make the output directory and copy the generator's files and the query templates into it. -/
def prepare (config : Config) : Files Unit := do
  let generator := config.generator
  ensureDirectory config.output.dir
  Files.inspect (fun _ => .sourceNotFound generator.dir) fun store =>
    if store.isDirectory generator.dir then .ok () else .error .notFound
  copyFiles generator.dir config.output.dir generator.resources
  copyFiles (Path.join generator.dir generator.queryDir) config.output.dir Artifact.templateNames

/-- The command that generates the base tables. -/
def baseDataCommand (config : Config) : Invocation where
  program := config.generator.dbgen
  arguments := ["-v", "-s", config.generator.scaleFactorArgument]
  workingDirectory := config.output.dir
  standardOutput := none

/-- The command that generates the refresh sets. -/
def incrementalDataCommand (config : Config) : Invocation where
  program := config.generator.dbgen
  arguments := ["-v", "-s", config.generator.scaleFactorArgument, "-U",
    Text.decimal config.generator.updateFactor.toNat]
  workingDirectory := config.output.dir
  standardOutput := none

/-- The command that generates a query. -/
def queryCommand (config : Config) (number : Nat) : Invocation where
  program := config.generator.qgen
  arguments := [Text.decimal number]
  workingDirectory := config.output.dir
  standardOutput := some ((Artifact.query number).path config.output.dir)

/-- The command that runs the client in a run directory. -/
def clientCommand (config : Config) (program : String) (arguments : List String)
    (runDirectory : String) : Invocation where
  program := program
  arguments := arguments
  workingDirectory := runDirectory
  standardOutput := some (Path.join runDirectory config.client.logFileName)

/-- Convert the rows of tables to load scripts, one table after another. -/
def convertTables (directory : String) : List Table → Files Unit
  | [] => pure ()
  | table :: rest => do
    let _ ← convertRecords table ((Artifact.tableData table).path directory)
      ((Artifact.loadScript table).path directory) .overwrite
    convertTables directory rest

/-- Convert the added rows of a refresh set to one script, the orders before their lines. -/
def convertIncremental (directory : String) (set : Nat) : Files Unit := do
  let script := Artifact.firstRefresh.path directory
  let _ ← convertRecords .orders ((Artifact.updateData .orders set).path directory) script .overwrite
  let _ ← convertRecords .lineitem ((Artifact.updateData .lineitem set).path directory) script .append

/-- How a configuration wants delete keys written. -/
def keyFormat (config : Config) : KeyFormat :=
  if config.output.quoteDeleteKeys then .quoted else .raw

/-- Convert the delete keys of a refresh set to a script. -/
def convertDeleteKeys (config : Config) : Files Unit := do
  let directory := config.output.dir
  let _ ← convertDeletes ((Artifact.deleteKeys config.generator.refreshSet.toNat).path directory)
    (Artifact.secondRefresh.path directory) .overwrite (keyFormat config)

/-- Generate queries one after another, and remove each one's template after it. -/
def generateQueries (config : Config) (runner : Runner Memory) : List Nat → Run Memory Unit
  | [] => pure ()
  | number :: rest => do
    Run.checkedCommand runner (queryCommand config number)
    Run.files (removeFiles config.output.dir [Artifact.templateName number])
    generateQueries config runner rest

/-- Replace the refresh query by its fragments. -/
def splitRefreshQuery (directory : String) : Files Unit := do
  let source := (Artifact.query refreshQuery).path directory
  let _ ← splitFragments source directory (Artifact.queryStem refreshQuery)
  Files.change (.inputOutput source) (·.remove source)

/-- Run the client in a fresh directory, and give the path of its log. -/
def runClient (config : Config) (runner : Runner Memory) (now : Int) : Run Memory String :=
  match config.client.command with
  | [] => throw .missingClient
  | program :: arguments => do
    let runDirectory ← Run.files (createRunDirectory now config.output.dir)
    Run.checkedCommand runner (clientCommand config program arguments runDirectory)
    pure (Path.join runDirectory config.client.logFileName)

/-- Score the client's log. -/
def computeMetric (config : Config) (progress : Progress) : Files Timing.Report :=
  match progress.logPath with
  | none => throw .missingClient
  | some path => fun store =>
    match Timing.Report.ofLog store path config.generator.scaleFactor with
    | .ok report => .ok report store
    | .error failure => .error failure store

/-- Carry out one stage. -/
def perform (config : Config) (runner : Runner Memory) (now : Int) (progress : Progress) :
    Stage → Run Memory Progress
  | .prepare => do Run.files (prepare config); pure progress
  | .generateBaseData => do
    Run.checkedCommand runner (baseDataCommand config); pure progress
  | .generateIncrementalData => do
    Run.checkedCommand runner (incrementalDataCommand config); pure progress
  | .convertTables => do
    Run.files (convertTables config.output.dir config.generator.tables); pure progress
  | .convertIncremental => do
    Run.files (convertIncremental config.output.dir config.generator.refreshSet.toNat)
    pure progress
  | .convertDeletes => do Run.files (convertDeleteKeys config); pure progress
  | .generateQueries => do generateQueries config runner queryNumbers; pure progress
  | .cleanupTransient => do
    Run.files (removeFiles config.output.dir config.generator.transient); pure progress
  | .splitRefreshQuery => do Run.files (splitRefreshQuery config.output.dir); pure progress
  | .runClient => do
    let path ← runClient config runner now
    pure { progress with logPath := some path }
  | .computeMetric => do
    let report ← Run.files (computeMetric config progress)
    pure { progress with report := some report }

/-- Carry out stages one after another up to the first failure. -/
def performAll (config : Config) (runner : Runner Memory) (now : Int) (progress : Progress) :
    List Stage → EStateM StageFailure (Machine Memory) Progress
  | [] => pure progress
  | stage :: rest => fun machine =>
    match perform config runner now progress stage machine with
    | .ok next after => performAll config runner now next rest after
    | .error cause after => .error ⟨stage, cause⟩ after

/-- Carry out the stages of a mode, and give the report if the benchmark was scored. -/
def run (config : Config) (runner : Runner Memory) (now : Int) (mode : RunMode) :
    EStateM StageFailure (Machine Memory) (Option Timing.Report) := do
  let progress ← performAll config runner now .none (config.plan mode)
  pure progress.report

end Pipeline

end PowerTest
