import PowerTest.Config.Basic
import PowerTest.Failure

/-!
# Stages

The stages of a run and their order: preparation generates data and queries, the benchmark runs
the client and scores its log.
-/

namespace PowerTest

/-- One stage of a run. -/
inductive Stage
  | prepare
  | generateBaseData
  | generateIncrementalData
  | convertTables
  | convertIncremental
  | convertDeletes
  | generateQueries
  | cleanupTransient
  | splitRefreshQuery
  | runClient
  | computeMetric
  deriving DecidableEq, Repr

namespace Stage

/-- The name of a stage in messages. -/
def name : Stage → String
  | prepare => "Prepare"
  | generateBaseData => "GenerateBaseData"
  | generateIncrementalData => "GenerateIncrementalData"
  | convertTables => "ConvertTablesToSql"
  | convertIncremental => "ConvertIncrementalToSql"
  | convertDeletes => "ConvertDeletesToSql"
  | generateQueries => "GenerateQueries"
  | cleanupTransient => "CleanupTransientInputs"
  | splitRefreshQuery => "SplitRefreshQuery"
  | runClient => "RunBenchmarkClient"
  | computeMetric => "ComputeMetric"

/-- The stages that generate data and queries, in order. -/
def preparation : List Stage :=
  [prepare, generateBaseData, generateIncrementalData, convertTables, convertIncremental,
   convertDeletes, generateQueries, cleanupTransient, splitRefreshQuery]

/-- The stages that run and score the benchmark, in order. -/
def benchmark : List Stage := [runClient, computeMetric]

/-- All stages. -/
def all : List Stage := preparation ++ benchmark

/-- The stage with a name. -/
def ofName? (name : String) : Option Stage :=
  all.find? fun stage => stage.name == name

end Stage

/-- Which part of the stages a run goes through. -/
inductive RunMode
  | full
  | metricOnly
  deriving DecidableEq, Repr

/-- The stages of a run, in order. A full run without a client ends with the preparation. -/
def Config.plan (config : Config) : RunMode → List Stage
  | .full =>
    if config.client.isConfigured then Stage.preparation ++ Stage.benchmark else Stage.preparation
  | .metricOnly => Stage.benchmark

/-- A failure and the stage it happened in. -/
structure StageFailure where
  stage : Stage
  cause : Failure

/-- The wording of a stage's failure. -/
def StageFailure.message (failure : StageFailure) : String :=
  "stage " ++ failure.stage.name ++ " failed: " ++ failure.cause.message

end PowerTest
