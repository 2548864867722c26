import PowerTest.Config.Basic
import PowerTest.Number.Layout

/-!
# Validation

What a configuration must fulfil before a run starts, in the order in which it is asked for.
-/

namespace PowerTest

/-- Why a configuration is rejected. -/
inductive Rejection
  | scaleFactor
  | updateFactor
  | refreshSet (available : UInt32)
  | noTables
  | noPrograms
  | noLogFileName
  | processTimeout
  | noClient
  deriving DecidableEq, Repr

/-- The wording of a rejection. -/
def Rejection.message : Rejection → String
  | scaleFactor => "Scale factor must be > 0"
  | updateFactor => "Update factor must be > 0"
  | refreshSet available =>
    "Refresh set must be between 1 and the update factor (" ++ Text.decimal available.toNat ++ ")"
  | noTables => "At least one table must be configured"
  | noPrograms => "Generator programs must not be empty"
  | noLogFileName => "Client log file name must not be empty"
  | processTimeout => "Process timeout must be > 0 when set"
  | noClient => "Metric-only mode requires client.command to be set"

namespace Config

/-- The first reason to reject a configuration. -/
def rejection? (config : Config) : Option Rejection :=
  let generator := config.generator
  if generator.scaleFactor.isNaN || generator.scaleFactor ≤ 0.0 then some .scaleFactor
  else if generator.updateFactor = 0 then some .updateFactor
  else if generator.refreshSet = 0 || generator.updateFactor < generator.refreshSet then
    some (.refreshSet generator.updateFactor)
  else if generator.tables.isEmpty then some .noTables
  else if generator.dbgen.isEmpty || generator.qgen.isEmpty then some .noPrograms
  else if config.client.logFileName.isEmpty then some .noLogFileName
  else if config.processing.processTimeoutSecs = some 0 then some .processTimeout
  else none

/-- The first reason to reject a configuration for a run of the benchmark alone. -/
def metricOnlyRejection? (config : Config) : Option Rejection :=
  match config.rejection? with
  | some rejection => some rejection
  | none => if config.client.isConfigured then none else some .noClient

/-- Accept a configuration for a full run, or say why not. -/
def validate (config : Config) : Except Rejection Unit :=
  match config.rejection? with
  | some rejection => .error rejection
  | none => .ok ()

/-- Accept a configuration for a run of the benchmark alone, or say why not. -/
def validateMetricOnly (config : Config) : Except Rejection Unit :=
  match config.metricOnlyRejection? with
  | some rejection => .error rejection
  | none => .ok ()

end Config

/-- The scale factor as an argument of the data generator. -/
def GeneratorConfig.scaleFactorArgument (generator : GeneratorConfig) : String :=
  Number.plain.render generator.scaleFactor

end PowerTest
