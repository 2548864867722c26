import PowerTest.Pipeline.Run
import PowerTest.Process.Started

/-!
# Launching runs

A run from its configuration to its saved report: nothing happens before the configuration is
accepted, and the report is saved when there is one and a place for it.
-/

namespace PowerTest

/-- Why a run ends without a result. -/
inductive RunFailure
  | rejected (rejection : Rejection)
  | stage (failure : StageFailure)
  /-- The report could not be saved. -/
  | notSaved (fault : Fault)

/-- The wording of the end of a run. -/
def RunFailure.message : RunFailure → String
  | rejected rejection => rejection.message
  | stage failure => failure.message
  | notSaved fault => fault.message

namespace Pipeline

/-- The reason to reject a configuration for a mode. -/
def rejection? (config : Config) : RunMode → Option Rejection
  | .full => config.rejection?
  | .metricOnly => config.metricOnlyRejection?

/-- The nanoseconds that a command may take. -/
def timeout (config : Config) : Option Nat :=
  config.processing.processTimeoutSecs.map fun seconds => seconds.toNat * 10 ^ 9

/-- Save a report where the configuration wants it. -/
def saveReport (config : Config) (report : Timing.Report) (store : Store) : Except Fault Store :=
  match config.processing.metricsOutputPath with
  | some path => report.save store path
  | none => .ok store

/-- Carry out a run on a store. -/
def launch (config : Config) (now : Int) (mode : RunMode) (store : Store) :
    Except RunFailure (Option Timing.Report) × Store :=
  match rejection? config mode with
  | some rejection => (.error (.rejected rejection), store)
  | none =>
    match run config (started (timeout config)) now mode ⟨store, (), []⟩ with
    | .error failure machine => (.error (.stage failure), machine.store)
    | .ok none machine => (.ok none, machine.store)
    | .ok (some report) machine =>
      match saveReport config report machine.store with
      | .ok after => (.ok (some report), after)
      | .error fault => (.error (.notSaved fault), machine.store)

end Pipeline

end PowerTest
