import PowerTest.Proofs.Pipeline.Stages
import PowerTest.Proofs.Pipeline.Views

/-!
# A full run in two runs

`twoRuns` prepares without the client and then, if that ends well, runs the benchmark alone on what
was left. Each of the two starts with no command run and keeps a record of its own; the second
record comes behind the first. Preparation reads neither the client nor the clock and hands nothing
on, so a full run with a client is these two runs: `run_full_eq_twoRuns`.
-/

namespace PowerTest

open Steps Machine

variable {Memory : Type}

/-- The configuration with its client taken away. -/
def Config.withoutClient (config : Config) : Config :=
  { config with client := { config.client with command := [] } }

namespace Machine

/-- A machine whose record of commands comes behind another one. -/
def behind (earlier : List Invocation) (machine : Machine Memory) : Machine Memory :=
  { machine with invocations := earlier ++ machine.invocations }

/-- Whatever was run before is only kept. -/
def recordBehind (runner : Runner Memory) (earlier : List Invocation) : View runner runner where
  see := behind earlier
  files _ _ := rfl
  command invocation machine := by
    simp only [Run.command, behind]
    rcases runner invocation machine.memory machine.store with ⟨answer, next, store⟩
    have associated := List.append_assoc earlier machine.invocations [invocation]
    cases answer with
    | ok code => simp only [associated, seenResult, behind]
    | error failure => simp only [associated, seenResult, behind]

end Machine

/-- Steps with a record of their own, which in the end is put behind the earlier one. -/
def Run.apart {ε α : Type} (steps : EStateM ε (Machine Memory) α) :
    EStateM ε (Machine Memory) α := fun machine =>
  seenResult (behind machine.invocations) (steps { machine with invocations := [] })

namespace Pipeline

/-- Preparation without the client, and then the benchmark alone. -/
def twoRuns (config : Config) (runner : Runner Memory) (earlier now : Int) :
    EStateM StageFailure (Machine Memory) (Option Timing.Report) := do
  match ← Run.apart (run config.withoutClient runner earlier .full) with
  | none => Run.apart (run config runner now .metricOnly)
  | some report => pure (some report)

variable {config : Config} {runner : Runner Memory} {earlier now : Int}

theorem apart_run (config : Config) (runner : Runner Memory) (now : Int) (mode : RunMode) :
    Run.apart (run config runner now mode) = run config runner now mode := by
  funext machine
  have seen := mirrors_run (recordBehind runner machine.invocations) config now mode
    { machine with invocations := [] }
  have same : behind machine.invocations { machine with invocations := [] } = machine := by
    rw [behind, List.append_nil]
  rw [Run.apart]
  exact seen.symm.trans (congrArg (run config runner now mode) same)

theorem generateQueries_withoutClient (numbers : List Nat) :
    generateQueries config.withoutClient runner numbers = generateQueries config runner numbers := by
  induction numbers with
  | nil => rfl
  | cons number rest ih =>
    simp only [generateQueries, ih]
    rfl

theorem perform_withoutClient {progress : Progress} {stage : Stage}
    (preparing : stage ∉ Stage.benchmark) :
    perform config.withoutClient runner earlier progress stage =
      perform config runner now progress stage := by
  cases stage with
  | runClient | computeMetric => exact absurd (by decide) preparing
  | generateQueries => simp only [perform, generateQueries_withoutClient]
  | prepare | generateBaseData | generateIncrementalData | convertTables | convertIncremental
  | convertDeletes | cleanupTransient | splitRefreshQuery => rfl

theorem performAll_withoutClient {progress : Progress} {stages : List Stage}
    (preparing : ∀ stage ∈ stages, stage ∉ Stage.benchmark) :
    performAll config.withoutClient runner earlier progress stages =
      performAll config runner now progress stages := by
  induction stages generalizing progress with
  | nil => rfl
  | cons stage rest ih =>
    rw [List.forall_mem_cons] at preparing
    have first : performStage config.withoutClient runner earlier progress stage =
        performStage config runner now progress stage := by
      funext machine
      rw [performStage, performStage, perform_withoutClient preparing.1]
    rw [performAll_cons, performAll_cons, first]
    exact congrArg (_ >>= ·) (funext fun _ => ih preparing.2)

/-- Without a client a full run is the preparation and gives no report. -/
theorem run_withoutClient (now : Int) (machine : Machine Memory) :
    run config.withoutClient runner earlier .full machine =
      match performAll config runner now .none Stage.preparation machine with
      | .ok _ after => .ok none after
      | .error failure after => .error failure after := by
  have prepared : performAll config.withoutClient runner earlier .none Stage.preparation =
      performAll config runner now .none Stage.preparation :=
    performAll_withoutClient (not_mem_benchmark_of_preparation .full)
  have plan : config.withoutClient.plan .full = Stage.preparation := rfl
  rw [run, plan, prepared, bind_eq]
  cases done : performAll config runner now .none Stage.preparation machine with
  | error failure after => rfl
  | ok progress after =>
    have nothing := performAll_progress (not_mem_benchmark_of_preparation .full) done
    rw [nothing]
    rfl

theorem run_full_of_client (client : config.client.isConfigured = true) (machine : Machine Memory) :
    run config runner now .full machine =
      match performAll config runner now .none Stage.preparation machine with
      | .ok _ after => run config runner now .metricOnly after
      | .error failure after => .error failure after := by
  have plan : config.plan .full = Stage.preparation ++ Stage.benchmark := if_pos client
  rw [run, plan, performAll_append, bind_eq, bind_eq]
  cases done : performAll config runner now .none Stage.preparation machine with
  | error failure after => rfl
  | ok progress after =>
    have nothing := performAll_progress (not_mem_benchmark_of_preparation .full) done
    rw [nothing]
    rfl

/-- A full run with a client does what two runs do, and the first of them gives no report. -/
theorem run_full_eq_twoRuns (client : config.client.isConfigured = true) (runner : Runner Memory)
    (earlier now : Int) :
    run config runner now .full = twoRuns config runner earlier now ∧
      ∀ machine report after,
        run config.withoutClient runner earlier .full machine = .ok report after →
          report = none := by
  constructor
  · funext machine
    rw [twoRuns, apart_run, apart_run, bind_eq, run_full_of_client client, run_withoutClient now]
    cases performAll config runner now .none Stage.preparation machine with
    | ok progress after => rfl
    | error failure after => rfl
  · intro machine report after ended
    rw [run_withoutClient now] at ended
    cases prepared : performAll config runner now .none Stage.preparation machine with
    | error failure last =>
      rw [prepared] at ended
      cases ended
    | ok progress last =>
      rw [prepared] at ended
      exact (EStateM.Result.ok.inj ended).1.symm

/-- The standard configuration with a client. -/
def standardClient : Config := { client := { command := ["java", "Client"] } }

/-- A runner that counts the commands, of which the third and every later one fails. -/
def twoSucceed : Runner Nat := fun _ count store => (.ok (if count < 2 then 0 else 1), count + 1, store)

theorem run_full_eq_twoRuns_standardClient :
    standardClient.client.isConfigured = true ∧
      run standardClient twoSucceed 1000 .full = twoRuns standardClient twoSucceed 7 1000 ∧
      ∀ machine report after,
        run standardClient.withoutClient twoSucceed 7 .full machine = .ok report after →
          report = none :=
  ⟨rfl, run_full_eq_twoRuns rfl twoSucceed 7 1000⟩

end Pipeline

end PowerTest
