import PowerTest.Pipeline.Run
import PowerTest.Proofs.Steps

/-!
# Stages in a row

A run is its preparation followed by its benchmark, and stages in a row are steps in a row once the
failures of each are blamed on it.
-/

namespace PowerTest

open Steps

/-- The stages of a run before its benchmark. -/
def RunMode.preparation : RunMode → List Stage
  | .full => Stage.preparation
  | .metricOnly => []

/-- The number of the refresh set. -/
def Config.set (config : Config) : Nat := config.generator.refreshSet.toNat

theorem Config.validate_eq_ok_iff {config : Config} :
    config.validate = .ok () ↔ config.rejection? = none := by
  rw [Config.validate]
  cases config.rejection? <;> simp

/-- What validation asks of a configuration. -/
structure Config.Acceptable (config : Config) : Prop where
  scaleFactor : config.generator.scaleFactor.isNaN ≠ true ∧ ¬config.generator.scaleFactor ≤ 0.0
  updateFactor : config.generator.updateFactor ≠ 0
  refreshSet : config.generator.refreshSet ≠ 0 ∧
    config.generator.refreshSet ≤ config.generator.updateFactor
  tables : config.generator.tables ≠ []
  programs : config.generator.dbgen ≠ "" ∧ config.generator.qgen ≠ ""
  logFileName : config.client.logFileName ≠ ""
  processTimeout : config.processing.processTimeoutSecs ≠ some 0

theorem ite_some_eq_none_iff {α : Type} {condition : Prop} [Decidable condition] {value : α}
    {rest : Option α} :
    (if condition then some value else rest) = none ↔ ¬condition ∧ rest = none := by
  by_cases holds : condition <;> simp [holds]

/-- A configuration is accepted exactly if it is all that validation asks for. -/
theorem Config.validate_eq_ok_iff_acceptable {config : Config} :
    config.validate = .ok () ↔ config.Acceptable := by
  rw [Config.validate_eq_ok_iff]
  simp only [Config.rejection?, ite_some_eq_none_iff, and_true, Bool.or_eq_true, decide_eq_true_eq,
    not_or, UInt32.not_lt, List.isEmpty_iff, String.isEmpty_iff]
  constructor
  · rintro ⟨scale, update, set, tables, programs, log, timeout⟩
    exact ⟨scale, update, set, tables, programs, log, timeout⟩
  · rintro ⟨scale, update, set, tables, programs, log, timeout⟩
    exact ⟨scale, update, set, tables, programs, log, timeout⟩

theorem Config.set_bounds {config : Config} (valid : config.validate = .ok ()) :
    1 ≤ config.set ∧ config.set ≤ config.generator.updateFactor.toNat := by
  obtain ⟨positive, most⟩ := (Config.validate_eq_ok_iff_acceptable.mp valid).refreshSet
  refine ⟨Nat.one_le_iff_ne_zero.mpr fun zero => positive ?_, most⟩
  exact UInt32.toNat_inj.mp zero

theorem Config.set_small (config : Config) : config.set < 10 ^ 200 :=
  Nat.lt_trans config.generator.refreshSet.toNat_lt (by decide)

variable {Memory : Type}

/-- Steps on files succeed in a run if they do on its store. -/
theorem Run.files_eq_ok_iff {α : Type} {steps : Files α} {machine after : Machine Memory}
    {value : α} :
    Run.files steps machine = .ok value after ↔
      ∃ store, steps machine.store = .ok value store ∧ after = { machine with store } := by
  rw [Run.files]
  cases steps machine.store with
  | error failure store => simp
  | ok value store =>
    constructor
    · intro done
      obtain ⟨rfl, rfl⟩ := EStateM.Result.ok.inj done
      exact ⟨store, rfl, rfl⟩
    · rintro ⟨_, same, rfl⟩
      obtain ⟨rfl, rfl⟩ := EStateM.Result.ok.inj same
      rfl

namespace Pipeline

/-- A run goes through its preparation and then, unless there is no client, its benchmark. -/
theorem plan_eq (config : Config) (mode : RunMode) :
    ∃ rest, config.plan mode = mode.preparation ++ rest ∧
      (rest = Stage.benchmark ∨
        rest = [] ∧ mode = .full ∧ config.client.isConfigured = false) := by
  cases mode with
  | metricOnly => exact ⟨Stage.benchmark, rfl, .inl rfl⟩
  | full =>
    rw [Config.plan]
    split
    · exact ⟨Stage.benchmark, rfl, .inl rfl⟩
    · rename_i none
      exact ⟨[], rfl, .inr ⟨rfl, rfl, Bool.not_eq_true _ ▸ none⟩⟩

/-- One stage, whose failures are blamed on it. -/
def performStage (config : Config) (runner : Runner Memory) (now : Int) (progress : Progress)
    (stage : Stage) : EStateM StageFailure (Machine Memory) Progress := fun machine =>
  match perform config runner now progress stage machine with
  | .ok next after => .ok next after
  | .error cause after => .error ⟨stage, cause⟩ after

theorem performAll_cons (config : Config) (runner : Runner Memory) (now : Int)
    (progress : Progress) (stage : Stage) (rest : List Stage) :
    performAll config runner now progress (stage :: rest) =
      performStage config runner now progress stage >>= fun next =>
        performAll config runner now next rest := by
  funext machine
  simp only [bind_eq, performAll, performStage]
  cases perform config runner now progress stage machine with
  | ok next after => rfl
  | error cause after => rfl

@[simp] theorem performAll_nil (config : Config) (runner : Runner Memory) (now : Int)
    (progress : Progress) :
    performAll config runner now progress [] = pure progress := rfl

/-- Stages behind others start where these ended. -/
theorem performAll_append (config : Config) (runner : Runner Memory) (now : Int)
    (progress : Progress) (first second : List Stage) :
    performAll config runner now progress (first ++ second) =
      performAll config runner now progress first >>= fun next =>
        performAll config runner now next second := by
  induction first generalizing progress with
  | nil => rfl
  | cons stage rest ih =>
    rw [List.cons_append, performAll_cons, performAll_cons, bind_assoc]
    exact congrArg (_ >>= ·) (funext ih)

/-- Stages in a row succeed if each does. -/
theorem performAll_cons_eq_ok_iff {config : Config} {runner : Runner Memory} {now : Int}
    {progress next : Progress} {stage : Stage} {rest : List Stage}
    {machine after : Machine Memory} :
    performAll config runner now progress (stage :: rest) machine = .ok next after ↔
      ∃ value middle, perform config runner now progress stage machine = .ok value middle ∧
        performAll config runner now value rest middle = .ok next after := by
  simp only [performAll]
  cases perform config runner now progress stage machine with
  | error cause middle => simp only [reduceCtorEq, false_and, exists_false]
  | ok value middle =>
    constructor
    · exact fun done => ⟨value, middle, rfl, done⟩
    · rintro ⟨other, between, same, done⟩
      obtain ⟨rfl, rfl⟩ := EStateM.Result.ok.inj same
      exact done

/-- Only the benchmark hands anything on. -/
theorem perform_progress {config : Config} {runner : Runner Memory} {now : Int}
    {progress next : Progress} {stage : Stage} {machine after : Machine Memory}
    (preparing : stage ∉ Stage.benchmark)
    (done : perform config runner now progress stage machine = .ok next after) :
    next = progress := by
  have handedOn {α : Type} {steps : Run Memory α}
      (same : (steps >>= fun _ => pure progress) machine = .ok next after) : next = progress := by
    obtain ⟨_, _, _, last⟩ := bind_eq_ok_iff.mp same
    exact (EStateM.Result.ok.inj last).1.symm
  cases stage with
  | runClient | computeMetric => exact absurd (by decide) preparing
  | prepare | generateBaseData | generateIncrementalData | convertTables | convertIncremental
  | convertDeletes | generateQueries | cleanupTransient | splitRefreshQuery => exact handedOn done

theorem performAll_progress {config : Config} {runner : Runner Memory} {now : Int}
    {progress next : Progress} {stages : List Stage} {machine after : Machine Memory}
    (preparing : ∀ stage ∈ stages, stage ∉ Stage.benchmark)
    (done : performAll config runner now progress stages machine = .ok next after) :
    next = progress := by
  induction stages generalizing progress machine with
  | nil => exact (EStateM.Result.ok.inj done).1.symm
  | cons stage rest ih =>
    obtain ⟨value, middle, first, later⟩ := performAll_cons_eq_ok_iff.mp done
    obtain rfl := perform_progress (preparing stage List.mem_cons_self) first
    exact ih (fun other member => preparing other (List.mem_cons_of_mem _ member)) later

theorem not_mem_benchmark_of_preparation (mode : RunMode) :
    ∀ stage ∈ mode.preparation, stage ∉ Stage.benchmark := by
  cases mode <;> decide

/-- A benchmark that ends well had a client and gives a report. -/
theorem benchmark_progress {config : Config} {runner : Runner Memory} {now : Int}
    {progress next : Progress} {machine after : Machine Memory}
    (done : performAll config runner now progress Stage.benchmark machine = .ok next after) :
    config.client.isConfigured = true ∧ ∃ report, next.report = some report := by
  obtain ⟨value, middle, ran, rest⟩ := performAll_cons_eq_ok_iff.mp done
  obtain ⟨last, final, scored, ended⟩ := performAll_cons_eq_ok_iff.mp rest
  obtain ⟨rfl, rfl⟩ := EStateM.Result.ok.inj ended
  obtain ⟨report, _, _, handed⟩ := bind_eq_ok_iff.mp scored
  obtain ⟨rfl, _⟩ := EStateM.Result.ok.inj handed
  refine ⟨?_, report, rfl⟩
  obtain ⟨path, _, client, _⟩ := bind_eq_ok_iff.mp ran
  unfold runClient at client
  cases command : config.client.command with
  | nil => simp only [command, throw_eq, reduceCtorEq] at client
  | cons program arguments =>
    simp only [ClientConfig.isConfigured, command, List.isEmpty_cons, Bool.not_false]

end Pipeline

end PowerTest
