import PowerTest.Proofs.Pipeline.Trace

/-!
# Scoring a log again

After the client has ended, a run only reads. Whoever scores the client's log again, on the store
that the run left, therefore gets what the run got, be it a report or the reason why there is none:
`run_rescored`. The log is the one that the last call of the run captured.
-/

namespace PowerTest

open Steps

variable {Memory : Type}

/-- The call that captured a log: the client's, and the last one before the final store. -/
structure Call.Captured (call : Call) (config : Config) (now : Int) (made : List Call)
    (log : String) (final : Store) : Prop where
  last : made.getLast? = some call
  client : config.clientCommands now = [(.runClient, call.invocation)]
  succeeded : call.answer = .ok 0
  output : call.invocation.standardOutput = some log
  final : call.after = final

namespace Pipeline

/-- Stages fail in one of them. -/
theorem stage_mem_of_performAll_error {config : Config} {runner : Runner Memory} {now : Int}
    {progress : Progress} {stages : List Stage} {machine after : Machine Memory}
    {failure : StageFailure}
    (failed : performAll config runner now progress stages machine = .error failure after) :
    failure.stage ∈ stages := by
  induction stages generalizing progress machine with
  | nil => simp only [performAll_nil, pure_eq, reduceCtorEq] at failed
  | cons stage rest ih =>
    rw [performAll] at failed
    cases performed : perform config runner now progress stage machine with
    | ok next middle =>
      simp only [performed] at failed
      exact List.mem_cons_of_mem _ (ih failed)
    | error cause middle =>
      simp only [performed] at failed
      obtain ⟨rfl, _⟩ := EStateM.Result.error.inj failed
      exact List.mem_cons_self

/-- The benchmark scores the log that the client left in the store that the client left. -/
theorem performAll_benchmark (config : Config) (runner : Runner Memory) (now : Int)
    (progress : Progress) (machine : Machine Memory) :
    performAll config runner now progress Stage.benchmark machine =
      match runClient config runner now machine with
      | .error cause after => .error ⟨.runClient, cause⟩ after
      | .ok log after =>
        match Timing.Report.ofLog after.store log config.generator.scaleFactor with
        | .ok report => .ok ⟨some log, some report⟩ after
        | .error cause => .error ⟨.computeMetric, cause⟩ after := by
  simp only [Stage.benchmark, performAll, perform, bind_eq]
  cases runClient config runner now machine with
  | error cause after => rfl
  | ok log after =>
    simp only [pure_eq, Run.files, computeMetric]
    cases Timing.Report.ofLog after.store log config.generator.scaleFactor with
    | error cause => rfl
    | ok report => rfl

/-- A report names its log and its scale factor. -/
theorem ofLog_fields {store : Store} {log : String} {scaleFactor : Float} {report : Timing.Report}
    (scored : Timing.Report.ofLog store log scaleFactor = .ok report) :
    report.logPath = log ∧ report.scaleFactor = scaleFactor := by
  unfold Timing.Report.ofLog Timing.Report.ofSamples at scored
  split at scored
  · cases scored
  · rename_i samples _
    cases mean : Timing.geometricMean samples with
    | error failure => simp only [mean, Except.map, reduceCtorEq] at scored
    | ok value =>
      simp only [mean, Except.map] at scored
      obtain rfl := Except.ok.inj scored
      exact ⟨rfl, rfl⟩

/-- A client that ends well is one more call, and what is handed on is the path of its output. -/
theorem runClient_captured {config : Config} {runner : Runner Memory} {now : Int} {log : String}
    {machine after : Machine (Memory × List Call)}
    (ran : runClient config (recorded runner) now machine = .ok log after) :
    ∃ call : Call, call.Captured config now after.memory.2 log after.store := by
  unfold runClient at ran
  cases command : config.client.command with
  | nil => simp only [command, throw_eq, reduceCtorEq] at ran
  | cons program arguments =>
    simp only [command] at ran
    obtain ⟨directory, opened, created, ran⟩ := bind_eq_ok_iff.mp ran
    obtain ⟨rfl, _⟩ := files_createRunDirectory created
    obtain ⟨_, left, checked, handed⟩ := bind_eq_ok_iff.mp ran
    obtain ⟨rfl, rfl⟩ := EStateM.Result.ok.inj handed
    let invocation := clientCommand config program arguments
      (Path.join config.output.dir (runDirectoryName now))
    have client : config.clientCommands now = [(.runClient, invocation)] := by
      simp only [Config.clientCommands, command]
      rfl
    obtain ⟨call, next, same, _, _, checking⟩ :=
      Run.checkedCommand_recorded runner invocation opened
    rw [checking] at checked
    cases failed : call.failure? with
    | some cause => simp only [failed, reduceCtorEq] at checked
    | none =>
      simp only [failed] at checked
      obtain ⟨_, rfl⟩ := EStateM.Result.ok.inj checked
      exact ⟨call, List.getLast?_concat, same ▸ client, call.failure?_eq_none_iff.mp failed,
        same ▸ rfl, rfl⟩

/-- A run that gives a report ended with a client whose log scores to it. -/
theorem scored_of_run {config : Config} {runner : Runner Memory} {now : Int} {mode : RunMode}
    {machine after : Machine Memory} {report : Timing.Report}
    (ended : run config runner now mode machine = .ok (some report) after) :
    ∃ ready, runClient config runner now ready = .ok report.logPath after ∧
      Timing.Report.ofLog after.store report.logPath config.generator.scaleFactor = .ok report := by
  obtain ⟨final, left, done, handed⟩ := bind_eq_ok_iff.mp ended
  obtain ⟨reported, rfl⟩ := EStateM.Result.ok.inj handed
  obtain ⟨rest, plan, benchmark⟩ := plan_eq config mode
  rw [plan, performAll_append] at done
  obtain ⟨progress, ready, prepared, last⟩ := bind_eq_ok_iff.mp done
  rcases benchmark with rfl | ⟨rfl, _, _⟩
  · rw [performAll_benchmark] at last
    split at last
    · simp only [reduceCtorEq] at last
    rename_i log middle ran
    split at last
    · rename_i scored found
      obtain ⟨rfl, rfl⟩ := EStateM.Result.ok.inj last
      obtain rfl : scored = report := Option.some.inj reported
      obtain ⟨rfl, _⟩ := ofLog_fields found
      exact ⟨ready, ran, found⟩
    · simp only [reduceCtorEq] at last
  · obtain ⟨rfl, _⟩ := EStateM.Result.ok.inj last
    rw [performAll_progress (not_mem_benchmark_of_preparation mode) prepared] at reported
    simp only [Progress.none, reduceCtorEq] at reported

/-- A run that fails in its last stage ended with a client whose log does not score. -/
theorem unscored_of_run {config : Config} {runner : Runner Memory} {now : Int} {mode : RunMode}
    {machine after : Machine Memory} {cause : Failure}
    (ended : run config runner now mode machine = .error ⟨.computeMetric, cause⟩ after) :
    ∃ ready log, runClient config runner now ready = .ok log after ∧
      Timing.Report.ofLog after.store log config.generator.scaleFactor = .error cause := by
  rw [run, bind_eq] at ended
  cases done : performAll config runner now .none (config.plan mode) machine with
  | ok final left => simp only [done, pure_eq, reduceCtorEq] at ended
  | error failure left =>
    simp only [done] at ended
    obtain ⟨rfl, rfl⟩ := EStateM.Result.error.inj ended
    obtain ⟨rest, plan, benchmark⟩ := plan_eq config mode
    rw [plan, performAll_append, bind_eq] at done
    cases prepared : performAll config runner now .none mode.preparation machine with
    | error early middle =>
      simp only [prepared] at done
      obtain ⟨rfl, _⟩ := EStateM.Result.error.inj done
      have member := stage_mem_of_performAll_error prepared
      exact absurd (List.mem_cons_of_mem _ List.mem_cons_self)
        (not_mem_benchmark_of_preparation mode _ member)
    | ok progress ready =>
      simp only [prepared] at done
      rcases benchmark with rfl | ⟨rfl, _, _⟩
      · rw [performAll_benchmark] at done
        split at done
        · obtain ⟨blamed, _⟩ := EStateM.Result.error.inj done
          simp only [StageFailure.mk.injEq, reduceCtorEq, false_and] at blamed
        rename_i log middle ran
        split at done
        · simp only [reduceCtorEq] at done
        · rename_i failure found
          obtain ⟨blamed, rfl⟩ := EStateM.Result.error.inj done
          obtain ⟨_, rfl⟩ := StageFailure.mk.inj blamed
          exact ⟨ready, log, ran, found⟩
      · simp only [performAll_nil, pure_eq, reduceCtorEq] at done

/-- What scoring the client's log again has to do with a run. -/
structure Rescored (config : Config) (runner : Runner Memory) (now : Int) (mode : RunMode)
    (store : Store) (memory : Memory) : Prop where
  /-- The report of a run names the log that the client's output went to, and is what scoring this
  log gives. -/
  succeeded : ∀ report machine,
    run config runner now mode ⟨store, memory, []⟩ = .ok (some report) machine →
    (∃ call : Call, call.Captured config now (calls config runner now mode store memory)
        report.logPath machine.store) ∧
      Timing.Report.ofLog machine.store report.logPath config.generator.scaleFactor = .ok report
  /-- A run that fails to score fails for the reason that scoring the client's log gives. -/
  failed : ∀ cause machine,
    run config runner now mode ⟨store, memory, []⟩ = .error ⟨.computeMetric, cause⟩ machine →
    ∃ (call : Call) (log : String),
      call.Captured config now (calls config runner now mode store memory) log machine.store ∧
        Timing.Report.ofLog machine.store log config.generator.scaleFactor = .error cause

theorem run_rescored (config : Config) (runner : Runner Memory) (now : Int) (mode : RunMode)
    (store : Store) (memory : Memory) : Rescored config runner now mode store memory := by
  have observed : run config runner now mode ⟨store, memory, []⟩ =
      Machine.forgetResult (recordedRun config runner now mode store memory) :=
    recorded_run config runner now mode ⟨store, (memory, []), []⟩
  have made : calls config runner now mode store memory =
      (endState (recordedRun config runner now mode store memory)).memory.2 := rfl
  constructor
  · intro report machine ended
    cases result : recordedRun config runner now mode store memory with
    | error failure left => simp only [observed, result, Machine.forgetResult, reduceCtorEq] at ended
    | ok given left =>
      rw [observed, result] at ended
      obtain ⟨rfl, rfl⟩ := EStateM.Result.ok.inj ended
      obtain ⟨ready, ran, scored⟩ := scored_of_run result
      rw [made, result]
      exact ⟨runClient_captured ran, scored⟩
  · intro cause machine ended
    cases result : recordedRun config runner now mode store memory with
    | ok given left => simp only [observed, result, Machine.forgetResult, reduceCtorEq] at ended
    | error failure left =>
      rw [observed, result] at ended
      obtain ⟨rfl, rfl⟩ := EStateM.Result.error.inj ended
      obtain ⟨ready, log, ran, scored⟩ := unscored_of_run result
      obtain ⟨call, captured⟩ := runClient_captured ran
      rw [made, result]
      exact ⟨call, log, captured, scored⟩

end Pipeline

end PowerTest
