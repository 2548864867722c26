import PowerTest.Proofs.Pipeline.Calls
import PowerTest.Proofs.Pipeline.Stages
import PowerTest.Proofs.Store.Operations

/-!
# The commands of a run

`Config.commands` lists the commands of a run in order, each with the stage that runs it.
`run_failsFast` says that a run goes through this list and stops at the first command that fails.
Stages are followed one by one: `Issues` says of steps which commands they run before they succeed,
and its rules follow the shape of the steps.
-/

namespace PowerTest

open Steps

/-- The commands that generate data and queries. -/
def Config.preparationCommands (config : Config) : List (Stage × Invocation) :=
  let generator := config.generator
  let directory := config.output.dir
  let scale := generator.scaleFactorArgument
  let updates := Text.decimal generator.updateFactor.toNat
  [(.generateBaseData, ⟨generator.dbgen, ["-v", "-s", scale], directory, none⟩),
   (.generateIncrementalData,
    ⟨generator.dbgen, ["-v", "-s", scale, "-U", updates], directory, none⟩)] ++
  queryNumbers.map fun number =>
    (.generateQueries, ⟨generator.qgen, [Text.decimal number], directory,
      some (Path.join directory ("q" ++ Text.decimal number ++ ".sql"))⟩)

/-- The commands that generate data. -/
def Config.dataCommands (config : Config) : List Invocation :=
  [Pipeline.baseDataCommand config, Pipeline.incrementalDataCommand config]

/-- The directory of a run that starts now. -/
def Config.runDirectory (config : Config) (now : Int) : String :=
  Path.join config.output.dir (Text.decimal now.toNat)

/-- The command that runs the client, if there is one. -/
def Config.clientCommands (config : Config) (now : Int) : List (Stage × Invocation) :=
  match config.client.command with
  | [] => []
  | program :: arguments =>
    [(.runClient, ⟨program, arguments, config.runDirectory now,
      some (Path.join (config.runDirectory now) config.client.logFileName)⟩)]

/-- The commands of a run, in order. -/
def Config.commands (config : Config) (now : Int) : RunMode → List (Stage × Invocation)
  | .full => config.preparationCommands ++ config.clientCommands now
  | .metricOnly => config.clientCommands now

variable {Memory : Type}

/-! ## The commands that steps run -/

section Issues

variable {Label ε σ α β : Type} {blame : Label → Failure → ε}

/-- What the calls of steps have to do with their result, if the steps are to run the expected
commands: all of them were made if the steps succeed, and otherwise the first few of them, of which
the last may be the one that failed. A failed command is blamed on its label. -/
inductive Made (blame : Label → Failure → ε) (expected : List (Label × Invocation)) :
    List Call → EStateM.Result ε σ α → Prop
  | complete {made : List Call} {value : α} {state : σ} (done : ∀ call ∈ made, call.failure? = none)
    (whole : made.map Call.invocation = expected.map Prod.snd) :
    Made blame expected made (.ok value state)
  | partway {made : List Call} {failure : ε} {state : σ}
    (done : ∀ call ∈ made, call.failure? = none) (start : made.map Call.invocation <+: expected.map Prod.snd) :
    Made blame expected made (.error failure state)
  | blamed {made : List Call} {call : Call} {label : Label} {cause : Failure} {state : σ}
    (done : ∀ call ∈ made, call.failure? = none) (failed : call.failure? = some cause)
    (start : (made ++ [call]).map Call.invocation <+: expected.map Prod.snd)
    (place : expected[made.length]? = some (label, call.invocation)) :
    Made blame expected (made ++ [call]) (.error (blame label cause) state)

namespace Made

theorem ordered {commands : List (Label × Invocation)} {made : List Call}
    {result : EStateM.Result ε σ α}
    (outcome : Made blame commands made result) :
    made.map Call.invocation <+: commands.map Prod.snd := by
  cases outcome with
  | complete done whole => exact whole ▸ List.prefix_rfl
  | partway done start => exact start
  | blamed done failed start place => exact start

theorem succeeded {commands : List (Label × Invocation)} {made : List Call}
    {result : EStateM.Result ε σ α}
    (outcome : Made blame commands made result) :
    ∀ call ∈ made.dropLast, call.failure? = none := by
  cases outcome with
  | complete done whole => exact fun call member => done call (List.dropLast_subset _ member)
  | partway done start => exact fun call member => done call (List.dropLast_subset _ member)
  | blamed done failed start place =>
    rw [List.dropLast_concat]
    exact done

theorem stopped {commands : List (Label × Invocation)} {made : List Call}
    {result : EStateM.Result ε σ α}
    (outcome : Made blame commands made result) {position : Nat} {call : Call}
    {cause : Failure} (found : made[position]? = some call) (failed : call.failure? = some cause) :
    position + 1 = made.length ∧ ∃ label state,
      commands[position]? = some (label, call.invocation) ∧
        result = .error (blame label cause) state := by
  have early {earlier : List Call} (done : ∀ call ∈ earlier, call.failure? = none) :
      call ∉ earlier := fun member => by simp [done call member] at failed
  cases outcome with
  | complete done whole => exact absurd (List.mem_of_getElem? found) (early done)
  | partway done start => exact absurd (List.mem_of_getElem? found) (early done)
  | @blamed earlier final label last state done failedLast start place =>
    rcases Nat.lt_trichotomy position earlier.length with before | rfl | behind
    · rw [List.getElem?_append_left before] at found
      exact absurd (List.mem_of_getElem? found) (early done)
    · rw [List.getElem?_concat_length] at found
      obtain rfl := Option.some.inj found
      obtain rfl := Option.some.inj (failedLast.symm.trans failed)
      exact ⟨by rw [List.length_append, List.length_singleton], label, state, place, rfl⟩
    · obtain ⟨inside, _⟩ := List.getElem?_eq_some_iff.mp found
      rw [List.length_append, List.length_singleton] at inside
      omega

end Made

/-- The calls of a runner that were added between two machines. -/
structure Added (runner : Runner Memory) (before after : Machine (Memory × List Call))
    (made : List Call) : Prop where
  calls : after.memory.2 = before.memory.2 ++ made
  invocations : after.invocations = before.invocations ++ made.map Call.invocation
  obeys : ∀ call ∈ made, call.Obeys runner

variable {runner : Runner Memory} {before middle after : Machine (Memory × List Call)}
  {made more : List Call}

theorem Added.nothing (calls : after.memory.2 = before.memory.2)
    (invocations : after.invocations = before.invocations) : Added runner before after [] :=
  ⟨by rw [calls, List.append_nil], by rw [invocations, List.map_nil, List.append_nil],
    List.forall_mem_nil _⟩

theorem Added.trans (first : Added runner before middle made)
    (second : Added runner middle after more) : Added runner before after (made ++ more) :=
  ⟨by rw [second.calls, first.calls, List.append_assoc],
   by rw [second.invocations, first.invocations, List.map_append, List.append_assoc],
   List.forall_mem_append.mpr ⟨first.obeys, second.obeys⟩⟩

theorem Added.unique (first : Added runner before after made)
    (calls : after.memory.2 = before.memory.2 ++ more) : made = more :=
  List.append_cancel_left (first.calls.symm.trans calls)

/-- Steps that run the expected commands, in order and up to the first that fails. -/
def Issues (runner : Runner Memory) (blame : Label → Failure → ε)
    (expected : List (Label × Invocation))
    (steps : EStateM ε (Machine (Memory × List Call)) α) : Prop :=
  ∀ machine, ∃ made,
    Added runner machine (endState (steps machine)) made ∧ Made blame expected made (steps machine)

namespace Issues

theorem pure (value : α) :
    Issues runner blame [] (Pure.pure value : EStateM ε (Machine (Memory × List Call)) α) :=
  fun _ => ⟨[], .nothing rfl rfl, .complete (List.forall_mem_nil _) rfl⟩

theorem throw (failure : ε) :
    Issues runner blame []
      (MonadExcept.throw failure : EStateM ε (Machine (Memory × List Call)) α) :=
  fun _ => ⟨[], .nothing rfl rfl, .partway (List.forall_mem_nil _) List.nil_prefix⟩

/-- Steps in a row run the commands of the first and then those of the second. What is known of the
value handed on may be used for the second. -/
theorem bind {steps : EStateM ε (Machine (Memory × List Call)) α}
    {next : α → EStateM ε (Machine (Memory × List Call)) β}
    {first second : List (Label × Invocation)} (before : Issues runner blame first steps)
    (after : ∀ machine value middle, steps machine = .ok value middle →
      Issues runner blame second (next value)) :
    Issues runner blame (first ++ second) (steps >>= next) := by
  intro machine
  obtain ⟨made, added, outcome⟩ := before machine
  cases found : steps machine with
  | error failure middle =>
    rw [found] at added outcome
    rw [bind_eq_of_error found]
    have longer : first.map Prod.snd <+: (first ++ second).map Prod.snd := by
      rw [List.map_append]
      exact List.prefix_append _ _
    refine ⟨made, added, ?_⟩
    cases outcome with
    | partway done start => exact .partway done (start.trans longer)
    | blamed done failed start place =>
      refine .blamed done failed (start.trans longer) ?_
      obtain ⟨inside, _⟩ := List.getElem?_eq_some_iff.mp place
      rw [List.getElem?_append_left inside]
      exact place
  | ok value middle =>
    rw [found] at added outcome
    rw [bind_eq_of_ok found]
    obtain ⟨more, addedMore, outcomeMore⟩ := after machine value middle found middle
    refine ⟨made ++ more, added.trans addedMore, ?_⟩
    generalize next value middle = result at outcomeMore ⊢
    cases outcome with
    | complete done whole =>
      have shifted {others : List Call}
          (start : others.map Call.invocation <+: second.map Prod.snd) :
          (made ++ others).map Call.invocation <+: (first ++ second).map Prod.snd := by
        rw [List.map_append, List.map_append, whole]
        exact (List.prefix_append_right_inj _).mpr start
      cases outcomeMore with
      | complete rest wholeRest =>
        refine .complete (List.forall_mem_append.mpr ⟨done, rest⟩) ?_
        rw [List.map_append, List.map_append, whole, wholeRest]
      | partway rest start =>
        exact .partway (List.forall_mem_append.mpr ⟨done, rest⟩) (shifted start)
      | @blamed others call _ _ _ rest failed start place =>
        have count : made.length = first.length := by
          simpa only [List.length_map] using congrArg List.length whole
        rw [← List.append_assoc]
        refine .blamed (List.forall_mem_append.mpr ⟨done, rest⟩) failed ?_ ?_
        · rw [List.append_assoc]
          exact shifted start
        · rw [List.length_append, count, List.getElem?_append_right (Nat.le_add_right _ _),
            Nat.add_sub_cancel_left]
          exact place

end Issues

end Issues

namespace Issues

/-- Steps of one stage, whose failures are not yet blamed on it. -/
def unblamed : Stage → Failure → Failure := fun _ cause => cause

theorem files {α : Type} {runner : Runner Memory} (steps : Files α) :
    Issues runner unblamed [] (Run.files steps : Run (Memory × List Call) α) := by
  intro machine
  refine ⟨[], ?_⟩
  simp only [Run.files]
  cases steps machine.store with
  | ok value store => exact ⟨.nothing rfl rfl, .complete (List.forall_mem_nil _) rfl⟩
  | error failure store =>
    exact ⟨.nothing rfl rfl, .partway (List.forall_mem_nil _) List.nil_prefix⟩

theorem checkedCommand (runner : Runner Memory) (stage : Stage) (invocation : Invocation) :
    Issues runner unblamed [(stage, invocation)]
      (Run.checkedCommand (recorded runner) invocation) := by
  intro machine
  obtain ⟨call, next, rfl, _, obeys, ran⟩ :=
    Run.checkedCommand_recorded runner invocation machine
  rw [ran]
  have obeyed : ∀ made ∈ [call], made.Obeys runner := List.forall_mem_singleton.mpr obeys
  refine ⟨[call], ?_⟩
  cases failed : call.failure? with
  | none =>
    exact ⟨⟨rfl, rfl, obeyed⟩, .complete (List.forall_mem_singleton.mpr failed) rfl⟩
  | some cause =>
    exact ⟨⟨rfl, rfl, obeyed⟩, @Made.blamed Stage _ _ _ unblamed _ [] call stage cause _
      (List.forall_mem_nil _) failed List.prefix_rfl rfl⟩

end Issues

/-! ## The commands of stages -/

namespace Pipeline

/-- The commands that a stage runs, each with the stage. -/
def stageCommands (config : Config) (now : Int) : Stage → List (Stage × Invocation)
  | .generateBaseData => [(.generateBaseData, baseDataCommand config)]
  | .generateIncrementalData => [(.generateIncrementalData, incrementalDataCommand config)]
  | .generateQueries =>
    queryNumbers.map fun number => (.generateQueries, queryCommand config number)
  | .runClient => config.clientCommands now
  | _ => []

theorem flatMap_preparation (config : Config) (now : Int) :
    Stage.preparation.flatMap (stageCommands config now) = config.preparationCommands := by
  rfl

theorem flatMap_benchmark (config : Config) (now : Int) :
    Stage.benchmark.flatMap (stageCommands config now) = config.clientCommands now := by
  change config.clientCommands now ++ [] = _
  exact List.append_nil _

theorem clientCommands_of_not_configured {config : Config} (now : Int)
    (none : config.client.isConfigured = false) : config.clientCommands now = [] := by
  have empty : config.client.command = [] := by
    simpa only [ClientConfig.isConfigured, Bool.not_eq_false', List.isEmpty_iff] using none
  simp only [Config.clientCommands, empty]

/-- The commands of a run's stages are those of the run. -/
theorem flatMap_plan (config : Config) (now : Int) (mode : RunMode) :
    (config.plan mode).flatMap (stageCommands config now) = config.commands now mode := by
  obtain ⟨rest, plan, rfl | ⟨rfl, rfl, none⟩⟩ := plan_eq config mode
  · rw [plan, List.flatMap_append, flatMap_benchmark]
    cases mode with
    | metricOnly => rfl
    | full => exact congrArg (· ++ _) (flatMap_preparation config now)
  · rw [plan, List.append_nil, Config.commands, clientCommands_of_not_configured now none,
      List.append_nil]
    exact flatMap_preparation config now

theorem issues_generateQueries (config : Config) (runner : Runner Memory) (numbers : List Nat) :
    Issues runner Issues.unblamed
      (numbers.map fun number => (Stage.generateQueries, queryCommand config number))
      (generateQueries config (recorded runner) numbers) := by
  induction numbers with
  | nil => exact .pure ()
  | cons number rest ih =>
    have afterCommand := (Issues.files (removeFiles config.output.dir
      [Artifact.templateName number])).bind fun _ _ _ _ => ih
    exact (Issues.checkedCommand runner .generateQueries (queryCommand config number)).bind
      fun _ _ _ _ => afterCommand

theorem createRunDirectory_value {now : Int} {parent directory : String} {store after : Store}
    (created : createRunDirectory now parent store = .ok directory after) :
    directory = Path.join parent (runDirectoryName now) ∧
      store.makeDirectory directory = .ok after := by
  obtain ⟨_, next, made, handed⟩ := bind_eq_ok_iff.mp created
  obtain ⟨rfl, rfl⟩ := EStateM.Result.ok.inj handed
  exact ⟨rfl, Files.change_eq_ok_iff.mp made⟩

/-- If the directory of a run is made, then in the store at hand. -/
theorem files_createRunDirectory {now : Int} {parent directory : String}
    {machine middle : Machine Memory}
    (created : Run.files (createRunDirectory now parent) machine = .ok directory middle) :
    directory = Path.join parent (runDirectoryName now) ∧
      ∃ after, machine.store.makeDirectory directory = .ok after ∧
        middle = { machine with store := after } := by
  obtain ⟨store, found, same⟩ := Run.files_eq_ok_iff.mp created
  obtain ⟨path, made⟩ := createRunDirectory_value found
  exact ⟨path, store, made, same⟩

theorem issues_runClient (config : Config) (runner : Runner Memory) (now : Int) :
    Issues runner Issues.unblamed (config.clientCommands now)
      (runClient config (recorded runner) now) := by
  unfold runClient Config.clientCommands
  cases config.client.command with
  | nil => exact .throw _
  | cons program arguments =>
    refine (Issues.files _).bind ?_
    intro machine directory middle created
    obtain ⟨rfl, _⟩ := files_createRunDirectory created
    exact (Issues.checkedCommand runner .runClient _).bind fun _ _ _ _ => .pure _

/-- Each stage runs its commands. -/
theorem issues_perform (config : Config) (runner : Runner Memory) (now : Int) (progress : Progress)
    (stage : Stage) :
    Issues runner Issues.unblamed (stageCommands config now stage)
      (perform config (recorded runner) now progress stage) := by
  have keep {commands : List (Stage × Invocation)} {α : Type}
      {steps : Run (Memory × List Call) α}
      (issues : Issues runner Issues.unblamed commands steps) (next : α → Progress) :
      Issues runner Issues.unblamed commands (steps >>= fun value => pure (next value)) := by
    have whole := issues.bind fun _ value _ _ => Issues.pure (next value)
    rwa [List.append_nil] at whole
  cases stage with
  | generateBaseData => exact keep (.checkedCommand runner .generateBaseData _) _
  | generateIncrementalData => exact keep (.checkedCommand runner .generateIncrementalData _) _
  | generateQueries => exact keep (issues_generateQueries config runner _) _
  | runClient => exact keep (issues_runClient config runner now) _
  | prepare | convertTables | convertIncremental | convertDeletes | cleanupTransient
  | splitRefreshQuery | computeMetric => exact keep (.files _) _

/-- The commands of a stage are its own. -/
theorem stage_of_mem_stageCommands {config : Config} {now : Int} {stage : Stage}
    {command : Stage × Invocation} (member : command ∈ stageCommands config now stage) :
    command.1 = stage := by
  cases stage with
  | generateBaseData | generateIncrementalData =>
    rw [List.mem_singleton.mp member]
  | generateQueries =>
    obtain ⟨number, _, rfl⟩ := List.mem_map.mp member
    rfl
  | runClient =>
    simp only [stageCommands, Config.clientCommands] at member
    split at member
    · exact absurd member List.not_mem_nil
    · rw [List.mem_singleton.mp member]
  | prepare | convertTables | convertIncremental | convertDeletes | cleanupTransient
  | splitRefreshQuery | computeMetric => exact absurd member List.not_mem_nil

theorem issues_performStage (config : Config) (runner : Runner Memory) (now : Int)
    (progress : Progress) (stage : Stage) :
    Issues runner StageFailure.mk (stageCommands config now stage)
      (performStage config (recorded runner) now progress stage) := by
  intro machine
  obtain ⟨made, added, outcome⟩ := issues_perform config runner now progress stage machine
  refine ⟨made, ?_⟩
  rw [performStage]
  generalize perform config (recorded runner) now progress stage machine = result at added outcome
  cases outcome with
  | complete done whole => exact ⟨added, .complete done whole⟩
  | partway done start => exact ⟨added, .partway done start⟩
  | @blamed made call label cause _ done failed start place =>
    obtain rfl : label = stage := stage_of_mem_stageCommands (List.mem_of_getElem? place)
    exact ⟨added, .blamed done failed start place⟩

/-- Stages in a row run their commands in a row. -/
theorem issues_performAll (config : Config) (runner : Runner Memory) (now : Int)
    (progress : Progress) (stages : List Stage) :
    Issues runner StageFailure.mk (stages.flatMap (stageCommands config now))
      (performAll config (recorded runner) now progress stages) := by
  induction stages generalizing progress with
  | nil => exact .pure progress
  | cons stage rest ih =>
    rw [performAll_cons, List.flatMap_cons]
    exact (issues_performStage config runner now progress stage).bind fun _ next _ _ => ih next

/-! ## The client's directory -/

/-- The client is called at most once, in a directory that was made right before. -/
theorem runClient_calls (config : Config) (runner : Runner Memory) (now : Int)
    (machine : Machine (Memory × List Call)) :
    ∃ made,
      (endState (runClient config (recorded runner) now machine)).memory.2 =
          machine.memory.2 ++ made ∧
        ∀ call ∈ made,
          machine.store.makeDirectory call.invocation.workingDirectory = .ok call.before := by
  unfold runClient
  cases config.client.command with
  | nil => exact ⟨[], (List.append_nil _).symm, List.forall_mem_nil _⟩
  | cons program arguments =>
    simp only [bind_eq]
    cases created : Run.files (createRunDirectory now config.output.dir) machine with
    | error failure middle =>
      refine ⟨[], ?_, List.forall_mem_nil _⟩
      rw [List.append_nil, endState_error]
      simp only [Run.files] at created
      split at created
      · simp only [reduceCtorEq] at created
      · obtain ⟨_, rfl⟩ := EStateM.Result.error.inj created
        rfl
    | ok directory middle =>
      obtain ⟨_, opened, made, rfl⟩ := files_createRunDirectory created
      obtain ⟨call, next, same, seen, _, ran⟩ := Run.checkedCommand_recorded runner
        (clientCommand config program arguments directory) { machine with store := opened }
      simp only [ran]
      refine ⟨[call], ?_, List.forall_mem_singleton.mpr ?_⟩
      · cases call.failure? <;> rfl
      · rw [same, seen]
        exact made

theorem computeMetric_memory (config : Config) (runner : Runner Memory) (now : Int)
    (progress : Progress) (machine : Machine Memory) :
    (endState (performAll config runner now progress [.computeMetric] machine)).memory =
      machine.memory := by
  simp only [performAll, perform, bind_eq, Run.files]
  cases computeMetric config progress machine.store with
  | ok report store => rfl
  | error failure store => rfl

theorem benchmark_calls {config : Config} {runner : Runner Memory} {now : Int}
    {progress : Progress} {machine : Machine (Memory × List Call)} {made : List Call}
    (added : Added runner machine
      (endState (performAll config (recorded runner) now progress Stage.benchmark machine)) made) :
    ∀ call ∈ made,
      machine.store.makeDirectory call.invocation.workingDirectory = .ok call.before := by
  obtain ⟨calls, memory, fresh⟩ := runClient_calls config runner now machine
  have same : made = calls := by
    refine added.unique ?_
    rw [Stage.benchmark, performAll_cons, bind_eq, performStage, perform, bind_eq]
    cases found : runClient config (recorded runner) now machine with
    | error failure after =>
      rw [found] at memory
      exact memory
    | ok path after =>
      rw [found] at memory
      simp only [pure_eq, computeMetric_memory]
      exact memory
  exact same ▸ fresh

/-! ## Runs -/

/-- A run with a record of its calls. -/
def recordedRun (config : Config) (runner : Runner Memory) (now : Int) (mode : RunMode)
    (store : Store) (memory : Memory) :
    EStateM.Result StageFailure (Machine (Memory × List Call)) (Option Timing.Report) :=
  run config (recorded runner) now mode ⟨store, (memory, []), []⟩

/-- The calls of a run, in order. -/
def calls (config : Config) (runner : Runner Memory) (now : Int) (mode : RunMode) (store : Store)
    (memory : Memory) : List Call :=
  (endState (recordedRun config runner now mode store memory)).memory.2

/-- A run that goes through its commands in order and stops at the first that fails. -/
structure FailsFast (config : Config) (runner : Runner Memory) (now : Int) (mode : RunMode)
    (store : Store) (memory : Memory) : Prop where
  /-- The calls are those of the run, recorded while nothing else changes. -/
  observed : run config runner now mode ⟨store, memory, []⟩ =
    Machine.forgetResult (recordedRun config runner now mode store memory)
  invocations : (endState (run config runner now mode ⟨store, memory, []⟩)).invocations =
    (calls config runner now mode store memory).map Call.invocation
  ordered : (calls config runner now mode store memory).map Call.invocation <+:
    (config.commands now mode).map Prod.snd
  succeeded : ∀ call ∈ (calls config runner now mode store memory).dropLast, call.answer = .ok 0
  /-- A call that fails is the last, and the run fails for its reason in the stage that made it. -/
  stopped : ∀ (position : Nat) (call : Call) (cause : Failure),
    (calls config runner now mode store memory)[position]? = some call →
    call.failure? = some cause →
    position + 1 = (calls config runner now mode store memory).length ∧
      ∃ stage machine, (config.commands now mode)[position]? = some (stage, call.invocation) ∧
        run config runner now mode ⟨store, memory, []⟩ = .error ⟨stage, cause⟩ machine
  /-- A run that ends well has run all commands, and has a report if there is a client. -/
  completed : ∀ report machine,
    run config runner now mode ⟨store, memory, []⟩ = .ok report machine →
    (calls config runner now mode store memory).map Call.invocation =
        (config.commands now mode).map Prod.snd ∧
      (∀ call ∈ calls config runner now mode store memory, call.answer = .ok 0) ∧
      report.isSome = config.client.isConfigured
  /-- The client's directory is made when the preparation has ended, and then the client runs. -/
  fresh : ∀ (position : Nat) (call : Call) (invocation : Invocation),
    (calls config runner now mode store memory)[position]? = some call →
    (config.commands now mode)[position]? = some (Stage.runClient, invocation) →
    ∃ progress ready,
      performAll config runner now .none mode.preparation ⟨store, memory, []⟩ =
          .ok progress ready ∧
        ready.store.makeDirectory call.invocation.workingDirectory = .ok call.before

/-- What a run hands on does not change its calls. -/
theorem endState_run (config : Config) (runner : Runner Memory) (now : Int) (mode : RunMode)
    (machine : Machine Memory) :
    endState (run config runner now mode machine) =
      endState (performAll config runner now .none (config.plan mode) machine) := by
  rw [run, bind_eq]
  cases performAll config runner now .none (config.plan mode) machine with
  | ok progress after => rfl
  | error failure after => rfl

theorem made_run {config : Config} {runner : Runner Memory} {now : Int} {mode : RunMode}
    {machine : Machine Memory} {made : List Call} {commands : List (Stage × Invocation)}
    (outcome : Made StageFailure.mk commands made
      (performAll config runner now .none (config.plan mode) machine)) :
    Made StageFailure.mk commands made (run config runner now mode machine) := by
  rw [run, bind_eq]
  generalize performAll config runner now .none (config.plan mode) machine = result at outcome
  cases outcome with
  | complete done whole => exact .complete done whole
  | partway done start => exact .partway done start
  | blamed done failed start place => exact .blamed done failed start place

/-- The calls of a run are those of its stages. -/
theorem calls_spec (config : Config) (runner : Runner Memory) (now : Int) (mode : RunMode)
    (store : Store) (memory : Memory) :
    (endState (recordedRun config runner now mode store memory)).invocations =
        (calls config runner now mode store memory).map Call.invocation ∧
      Made StageFailure.mk (config.commands now mode)
        (calls config runner now mode store memory)
        (recordedRun config runner now mode store memory) := by
  obtain ⟨made, added, outcome⟩ := issues_performAll config runner now .none (config.plan mode)
    ⟨store, (memory, []), []⟩
  rw [flatMap_plan] at outcome
  rw [← endState_run] at added
  have same : calls config runner now mode store memory = made := added.calls
  rw [same]
  exact ⟨added.invocations, made_run outcome⟩

/-- The recorded calls are calls of the runner. -/
theorem obeys_of_mem_calls {config : Config} {runner : Runner Memory} {now : Int} {mode : RunMode}
    {store : Store} {memory : Memory} {call : Call}
    (member : call ∈ calls config runner now mode store memory) : call.Obeys runner := by
  obtain ⟨made, added, _⟩ := issues_performAll config runner now .none (config.plan mode)
    ⟨store, (memory, []), []⟩
  rw [← endState_run] at added
  have same : calls config runner now mode store memory = made := added.calls
  exact added.obeys call (same ▸ member)

/-- The commands of a preparation. -/
def preparationOf (config : Config) : RunMode → List (Stage × Invocation)
  | .full => config.preparationCommands
  | .metricOnly => []

theorem flatMap_preparationOf (config : Config) (now : Int) (mode : RunMode) :
    mode.preparation.flatMap (stageCommands config now) = preparationOf config mode := by
  cases mode with
  | full => exact flatMap_preparation config now
  | metricOnly => rfl

theorem position_of_client {config : Config} {now : Int} {mode : RunMode} {position : Nat}
    {invocation : Invocation}
    (found : (config.commands now mode)[position]? = some (Stage.runClient, invocation)) :
    (preparationOf config mode).length ≤ position := by
  refine Nat.le_of_not_lt fun early => ?_
  cases mode with
  | metricOnly => exact Nat.not_lt_zero _ early
  | full =>
    rw [Config.commands, ← preparationOf, List.getElem?_append_left early] at found
    have member := List.mem_of_getElem? found
    simp [preparationOf, Config.preparationCommands] at member

/-- The client runs in a directory that is made right before. -/
theorem client_fresh (config : Config) (runner : Runner Memory) (now : Int) (mode : RunMode)
    (store : Store) (memory : Memory) {position : Nat} {call : Call} {invocation : Invocation}
    (made : (calls config runner now mode store memory)[position]? = some call)
    (client : (config.commands now mode)[position]? = some (Stage.runClient, invocation)) :
    ∃ progress ready,
      performAll config runner now .none mode.preparation ⟨store, memory, []⟩ =
          .ok progress ready ∧
        ready.store.makeDirectory call.invocation.workingDirectory = .ok call.before := by
  have late := position_of_client client
  obtain ⟨inside, _⟩ := List.getElem?_eq_some_iff.mp made
  obtain ⟨rest, plan, benchmark⟩ := plan_eq config mode
  obtain ⟨first, added, outcome⟩ := issues_performAll config runner now .none mode.preparation
    ⟨store, (memory, []), []⟩
  have observed := transparent_performAll config runner now .none mode.preparation
    ⟨store, (memory, []), []⟩
  have whole : calls config runner now mode store memory =
      (endState (performAll config (recorded runner) now .none (config.plan mode)
        ⟨store, (memory, []), []⟩)).memory.2 :=
    congrArg (·.memory.2) (endState_run config (recorded runner) now mode _)
  rw [plan, performAll_append, bind_eq] at whole
  rw [flatMap_preparationOf] at outcome
  have few : first.length ≤ (preparationOf config mode).length := by
    simpa only [List.length_map] using outcome.ordered.length_le
  cases prepared : performAll config (recorded runner) now .none mode.preparation
      ⟨store, (memory, []), []⟩ with
  | error failure ready =>
    rw [prepared] at whole added
    have same : calls config runner now mode store memory = first := whole.trans added.calls
    rw [same] at inside
    omega
  | ok progress ready =>
    rw [prepared] at whole added observed
    refine ⟨progress, ready.forget, observed, ?_⟩
    simp only [endState_ok] at added
    rcases benchmark with rfl | ⟨rfl, _, _⟩
    · obtain ⟨more, addedMore, _⟩ :=
        issues_performAll config runner now progress Stage.benchmark ready
      have same : calls config runner now mode store memory = first ++ more :=
        whole.trans (added.trans addedMore).calls
      rw [same, List.getElem?_append_right (Nat.le_trans few late)] at made
      exact benchmark_calls addedMore call (List.mem_of_getElem? made)
    · have same : calls config runner now mode store memory = first := whole.trans added.calls
      rw [same] at inside
      omega

/-- A run that ends well gives a report if there is a client. -/
theorem run_report {config : Config} {runner : Runner Memory} {now : Int} {mode : RunMode}
    {machine after : Machine Memory} {report : Option Timing.Report}
    (ended : run config runner now mode machine = .ok report after) :
    report.isSome = config.client.isConfigured := by
  obtain ⟨progress, final, done, handed⟩ := bind_eq_ok_iff.mp ended
  obtain ⟨rfl, _⟩ := EStateM.Result.ok.inj handed
  obtain ⟨rest, plan, benchmark⟩ := plan_eq config mode
  rw [plan, performAll_append] at done
  obtain ⟨prepared, middle, first, last⟩ := bind_eq_ok_iff.mp done
  rcases benchmark with rfl | ⟨rfl, _, none⟩
  · obtain ⟨configured, report, found⟩ := benchmark_progress last
    rw [configured, found]
    rfl
  · obtain rfl := performAll_progress (not_mem_benchmark_of_preparation mode) first
    obtain ⟨rfl, _⟩ := EStateM.Result.ok.inj last
    rw [none]
    rfl

theorem run_failsFast (config : Config) (runner : Runner Memory) (now : Int) (mode : RunMode)
    (store : Store) (memory : Memory) : FailsFast config runner now mode store memory := by
  obtain ⟨invocations, outcome⟩ := calls_spec config runner now mode store memory
  have observed := recorded_run config runner now mode ⟨store, (memory, []), []⟩
  change run config runner now mode ⟨store, memory, []⟩ =
    Machine.forgetResult (recordedRun config runner now mode store memory) at observed
  refine ⟨observed, ?_, outcome.ordered, ?_, ?_, ?_, ?_⟩
  · rw [observed, ← invocations]
    cases recordedRun config runner now mode store memory with
    | ok report machine => rfl
    | error failure machine => rfl
  · intro call member
    exact call.failure?_eq_none_iff.mp (outcome.succeeded call member)
  · intro position call cause found failed
    obtain ⟨last, stage, machine, place, failure⟩ := outcome.stopped found failed
    exact ⟨last, stage, machine.forget, place, by rw [observed, failure]; rfl⟩
  · intro report machine ended
    have reported := run_report ended
    rw [observed] at ended
    generalize calls config runner now mode store memory = made at outcome ⊢
    generalize recordedRun config runner now mode store memory = result at outcome ended
    cases outcome with
    | complete done whole =>
      exact ⟨whole, fun call member => call.failure?_eq_none_iff.mp (done call member), reported⟩
    | partway done start => cases ended
    | blamed done failed start place => cases ended
  · intro position call invocation made client
    exact client_fresh config runner now mode store memory made client

end Pipeline

end PowerTest
