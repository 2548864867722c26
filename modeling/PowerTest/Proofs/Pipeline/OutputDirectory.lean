import PowerTest.Proofs.Names
import PowerTest.Proofs.Pipeline.Trace
import PowerTest.Proofs.Store.Confinement

/-!
# Runs stay in their output directory

If the names that a configuration gives never turn upwards, all that a run changes lies below the
output directory, and so do the files that take the output of its commands: `run_staysInside`. This
is followed stage by stage: each stage `Maintains` that all so far was `Within` the directory.
Nothing else in a configuration is asked for, and acceptance does not look at these names, so a name
with two dots leads a run out of its directory: `run_leaves_output`.
-/

namespace PowerTest

open Steps Store

variable {Memory : Type} {ε α β : Type}

/-- Names that a configuration gives and that never turn upwards. -/
structure Config.Level (config : Config) : Prop where
  resources : ∀ name ∈ config.generator.resources, Path.Descends name
  transient : ∀ name ∈ config.generator.transient, Path.Descends name
  log : Path.Descends config.client.logFileName

/-- A call that touches at most the file for its output. -/
structure Call.TouchesOutput (call : Call) : Prop where
  workingDirectory : call.after.workingDirectory = call.before.workingDirectory
  touched : ∀ location, call.after.node? location ≠ call.before.node? location →
    ∃ path mark content, call.invocation.standardOutput = some path ∧
      call.before.destination path = .ok (location, mark, content)

/-- A command whose output, if it is captured, goes to a file below a directory. -/
def Invocation.OutputInside (invocation : Invocation) (directory : String) : Prop :=
  ∀ path, invocation.standardOutput = some path → Inside directory path

variable {config : Config} {runner : Runner Memory} {now : Int} {directory : String}
  {start : Store}

theorem Call.TouchesOutput.confined {call : Call} (touches : call.TouchesOutput)
    (inside : call.invocation.OutputInside directory) :
    Confined directory call.before call.after := by
  have below (location : Location)
      (changed : call.after.node? location ≠ call.before.node? location) :
      call.before.Below directory location ∧
        call.before.node? location ≠ some .directory := by
    obtain ⟨path, mark, content, output, opened⟩ := touches.touched location changed
    exact (inside path output).written _ _ _ _ opened
  have directories : ∀ location, call.before.node? location = some .directory →
      call.after.node? location = some .directory := by
    intro location stands
    by_cases changed : call.after.node? location = call.before.node? location
    · rw [changed, stands]
    · exact absurd stands (below location changed).2
  refine ⟨touches.workingDirectory, directories, fun location => ?_⟩
  by_cases changed : call.after.node? location = call.before.node? location
  · exact .inl changed
  · obtain ⟨home, first, rest, leads, place⟩ := (below location changed).1
    have stays := leads.of_directories touches.workingDirectory directories
    exact .inr (.inl ⟨home, first, rest, stays, place⟩)

/-! ## Steps within a directory -/

/-- Steps that keep a property of the state, wherever they end. -/
def Maintains {σ : Type} (property : σ → Prop) (steps : EStateM ε σ α) : Prop :=
  ∀ state, property state → property (endState (steps state))

/-- A machine whose store, at every call and now, differs from a first one only below a path. -/
structure Within (directory : String) (start : Store) (machine : Machine (Memory × List Call)) :
    Prop where
  store : Confined directory start machine.store
  calls : ∀ call ∈ machine.memory.2,
    Confined directory start call.before ∧ Confined directory start call.after

namespace Maintains

section

variable {σ : Type} {property : σ → Prop}

theorem pure (value : α) : Maintains property (Pure.pure value : EStateM ε σ α) :=
  fun _ holds => holds

theorem throw (failure : ε) : Maintains property (MonadExcept.throw failure : EStateM ε σ α) :=
  fun _ holds => holds

/-- What is known of the value handed on may be used for the second steps. -/
theorem bind_of_ok {steps : EStateM ε σ α} {next : α → EStateM ε σ β}
    (first : Maintains property steps)
    (second : ∀ state value after, steps state = .ok value after →
      Maintains property (next value)) : Maintains property (steps >>= next) := by
  intro state holds
  refine @endState_bind _ _ _ _ (fun _ after => property after) _ _ _ (first state holds) ?_
  exact fun value after done kept => second state value after done after kept

theorem bind {steps : EStateM ε σ α} {next : α → EStateM ε σ β}
    (first : Maintains property steps) (second : ∀ value, Maintains property (next value)) :
    Maintains property (steps >>= next) :=
  first.bind_of_ok fun _ value _ _ => second value

end

/-- Steps on files keep what they keep of the store. -/
theorem runFiles {property : Machine Memory → Prop} {steps : Files α}
    (step : ∀ machine, property machine →
      property { machine with store := endState (steps machine.store) }) :
    Maintains property (Run.files steps : Run Memory α) := by
  intro machine holds
  have moved := step machine holds
  rw [Run.files]
  cases done : steps machine.store with
  | ok value store =>
    rw [done] at moved
    exact moved
  | error failure store =>
    rw [done] at moved
    exact moved

/-- What each stage keeps, stages in a row keep. -/
theorem performAll {property : Machine Memory → Prop} {stages : List Stage}
    (step : ∀ stage ∈ stages, ∀ progress,
      Maintains property (Pipeline.perform config runner now progress stage))
    (progress : Progress) :
    Maintains property (Pipeline.performAll config runner now progress stages) := by
  induction stages generalizing progress with
  | nil => exact pure progress
  | cons stage rest ih =>
    obtain ⟨first, others⟩ := List.forall_mem_cons.mp step
    have one : Maintains property (Pipeline.performStage config runner now progress stage) := by
      intro machine holds
      have kept := first progress machine holds
      rw [Pipeline.performStage]
      cases done : Pipeline.perform config runner now progress stage machine <;>
        (rw [done] at kept; exact kept)
    rw [Pipeline.performAll_cons]
    exact one.bind fun next => ih others next

theorem files {steps : Files α} (stays : Stays directory steps) :
    Maintains (Within directory start) (Run.files steps : Run (Memory × List Call) α) :=
  runFiles fun machine within => ⟨within.store.trans (stays machine.store), within.calls⟩

theorem checkedCommand {invocation : Invocation}
    (touches : ∀ call : Call, call.Obeys runner → call.TouchesOutput)
    (inside : invocation.OutputInside directory) :
    Maintains (Within directory start) (Run.checkedCommand (recorded runner) invocation) := by
  intro machine within
  obtain ⟨call, next, rfl, seen, obeys, ran⟩ :=
    Run.checkedCommand_recorded runner invocation machine
  have moved : Confined directory start call.after :=
    within.store.trans (seen ▸ (touches call obeys).confined inside)
  have known : ∀ other ∈ machine.memory.2 ++ [call],
      Confined directory start other.before ∧ Confined directory start other.after :=
    List.forall_mem_append.mpr
      ⟨within.calls, List.forall_mem_singleton.mpr ⟨seen ▸ within.store, moved⟩⟩
  rw [ran]
  cases call.failure? with
  | none => exact ⟨moved, known⟩
  | some cause => exact ⟨moved, known⟩

end Maintains

/-! ## Stages within the output directory -/

theorem inside_artifact (artifact : Artifact) (directory : String) :
    Inside directory (artifact.path directory) :=
  inside_join artifact.isPlain_name.descends

namespace Pipeline

theorem inside_clientLog (log : Path.Descends config.client.logFileName) (program : String)
    (arguments : List String) (runDirectory : String) :
    (clientCommand config program arguments runDirectory).OutputInside runDirectory := by
  rintro path ⟨⟩
  exact inside_join log

theorem stays_prepare (level : config.Level) : Stays config.output.dir (prepare config) := by
  have templates : ∀ name ∈ Artifact.templateNames, Path.Descends name :=
    fun _ member => (Artifact.isPlain_of_mem_templateNames member).descends
  exact .bind (stays_ensureDirectory _) fun _ => .bind .inspect fun _ =>
    .bind (stays_copyFiles level.resources) fun _ => stays_copyFiles templates

theorem stays_convertTables (directory : String) (tables : List Table) :
    Stays directory (convertTables directory tables) := by
  induction tables with
  | nil => exact .pure ()
  | cons table rest ih =>
    have one : Stays directory (convertRecords table ((Artifact.tableData table).path directory)
        ((Artifact.loadScript table).path directory) .overwrite) :=
      stays_convert (inside_artifact _ _) (inside_artifact _ _)
    exact one.bind fun _ => ih

theorem stays_convertIncremental (directory : String) (set : Nat) :
    Stays directory (convertIncremental directory set) := by
  refine .bind (stays_convert (inside_artifact _ _) (inside_artifact _ _)) fun _ => ?_
  exact .bind (stays_convert (inside_artifact _ _) (inside_artifact _ _)) fun _ => .pure _

theorem stays_convertDeleteKeys (config : Config) :
    Stays config.output.dir (convertDeleteKeys config) :=
  .bind (stays_convert (inside_artifact _ _) (inside_artifact _ _)) fun _ => .pure _

theorem stays_splitRefreshQuery (directory : String) :
    Stays directory (splitRefreshQuery directory) := by
  have pieces (text : String) : Stays directory
      (writeFragments directory (Artifact.queryStem refreshQuery) 1 (fragments text)) :=
    stays_writeFragments (fun number => (Artifact.fragment number).isPlain_name) 1
  refine .bind (.bind .inspect pieces) fun _ => .change fun _ _ => ?_
  exact confined_remove (inside_artifact (.query refreshQuery) directory)

theorem stays_createRunDirectory (now : Int) (directory : String) :
    Stays directory (createRunDirectory now directory) := by
  have plain : Path.IsPlain (runDirectoryName now) :=
    (Artifact.runDirectory now.toNat).isPlain_name
  exact .bind (.change fun _ _ => confined_makeDirectory plain) fun _ => .pure _

theorem endState_computeMetric (progress : Progress) (store : Store) :
    endState (computeMetric config progress store) = store := by
  rw [computeMetric]
  cases progress.logPath with
  | none => rfl
  | some path =>
    simp only
    cases Timing.Report.ofLog store path config.generator.scaleFactor <;> rfl

theorem stays_computeMetric (progress : Progress) :
    Stays directory (computeMetric config progress) :=
  .of_same (endState_computeMetric progress)

section Run

variable (level : config.Level) (touches : ∀ call : Call, call.Obeys runner → call.TouchesOutput)

include touches

theorem maintains_generateQueries (numbers : List Nat) :
    Maintains (Within config.output.dir start)
      (generateQueries config (recorded runner) numbers) := by
  induction numbers with
  | nil => exact .pure ()
  | cons number rest ih =>
    have inside : (queryCommand config number).OutputInside config.output.dir := by
      rintro path ⟨⟩
      exact inside_artifact (.query number) config.output.dir
    have template : ∀ name ∈ [Artifact.templateName number], Path.Descends name :=
      List.forall_mem_singleton.mpr (Artifact.template number).isPlain_name.descends
    exact .bind (.checkedCommand touches inside) fun _ =>
      .bind (.files (stays_removeFiles template)) fun _ => ih

include level

theorem maintains_runClient :
    Maintains (Within config.output.dir start) (runClient config (recorded runner) now) := by
  have plain : Path.IsPlain (runDirectoryName now) :=
    (Artifact.runDirectory now.toNat).isPlain_name
  unfold runClient
  cases config.client.command with
  | nil => exact .throw _
  | cons program arguments =>
    have made := stays_createRunDirectory now config.output.dir
    refine (Maintains.files made).bind_of_ok fun machine place after created => ?_
    obtain ⟨rfl, _⟩ := files_createRunDirectory created
    have inside : (clientCommand config program arguments
        (Path.join config.output.dir (runDirectoryName now))).OutputInside config.output.dir :=
      fun path output =>
        (inside_clientLog level.log program arguments _ path output).of_join plain.descends
    exact .bind (.checkedCommand touches inside) fun _ => .pure _

theorem maintains_perform (now : Int) (progress : Progress) (stage : Stage) :
    Maintains (Within config.output.dir start)
      (perform config (recorded runner) now progress stage) := by
  have silent {invocation : Invocation} (none : invocation.standardOutput = none) :
      invocation.OutputInside config.output.dir := by
    intro path output
    cases none.symm.trans output
  cases stage with
  | prepare => exact .bind (.files (stays_prepare level)) fun _ => .pure _
  | generateBaseData | generateIncrementalData =>
    exact .bind (.checkedCommand touches (silent rfl)) fun _ => .pure _
  | convertTables => exact .bind (.files (stays_convertTables _ _)) fun _ => .pure _
  | convertIncremental => exact .bind (.files (stays_convertIncremental _ _)) fun _ => .pure _
  | convertDeletes => exact .bind (.files (stays_convertDeleteKeys config)) fun _ => .pure _
  | generateQueries => exact .bind (maintains_generateQueries touches _) fun _ => .pure _
  | cleanupTransient => exact .bind (.files (stays_removeFiles level.transient)) fun _ => .pure _
  | splitRefreshQuery => exact .bind (.files (stays_splitRefreshQuery _)) fun _ => .pure _
  | runClient => exact .bind (maintains_runClient level touches) fun _ => .pure _
  | computeMetric => exact .bind (.files (stays_computeMetric progress)) fun _ => .pure _

theorem maintains_performAll (now : Int) (progress : Progress) (stages : List Stage) :
    Maintains (Within config.output.dir start)
      (performAll config (recorded runner) now progress stages) :=
  .performAll (fun stage _ progress => maintains_perform level touches now progress stage) progress

end Run

/-! ## Commands whose output stays inside -/

theorem clientCommand_of_mem {invocation : Invocation} {mode : RunMode}
    (member : (Stage.runClient, invocation) ∈ config.commands now mode) :
    ∃ program arguments, invocation =
      clientCommand config program arguments (config.runDirectory now) := by
  have client : (Stage.runClient, invocation) ∈ config.clientCommands now := by
    cases mode with
    | metricOnly => exact member
    | full =>
      rcases List.mem_append.mp member with preparing | client
      · simp [Config.preparationCommands] at preparing
      · exact client
  rw [Config.clientCommands] at client
  split at client
  · cases client
  · rename_i program arguments _
    exact ⟨program, arguments, (Prod.mk.inj (List.mem_singleton.mp client)).2⟩

theorem outputInside_of_mem (log : Path.Descends config.client.logFileName) {stage : Stage}
    {invocation : Invocation} {mode : RunMode}
    (member : (stage, invocation) ∈ config.commands now mode) :
    invocation.OutputInside config.output.dir := by
  have client (known : (stage, invocation) ∈ config.clientCommands now) :
      invocation.OutputInside config.output.dir := by
    have plain : Path.IsPlain (Text.decimal now.toNat) :=
      (Artifact.runDirectory now.toNat).isPlain_name
    rw [Config.clientCommands] at known
    split at known
    · cases known
    · obtain ⟨rfl, rfl⟩ := Prod.mk.inj (List.mem_singleton.mp known)
      rintro path ⟨⟩
      exact (inside_join log).of_join plain.descends
  cases mode with
  | metricOnly => exact client member
  | full =>
    rcases List.mem_append.mp member with preparing | known
    · simp only [Config.preparationCommands, List.mem_append, List.mem_cons, List.mem_map,
        List.not_mem_nil, or_false] at preparing
      rcases preparing with (same | same) | ⟨number, _, same⟩
      · obtain ⟨rfl, rfl⟩ := Prod.mk.inj same
        rintro path ⟨⟩
      · obtain ⟨rfl, rfl⟩ := Prod.mk.inj same
        rintro path ⟨⟩
      · obtain ⟨rfl, rfl⟩ := Prod.mk.inj same
        rintro path ⟨⟩
        exact inside_artifact (.query number) config.output.dir
    · exact client known

/-- The call at a position runs the command that stands there. -/
theorem invocation_of_ordered {calls : List Call} {commands : List (Stage × Invocation)}
    (ordered : calls.map Call.invocation <+: commands.map Prod.snd) {position : Nat} {call : Call}
    {stage : Stage} {invocation : Invocation} (made : calls[position]? = some call)
    (command : commands[position]? = some (stage, invocation)) : call.invocation = invocation := by
  have ran : (calls.map Call.invocation)[position]? = some call.invocation := by
    rw [List.getElem?_map, made]
    rfl
  obtain ⟨inside, here⟩ := List.getElem?_eq_some_iff.mp ran
  have listed := List.prefix_iff_getElem?.mp ordered position inside
  rw [here, List.getElem?_map, command] at listed
  exact (Option.some.inj listed).symm

/-! ## Runs -/

/-- A run all of whose changes lie below its output directory. -/
structure StaysInside (config : Config) (runner : Runner Memory) (now : Int) (mode : RunMode)
    (store : Store) (memory : Memory) : Prop where
  changes : Confined config.output.dir store
    (endState (run config runner now mode ⟨store, memory, []⟩)).store
  /-- So it was before and after every command. -/
  meanwhile : ∀ call ∈ calls config runner now mode store memory,
    Confined config.output.dir store call.before ∧ Confined config.output.dir store call.after
  outputs : ∀ call ∈ calls config runner now mode store memory,
    call.invocation.OutputInside config.output.dir
  /-- The client's log lies in the directory that was made for the client right before. -/
  log : ∀ (position : Nat) (call : Call) (invocation : Invocation),
    (calls config runner now mode store memory)[position]? = some call →
    (config.commands now mode)[position]? = some (Stage.runClient, invocation) →
      (∃ ready : Store,
        ready.makeDirectory call.invocation.workingDirectory = .ok call.before) ∧
      (∃ path, call.invocation.standardOutput = some path) ∧
      call.invocation.OutputInside call.invocation.workingDirectory

/-- Whatever the store holds, a run whose names never turn upwards stays in its output directory. -/
theorem run_staysInside (level : config.Level)
    (touches : ∀ call : Call, call.Obeys runner → call.TouchesOutput) (now : Int) (mode : RunMode)
    (store : Store) (memory : Memory) : StaysInside config runner now mode store memory := by
  have started : Within config.output.dir store
      (⟨store, (memory, []), []⟩ : Machine (Memory × List Call)) :=
    ⟨confined_refl _ store, List.forall_mem_nil _⟩
  have within := maintains_performAll level touches now .none (config.plan mode) _ started
  rw [← endState_run] at within
  have same : (endState (run config runner now mode ⟨store, memory, []⟩)).store =
      (endState (run config (recorded runner) now mode ⟨store, (memory, []), []⟩)).store := by
    have observed := recorded_run config runner now mode ⟨store, (memory, []), []⟩
    rw [show run config runner now mode ⟨store, memory, []⟩ = _ from observed]
    cases run config (recorded runner) now mode ⟨store, (memory, []), []⟩ <;> rfl
  have ordered := (calls_spec config runner now mode store memory).2.ordered
  refine ⟨same ▸ within.store, within.calls, ?_, ?_⟩
  · intro call member
    have listed := ordered.subset (List.mem_map.mpr ⟨call, member, rfl⟩)
    obtain ⟨⟨stage, invocation⟩, command, same⟩ := List.mem_map.mp listed
    exact same ▸ outputInside_of_mem level.log command
  · intro position call invocation made client
    obtain ⟨_, ready, _, fresh⟩ := client_fresh config runner now mode store memory made client
    obtain ⟨program, arguments, formed⟩ := clientCommand_of_mem (List.mem_of_getElem? client)
    have ran : call.invocation = clientCommand config program arguments (config.runDirectory now) :=
      (invocation_of_ordered ordered made client).trans formed
    refine ⟨⟨ready.store, fresh⟩,
      ⟨Path.join (config.runDirectory now) config.client.logFileName, by rw [ran]; rfl⟩, ?_⟩
    rw [ran]
    exact inside_clientLog level.log program arguments (config.runDirectory now)

/-! ## A log above its directory -/

/-- A runner whose commands write nothing but a line to the files for their output. -/
def writesOutput (line : String) : Runner Unit := fun invocation _ store =>
  match invocation.standardOutput with
  | none => (.ok 0, (), store)
  | some path =>
    match store.write path (Text.encode line) with
    | .ok after => (.ok 0, (), after)
    | .error fault => (.error (.destinationWrite path fault), (), store)

/-- A file that is written can be opened under its path, and nothing else changes. -/
theorem changed_of_write {before after : Store} {path : String} {content : Bytes}
    (written : before.write path content = .ok after) :
    after.workingDirectory = before.workingDirectory ∧
      ∀ location, after.node? location ≠ before.node? location →
        (∃ mark old, before.destination path = .ok (location, mark, old)) ∧
          ∃ executable, after.node? location = some (.file executable content) := by
  obtain ⟨location, mark, old, opened, rfl⟩ := write_eq_ok_iff.mp written
  -- The root is a directory and is not opened.
  have named : location ≠ [] := by
    rintro rfl
    obtain ⟨_, _, _, other, _⟩ := locate_of_destination opened
    exact other rfl
  refine ⟨rfl, fun other changed => ?_⟩
  rw [node?_put _ _ _ _ named] at changed ⊢
  split at changed
  · rename_i here
    rw [if_pos here]
    exact ⟨⟨mark, old, here ▸ opened⟩, mark, rfl⟩
  · exact absurd rfl changed

theorem untouched_or_written_of_writesOutput {line : String} {call : Call}
    (obeys : call.Obeys (writesOutput line)) :
    call.after = call.before ∨ ∃ path, call.invocation.standardOutput = some path ∧
      call.before.write path (Text.encode line) = .ok call.after := by
  obtain ⟨_, _, came⟩ := obeys
  rw [writesOutput] at came
  split at came
  · exact .inl (Prod.mk.inj (Prod.mk.inj came).2).2.symm
  rename_i path output
  split at came
  · rename_i after written
    have last : after = call.after := (Prod.mk.inj (Prod.mk.inj came).2).2
    exact .inr ⟨path, output, last ▸ written⟩
  · exact .inl (Prod.mk.inj (Prod.mk.inj came).2).2.symm

theorem touchesOutput_of_writesOutput {line : String} {call : Call}
    (obeys : call.Obeys (writesOutput line)) : call.TouchesOutput := by
  rcases untouched_or_written_of_writesOutput obeys with same | ⟨path, output, written⟩
  · exact ⟨same ▸ rfl, fun location changed => absurd (same ▸ rfl) changed⟩
  · obtain ⟨workingDirectory, changes⟩ := changed_of_write written
    refine ⟨workingDirectory, fun location changed => ?_⟩
    obtain ⟨⟨mark, old, opens⟩, _⟩ := changes location changed
    exact ⟨path, mark, old, output, opens⟩

/-- A configuration whose client's log has a name. -/
def logNamed (name : String) : Config where
  output := { dir := "out" }
  client := { command := ["client"], logFileName := name }

/-- A store with an empty output directory. -/
def emptyOutput : Store := ⟨[(["w"], .directory), (["w", "out"], .directory)], ["w"]⟩

theorem level_logNamed_here : (logNamed "./log.txt").Level := by
  have level : ∀ name ∈ "./log.txt" :: Config.standard.generator.resources ++
      Config.standard.generator.transient,
      Path.isAbsolute name = false ∧ ".." ∉ Path.names name := by decide +kernel
  have descends (name : String) (member : name ∈ "./log.txt" ::
      Config.standard.generator.resources ++ Config.standard.generator.transient) :
      Path.Descends name := ⟨(level name member).1, (level name member).2⟩
  constructor
  · exact fun name member => descends name (List.mem_append_left _ (List.mem_cons_of_mem _ member))
  · exact fun name member => descends name (List.mem_append_right _ member)
  · exact descends "./log.txt" List.mem_cons_self

theorem run_staysInside_here :
    (logNamed "./log.txt").Level ∧
      (∀ call : Call, call.Obeys (writesOutput "q1: 1") → call.TouchesOutput) ∧
      StaysInside (logNamed "./log.txt") (writesOutput "q1: 1") 1000 .metricOnly emptyOutput () :=
  ⟨level_logNamed_here, fun _ => touchesOutput_of_writesOutput,
    run_staysInside level_logNamed_here (fun _ => touchesOutput_of_writesOutput) 1000 .metricOnly
      emptyOutput ()⟩

/-- The configuration is accepted, and its client's log comes beside the output directory. -/
theorem run_leaves_output :
    (logNamed "../../log.txt").rejection? = none ∧
      (∀ call : Call, call.Obeys (writesOutput "q1: 1") → call.TouchesOutput) ∧
      ¬Confined (logNamed "../../log.txt").output.dir emptyOutput
        (endState (run (logNamed "../../log.txt") (writesOutput "q1: 1") 1000 .metricOnly
          ⟨emptyOutput, (), []⟩)).store := by
  refine ⟨by decide +kernel, fun _ => touchesOutput_of_writesOutput, fun confined => ?_⟩
  have before : emptyOutput.node? ["w", "log.txt"] = none := by decide +kernel
  have after : (endState (run (logNamed "../../log.txt") (writesOutput "q1: 1") 1000 .metricOnly
      ⟨emptyOutput, (), []⟩)).store.node? ["w", "log.txt"] =
        some (.file false (Text.encode "q1: 1")) := by decide +kernel
  have leads : emptyOutput.Leads (logNamed "../../log.txt").output.dir ["w", "out"] := rfl
  rcases confined.changes ["w", "log.txt"] with same | below | ⟨_, directory, _⟩
  · cases before.symm.trans (same.symm.trans after)
  · obtain ⟨home, name, rest, led, place⟩ := below
    obtain rfl := led.unique (confined.leads leads)
    exact absurd (List.cons.inj (List.cons.inj place).2).1 (by decide)
  · cases after.symm.trans directory

end Pipeline

end PowerTest
