import Mathlib.Data.List.Induction
import Mathlib.Logic.Function.Basic
import PowerTest.Proofs.Pipeline.Calls
import PowerTest.Proofs.Pipeline.Stages
import PowerTest.Proofs.Store.Growth

/-!
# Interleaved runs of the benchmark

A run of the benchmark alone takes three steps that no other run interrupts: it makes its directory,
calls the client and scores the log (`run_metricOnly_eq`). In a `World` many runs share one machine,
and a schedule says which of them takes its next step; three steps in a row of one of them are its
run (`play_alone`). `moves_advance` says once what a step can do to the store.
-/

namespace PowerTest

open Steps

/-- A run of the benchmark alone: what it is configured for, its commands, and what its clock says. -/
structure Benchmark (Memory : Type) where
  config : Config
  runner : Runner Memory
  now : Int

/-- How far a run of the benchmark has come. -/
inductive Phase
  | waiting
  /-- The directory of the run was made. -/
  | opened (directory : String)
  /-- The client has ended well. -/
  | measured (directory : String)
  | ended (directory : Option String) (outcome : Except StageFailure Timing.Report)

def Phase.directory? : Phase → Option String
  | waiting => none
  | opened directory | measured directory => some directory
  | ended directory _ => directory

variable {ι Memory α : Type}

/-- The phase behind a step; a step that fails ends the run. -/
def Phase.follow (directory : Option String) (next : α → Phase) :
    EStateM.Result StageFailure (Machine Memory) α → Phase × Machine Memory
  | .ok value after => (next value, after)
  | .error failure after => (.ended directory (.error failure), after)

/-- Steps of a stage, whose failures are blamed on it. -/
def Run.inStage (stage : Stage) (steps : Run Memory α) : EStateM StageFailure (Machine Memory) α :=
  fun machine =>
    match steps machine with
    | .ok value after => .ok value after
    | .error cause after => .error ⟨stage, cause⟩ after

namespace Benchmark

variable (benchmark : Benchmark Memory)

def name : String := runDirectoryName benchmark.now

def directory : String := Path.join benchmark.config.output.dir benchmark.name

/-- The path of the client's log in the directory of a run. -/
def log (directory : String) : String := Path.join directory benchmark.config.client.logFileName

/-- Make the run's directory, given that there is a client. -/
def openDirectory : EStateM StageFailure (Machine Memory) String :=
  Run.inStage .runClient <|
    match benchmark.config.client.command with
    | [] => throw .missingClient
    | _ :: _ => Run.files (createRunDirectory benchmark.now benchmark.config.output.dir)

def callClient (directory : String) : EStateM StageFailure (Machine Memory) Unit :=
  Run.inStage .runClient <|
    match benchmark.config.client.command with
    | [] => throw .missingClient
    | program :: arguments =>
      Run.checkedCommand benchmark.runner
        (Pipeline.clientCommand benchmark.config program arguments directory)

def scoreLog (directory : String) : EStateM StageFailure (Machine Memory) Timing.Report :=
  Run.inStage .computeMetric <|
    Run.files (Pipeline.computeMetric benchmark.config ⟨some (benchmark.log directory), none⟩)

/-- The next step of a run: how far it comes, and what it makes of the machine. -/
def advance : Phase → Machine Memory → Phase × Machine Memory
  | .waiting, machine => Phase.follow none .opened (benchmark.openDirectory machine)
  | .opened directory, machine =>
    Phase.follow (some directory) (fun _ => .measured directory)
      (benchmark.callClient directory machine)
  | .measured directory, machine =>
    Phase.follow (some directory) (fun report => .ended (some directory) (.ok report))
      (benchmark.scoreLog directory machine)
  | .ended directory outcome, machine => (.ended directory outcome, machine)

end Benchmark

/-- Runs of the benchmark that share a machine. -/
structure World (ι Memory : Type) where
  phases : ι → Phase
  machine : Machine Memory

namespace World

def store (world : World ι Memory) : Store := world.machine.store

/-- Runs that all wait. -/
def start (machine : Machine Memory) : World ι Memory := ⟨fun _ => .waiting, machine⟩

variable [DecidableEq ι] (benchmarks : ι → Benchmark Memory)

def step (world : World ι Memory) (who : ι) : World ι Memory :=
  let next := (benchmarks who).advance (world.phases who) world.machine
  ⟨Function.update world.phases who next.1, next.2⟩

/-- The world after steps in the order of a schedule. -/
def play (world : World ι Memory) (schedule : List ι) : World ι Memory :=
  schedule.foldl (step benchmarks) world

variable {benchmarks} {world : World ι Memory} {who other : ι} {schedule more : List ι}

theorem play_append :
    world.play benchmarks (schedule ++ more) = (world.play benchmarks schedule).play benchmarks more :=
  List.foldl_append

theorem play_concat :
    world.play benchmarks (schedule ++ [who]) = (world.play benchmarks schedule).step benchmarks who :=
  play_append

theorem phases_step_self :
    (world.step benchmarks who).phases who =
      ((benchmarks who).advance (world.phases who) world.machine).1 :=
  Function.update_self ..

theorem phases_step_of_ne (different : other ≠ who) :
    (world.step benchmarks who).phases other = world.phases other :=
  Function.update_of_ne different ..

theorem machine_step :
    (world.step benchmarks who).machine =
      ((benchmarks who).advance (world.phases who) world.machine).2 := rfl

end World

/-! ## Three steps are a run -/

namespace Pipeline

/-- A run of the benchmark alone makes its directory, calls the client and scores the log. -/
theorem run_metricOnly_eq (benchmark : Benchmark Memory) :
    run benchmark.config benchmark.runner benchmark.now .metricOnly = (do
      let directory ← benchmark.openDirectory
      benchmark.callClient directory
      let report ← benchmark.scoreLog directory
      pure (some report)) := by
  funext machine
  have plan : benchmark.config.plan .metricOnly = [.runClient, .computeMetric] := rfl
  simp only [run, plan, performAll_cons, performAll_nil, performStage, perform, runClient, bind_eq,
    Benchmark.openDirectory, Benchmark.callClient, Benchmark.scoreLog, Run.inStage, pure_eq]
  cases client : benchmark.config.client.command with
  | nil => simp only [throw_eq]
  | cons program arguments =>
    simp only [bind_eq]
    generalize Run.files (createRunDirectory benchmark.now benchmark.config.output.dir) machine = made
    cases made with
    | error cause after => rfl
    | ok directory opened =>
      simp only
      generalize Run.checkedCommand benchmark.runner
        (clientCommand benchmark.config program arguments directory) opened = called
      cases called with
      | error cause after => rfl
      | ok value measured =>
        simp only [Benchmark.log, Progress.none, pure_eq]
        generalize Run.files (computeMetric benchmark.config
          ⟨some (Path.join directory benchmark.config.client.logFileName), none⟩) measured = scored
        cases scored <;> rfl

/-- What is left of a run that ended. -/
def resultOf (outcome : Except StageFailure Timing.Report) (machine : Machine Memory) :
    EStateM.Result StageFailure (Machine Memory) (Option Timing.Report) :=
  match outcome with
  | .ok report => .ok (some report) machine
  | .error failure => .error failure machine

end Pipeline

namespace World

variable [DecidableEq ι] {benchmarks : ι → Benchmark Memory} {world : World ι Memory} {who : ι}

/-- Three steps in a row of a run that waits are its run, and no other run comes any further. -/
theorem play_alone (waiting : world.phases who = .waiting) :
    (∃ directory outcome,
      (world.play benchmarks [who, who, who]).phases who = .ended directory outcome ∧
        Pipeline.run (benchmarks who).config (benchmarks who).runner (benchmarks who).now .metricOnly
            world.machine =
          Pipeline.resultOf outcome (world.play benchmarks [who, who, who]).machine) ∧
      ∀ other, other ≠ who →
        (world.play benchmarks [who, who, who]).phases other = world.phases other := by
  refine ⟨?_, fun other different => ?_⟩
  · simp only [play, List.foldl_cons, List.foldl_nil, step, Function.update_self, waiting,
      Pipeline.run_metricOnly_eq, bind_eq, Benchmark.advance]
    cases (benchmarks who).openDirectory world.machine with
    | error failure after => exact ⟨none, .error failure, rfl, rfl⟩
    | ok directory opened =>
      simp only [Phase.follow]
      cases (benchmarks who).callClient directory opened with
      | error failure after => exact ⟨some directory, .error failure, rfl, rfl⟩
      | ok value measured =>
        simp only
        cases (benchmarks who).scoreLog directory measured with
        | error failure after => exact ⟨some directory, .error failure, rfl, rfl⟩
        | ok report after => exact ⟨some directory, .ok report, rfl, rfl⟩
  · have keep (next : World ι Memory) :
        (next.step benchmarks who).phases other = next.phases other := phases_step_of_ne different
    simp only [play, List.foldl_cons, List.foldl_nil, keep]

end World

/-! ## What a step can do -/

namespace Benchmark

variable {benchmark : Benchmark Memory} {machine : Machine Memory} {directory : String}

theorem openDirectory_of_not_configured (none : benchmark.config.client.isConfigured = false) :
    benchmark.openDirectory machine = .error ⟨.runClient, .missingClient⟩ machine := by
  cases client : benchmark.config.client.command with
  | nil => simp only [openDirectory, Run.inStage, client, throw_eq]
  | cons program arguments =>
    rw [ClientConfig.isConfigured, client] at none
    cases none

theorem openDirectory_of_configured (configured : benchmark.config.client.isConfigured = true) :
    benchmark.openDirectory machine =
      match machine.store.makeDirectory benchmark.directory with
      | .ok after => .ok benchmark.directory { machine with store := after }
      | .error fault =>
        .error ⟨.runClient, .inputOutput benchmark.directory fault⟩ machine := by
  cases client : benchmark.config.client.command with
  | nil =>
    rw [ClientConfig.isConfigured, client] at configured
    cases configured
  | cons program arguments =>
    simp only [openDirectory, Run.inStage, client, Run.files, createRunDirectory, Files.change,
      bind_eq, directory, name]
    cases machine.store.makeDirectory
      (Path.join benchmark.config.output.dir (runDirectoryName benchmark.now)) <;> rfl

theorem scoreLog_eq :
    benchmark.scoreLog directory machine =
      match Timing.Report.ofLog machine.store (benchmark.log directory)
        benchmark.config.generator.scaleFactor with
      | .ok report => .ok report machine
      | .error cause => .error ⟨.computeMetric, cause⟩ machine := by
  simp only [scoreLog, Run.inStage, Run.files, Pipeline.computeMetric]
  cases Timing.Report.ofLog machine.store (benchmark.log directory)
    benchmark.config.generator.scaleFactor <;> rfl

theorem callClient_of_cons {program : String} {arguments : List String}
    (client : benchmark.config.client.command = program :: arguments) :
    ∃ call : Call, call.Obeys benchmark.runner ∧
      call.invocation = Pipeline.clientCommand benchmark.config program arguments directory ∧
      call.before = machine.store ∧
      call.after = (endState (benchmark.callClient directory machine)).store := by
  obtain ⟨call, next, same, seen, came, ran⟩ := Run.checkedCommand_eq benchmark.runner
    (Pipeline.clientCommand benchmark.config program arguments directory) machine
  refine ⟨call, ⟨machine.memory, next, by rw [same, seen, came]⟩, same, seen, ?_⟩
  simp only [callClient, client, Run.inStage, ran]
  cases call.failure? <;> rfl

/-- How a step takes a run from one phase to the next, and the store with it. -/
inductive Moves (benchmark : Benchmark Memory) (before after : Store) : Phase → Phase → Prop
  | idle {phase next : Phase} (same : after = before) (owner : next.directory? = phase.directory?)
      (calm : ∀ directory, next ≠ .opened directory) : Moves benchmark before after phase next
  | opened (made : before.makeDirectory benchmark.directory = .ok after) :
      Moves benchmark before after .waiting (.opened benchmark.directory)
  | called {directory program : String} {arguments : List String} {next : Phase} (call : Call)
      (obeys : call.Obeys benchmark.runner)
      (ran : call.invocation =
        Pipeline.clientCommand benchmark.config program arguments directory)
      (start : call.before = before) (left : call.after = after)
      (owner : next.directory? = some directory) (calm : ∀ directory, next ≠ .opened directory) :
      Moves benchmark before after (.opened directory) next

theorem moves_advance (phase : Phase) (machine : Machine Memory) :
    benchmark.Moves machine.store (benchmark.advance phase machine).2.store phase
      (benchmark.advance phase machine).1 := by
  cases phase with
  | waiting =>
    cases configured : benchmark.config.client.isConfigured with
    | false =>
      simp only [advance, Phase.follow, openDirectory_of_not_configured configured]
      exact .idle rfl rfl fun _ => nofun
    | true =>
      simp only [advance, Phase.follow, openDirectory_of_configured configured]
      cases made : machine.store.makeDirectory benchmark.directory with
      | ok after => exact .opened made
      | error fault => exact .idle rfl rfl fun _ => nofun
  | opened directory =>
    cases client : benchmark.config.client.command with
    | nil =>
      simp only [advance, Phase.follow, callClient, client, Run.inStage, throw_eq]
      exact .idle rfl rfl fun _ => nofun
    | cons program arguments =>
      obtain ⟨call, obeys, ran, start, left⟩ := callClient_of_cons client
      simp only [advance, Phase.follow]
      cases ended : benchmark.callClient directory machine with
      | ok value after =>
        rw [ended] at left
        exact .called call obeys ran start left rfl fun _ => nofun
      | error failure after =>
        rw [ended] at left
        exact .called call obeys ran start left rfl fun _ => nofun
  | measured directory =>
    simp only [advance, scoreLog_eq]
    cases Timing.Report.ofLog machine.store (benchmark.log directory)
      benchmark.config.generator.scaleFactor <;> exact .idle rfl rfl fun _ => nofun
  | ended directory outcome => exact .idle rfl rfl fun _ => nofun

theorem phase_of_measured {phase : Phase}
    (came : (benchmark.advance phase machine).1 = .measured directory) :
    phase = .opened directory := by
  cases phase with
  | waiting =>
    simp only [advance] at came
    generalize benchmark.openDirectory machine = result at came
    cases result <;> cases came
  | opened own =>
    simp only [advance] at came
    generalize benchmark.callClient own machine = result at came
    cases result with
    | ok value after => exact congrArg Phase.opened (Phase.measured.inj came)
    | error failure after => cases came
  | measured own =>
    simp only [advance] at came
    generalize benchmark.scoreLog own machine = result at came
    cases result <;> cases came
  | ended own outcome => cases came

/-- A report is that on the log, in the store in which the log was scored. -/
theorem phase_of_scored {phase : Phase} {made : Option String} {report : Timing.Report}
    (came : (benchmark.advance phase machine).1 = .ended made (.ok report)) :
    phase = .ended made (.ok report) ∨ ∃ own, made = some own ∧ phase = .measured own ∧
      Timing.Report.ofLog machine.store (benchmark.log own)
        benchmark.config.generator.scaleFactor = .ok report := by
  cases phase with
  | waiting =>
    simp only [advance] at came
    generalize benchmark.openDirectory machine = result at came
    cases result <;> cases came
  | opened own =>
    simp only [advance] at came
    generalize benchmark.callClient own machine = result at came
    cases result <;> cases came
  | measured own =>
    simp only [advance, scoreLog_eq] at came
    cases scored : Timing.Report.ofLog machine.store (benchmark.log own)
      benchmark.config.generator.scaleFactor with
    | ok other =>
      rw [scored] at came
      obtain ⟨rfl, same⟩ := Phase.ended.inj came
      obtain rfl := Except.ok.inj same
      exact .inr ⟨own, rfl, rfl, scored⟩
    | error cause =>
      rw [scored] at came
      cases (Phase.ended.inj came).2
  | ended own outcome => exact .inl came

end Benchmark

namespace World

variable [DecidableEq ι] {benchmarks : ι → Benchmark Memory} {world : World ι Memory}
  {who other : ι} {own : String}

theorem moves_step (benchmarks : ι → Benchmark Memory) (world : World ι Memory) (who : ι) :
    (benchmarks who).Moves world.store (world.step benchmarks who).store (world.phases who)
      ((world.step benchmarks who).phases who) := by
  rw [phases_step_self]
  exact Benchmark.moves_advance _ _

/-- A step gives no run another directory, but may give one to the run that takes it. -/
theorem directory?_step (benchmarks : ι → Benchmark Memory) (world : World ι Memory)
    (who other : ι) :
    ((world.step benchmarks who).phases other).directory? = (world.phases other).directory? ∨
      other = who ∧ (world.step benchmarks who).phases who = .opened (benchmarks who).directory ∧
        world.store.makeDirectory (benchmarks who).directory =
          .ok (world.step benchmarks who).store := by
  by_cases here : other = who
  · subst here
    have moves := moves_step benchmarks world other
    generalize world.phases other = phase at moves ⊢
    generalize came : (world.step benchmarks other).phases other = next at moves
    cases moves with
    | idle same owner calm => exact .inl owner
    | opened made => exact .inr ⟨rfl, rfl, made⟩
    | called call obeys ran start left owner calm => exact .inl owner
  · rw [phases_step_of_ne here]
    exact .inl rfl

theorem opened_step (opened : (world.step benchmarks who).phases other = .opened own) :
    other ≠ who ∧ world.phases other = .opened own ∨
      other = who ∧ world.store.makeDirectory (benchmarks who).directory =
        .ok (world.step benchmarks who).store := by
  by_cases here : other = who
  · subst here
    have moves := moves_step benchmarks world other
    rw [opened] at moves
    generalize world.phases other = phase at moves
    cases moves with
    | idle same owner calm => exact absurd rfl (calm own)
    | called call obeys ran start left owner calm => exact absurd rfl (calm own)
    | opened made => exact .inr ⟨rfl, made⟩
  · rw [phases_step_of_ne here] at opened
    exact .inl ⟨here, opened⟩

/-- A report is given once, in the step that scores the log. -/
theorem scored_of_ended {schedule : List ι} {made : Option String} {report : Timing.Report}
    (waiting : world.phases who = .waiting)
    (ended : (world.play benchmarks schedule).phases who = .ended made (.ok report)) :
    ∃ before after own, schedule = before ++ who :: after ∧ made = some own ∧
      (world.play benchmarks before).phases who = .measured own ∧
      Timing.Report.ofLog (world.play benchmarks before).store ((benchmarks who).log own)
        (benchmarks who).config.generator.scaleFactor = .ok report := by
  induction schedule using List.reverseRecOn with
  | nil =>
    rw [play, List.foldl_nil, waiting] at ended
    cases ended
  | append_singleton schedule last ih =>
    rw [play_concat] at ended
    by_cases here : who = last
    · subst here
      rw [phases_step_self] at ended
      rcases Benchmark.phase_of_scored ended with already | ⟨own, rfl, measured, scored⟩
      · obtain ⟨before, after, own, rfl, rest⟩ := ih already
        exact ⟨before, after ++ [who], own, by simp, rest⟩
      · exact ⟨schedule, [], own, rfl, rfl, measured, scored⟩
    · rw [phases_step_of_ne here] at ended
      obtain ⟨before, after, own, rfl, rest⟩ := ih ended
      exact ⟨before, after ++ [last], own, by simp, rest⟩

end World

end PowerTest
