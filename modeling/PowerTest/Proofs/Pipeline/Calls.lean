import PowerTest.Proofs.Pipeline.Views

/-!
# The calls of a run

A runner can keep a record of its calls: which command was run, in which store, what came of it and
which store it left. `recorded_run` says that recording changes nothing else, so a statement about
the recorded calls is one about the run.
-/

namespace PowerTest

open Steps

variable {Memory : Type}

/-- A command as it was run. -/
structure Call where
  invocation : Invocation
  /-- The store that the command saw. -/
  before : Store
  answer : Except Failure Int
  /-- The store that the command left. -/
  after : Store

/-- The failure that a call ends a run with; none if the exit code is zero. -/
def Call.failure? (call : Call) : Option Failure :=
  match call.answer with
  | .ok code => if code = 0 then none else some (.processFailure call.invocation.program code)
  | .error failure => some failure

theorem Call.failure?_eq_none_iff (call : Call) : call.failure? = none ↔ call.answer = .ok 0 := by
  unfold Call.failure?
  cases call.answer with
  | error failure => simp
  | ok code =>
    by_cases zero : code = 0
    · simp [zero]
    · simp [zero]

/-- A call that a runner answers like this, with some memory. -/
def Call.Obeys (call : Call) (runner : Runner Memory) : Prop :=
  ∃ memory next, runner call.invocation memory call.before = (call.answer, next, call.after)

/-- A runner that keeps a record of its calls. -/
def recorded (runner : Runner Memory) : Runner (Memory × List Call) :=
  fun invocation memory store =>
    let (answer, next, after) := runner invocation memory.1 store
    (answer, (next, memory.2 ++ [⟨invocation, store, answer, after⟩]), after)

/-- A command that is checked is one call, and fails with the failure of the call. -/
theorem Run.checkedCommand_eq (runner : Runner Memory) (invocation : Invocation)
    (machine : Machine Memory) :
    ∃ (call : Call) (next : Memory), call.invocation = invocation ∧ call.before = machine.store ∧
      runner invocation machine.memory machine.store = (call.answer, next, call.after) ∧
      Run.checkedCommand runner invocation machine =
        match call.failure? with
        | none => .ok () ⟨call.after, next, machine.invocations ++ [invocation]⟩
        | some cause => .error cause ⟨call.after, next, machine.invocations ++ [invocation]⟩ := by
  simp only [Run.checkedCommand, bind_eq, Run.command]
  generalize runner invocation machine.memory machine.store = outcome
  obtain ⟨answer, next, after⟩ := outcome
  refine ⟨⟨invocation, machine.store, answer, after⟩, next, rfl, rfl, rfl, ?_⟩
  cases answer with
  | error failure => rfl
  | ok code =>
    by_cases zero : code = 0
    · subst zero
      rfl
    · simp only [Call.failure?, if_neg zero, throw_eq]

/-- A record of a command, and where a machine stands after it. -/
theorem Run.checkedCommand_recorded (runner : Runner Memory) (invocation : Invocation)
    (machine : Machine (Memory × List Call)) :
    ∃ (call : Call) (next : Memory), call.invocation = invocation ∧ call.before = machine.store ∧
      call.Obeys runner ∧
      Run.checkedCommand (recorded runner) invocation machine =
        match call.failure? with
        | none => .ok () ⟨call.after, (next, machine.memory.2 ++ [call]),
            machine.invocations ++ [invocation]⟩
        | some cause => .error cause ⟨call.after, (next, machine.memory.2 ++ [call]),
            machine.invocations ++ [invocation]⟩ := by
  obtain ⟨⟨_, _, answer, after⟩, memory, rfl, rfl, came, ran⟩ :=
    Run.checkedCommand_eq (recorded runner) invocation machine
  simp only [recorded] at came
  generalize asked : runner _ machine.memory.1 machine.store = outcome at came
  obtain ⟨_, next, _⟩ := outcome
  obtain ⟨rfl, rfl, rfl⟩ := came
  exact ⟨_, next, rfl, rfl, ⟨machine.memory.1, next, asked⟩, ran⟩

/-! ## Recording changes nothing -/

namespace Machine

/-- A machine without its record of calls. -/
def forget (machine : Machine (Memory × List Call)) : Machine Memory :=
  ⟨machine.store, machine.memory.1, machine.invocations⟩

/-- A result without the record of calls. -/
def forgetResult {ε α : Type} :
    EStateM.Result ε (Machine (Memory × List Call)) α → EStateM.Result ε (Machine Memory) α
  | .ok value machine => .ok value machine.forget
  | .error failure machine => .error failure machine.forget

/-- Steps that do the same with and without a record of calls. -/
def Transparent {ε α : Type} (observed : EStateM ε (Machine (Memory × List Call)) α)
    (steps : EStateM ε (Machine Memory) α) : Prop :=
  ∀ machine, steps machine.forget = forgetResult (observed machine)

/-- The view that hides the record of calls. -/
def forgetting (runner : Runner Memory) : View (recorded runner) runner where
  see := forget
  files _ _ := rfl
  command invocation machine := by
    simp only [Run.command, recorded, forget]
    rcases runner invocation machine.memory.1 machine.store with ⟨answer, next, after⟩
    cases answer with
    | ok code => rfl
    | error failure => rfl

theorem transparent_of_mirrors {ε α : Type} {observed : EStateM ε (Machine (Memory × List Call)) α}
    {steps : EStateM ε (Machine Memory) α} (mirrors : Mirrors forget observed steps) :
    Transparent observed steps := by
  intro machine
  rw [mirrors machine]
  cases observed machine with
  | ok value after => rfl
  | error failure after => rfl

end Machine

namespace Pipeline

open Machine

theorem transparent_performAll (config : Config) (runner : Runner Memory) (now : Int)
    (progress : Progress) (stages : List Stage) :
    Transparent (performAll config (recorded runner) now progress stages)
      (performAll config runner now progress stages) :=
  transparent_of_mirrors (mirrors_performAll (forgetting runner) config now progress stages)

/-- A recorded run is the run, with a record. -/
theorem recorded_run (config : Config) (runner : Runner Memory) (now : Int) (mode : RunMode) :
    Transparent (run config (recorded runner) now mode) (run config runner now mode) :=
  transparent_of_mirrors (mirrors_run (forgetting runner) config now mode)

end Pipeline

end PowerTest
