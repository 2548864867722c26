import PowerTest.Pipeline.Run
import PowerTest.Proofs.Steps

/-!
# Runs seen through a view

A view shows a machine as another one with the same store, and the runner of the one as a runner of
the other. What a run does to the machine that is shown is then the run of the runner that is shown:
`mirrors_run`. Nothing in a run but its runner looks at a memory or at the commands run so far.
-/

namespace PowerTest

open Steps

variable {Memory Other : Type} {ε α β : Type}

namespace Machine

/-- A result whose machine is seen through a view. -/
def seenResult (see : Machine Memory → Machine Other) :
    EStateM.Result ε (Machine Memory) α → EStateM.Result ε (Machine Other) α
  | .ok value machine => .ok value (see machine)
  | .error failure machine => .error failure (see machine)

/-- Steps that are seen as other steps. -/
def Mirrors (see : Machine Memory → Machine Other) (steps : EStateM ε (Machine Memory) α)
    (seen : EStateM ε (Machine Other) α) : Prop :=
  ∀ machine, seen (see machine) = seenResult see (steps machine)

/-- A view of machines in which a runner is seen as another. -/
structure View (runner : Runner Memory) (seen : Runner Other) where
  see : Machine Memory → Machine Other
  /-- Steps on the store alone are seen as they are. -/
  files : ∀ machine store, see { machine with store } = { see machine with store }
  command : ∀ invocation, Mirrors see (Run.command runner invocation) (Run.command seen invocation)

namespace Mirrors

variable {see : Machine Memory → Machine Other}

theorem pure (value : α) :
    Mirrors see (Pure.pure value : EStateM ε (Machine Memory) α) (Pure.pure value) := fun _ => rfl

theorem throw (failure : ε) :
    Mirrors see (MonadExcept.throw failure : EStateM ε (Machine Memory) α)
      (MonadExcept.throw failure) := fun _ => rfl

theorem bind {steps : EStateM ε (Machine Memory) α} {seen : EStateM ε (Machine Other) α}
    (first : Mirrors see steps seen) {next : α → EStateM ε (Machine Memory) β}
    {nextSeen : α → EStateM ε (Machine Other) β}
    (second : ∀ value, Mirrors see (next value) (nextSeen value)) :
    Mirrors see (steps >>= next) (seen >>= nextSeen) := by
  intro machine
  rw [bind_eq, bind_eq, first machine]
  cases steps machine with
  | ok value after => exact second value after
  | error failure after => rfl

end Mirrors

namespace View

variable {runner : Runner Memory} {seen : Runner Other} (view : View runner seen)

theorem store_see (machine : Machine Memory) : (view.see machine).store = machine.store := by
  rw [show machine = { machine with store := machine.store } from rfl, view.files]

theorem runFiles (steps : Files α) :
    Mirrors view.see (Run.files steps : Run Memory α) (Run.files steps) := by
  intro machine
  simp only [Run.files, view.store_see]
  cases steps machine.store with
  | ok value store => exact congrArg _ (view.files machine store).symm
  | error failure store => exact congrArg _ (view.files machine store).symm

theorem checkedCommand (invocation : Invocation) :
    Mirrors view.see (Run.checkedCommand runner invocation)
      (Run.checkedCommand seen invocation) := by
  refine (view.command invocation).bind fun code => ?_
  by_cases zero : code = 0
  · simp only [zero, if_true]
    exact .pure ()
  · simp only [zero, if_false]
    exact .throw _

end View

end Machine

namespace Pipeline

open Machine

variable {runner : Runner Memory} {seen : Runner Other} (view : View runner seen) (config : Config)
  (now : Int)

theorem mirrors_generateQueries (numbers : List Nat) :
    Mirrors view.see (generateQueries config runner numbers)
      (generateQueries config seen numbers) := by
  induction numbers with
  | nil => exact .pure ()
  | cons number rest ih =>
    exact .bind (view.checkedCommand _) fun _ => .bind (view.runFiles _) fun _ => ih

theorem mirrors_runClient :
    Mirrors view.see (runClient config runner now) (runClient config seen now) := by
  unfold runClient
  cases config.client.command with
  | nil => exact .throw _
  | cons program arguments =>
    exact .bind (view.runFiles _) fun _ => .bind (view.checkedCommand _) fun _ => .pure _

theorem mirrors_perform (progress : Progress) (stage : Stage) :
    Mirrors view.see (perform config runner now progress stage)
      (perform config seen now progress stage) := by
  cases stage with
  | generateBaseData | generateIncrementalData =>
    exact .bind (view.checkedCommand _) fun _ => .pure _
  | generateQueries => exact .bind (mirrors_generateQueries view config _) fun _ => .pure _
  | runClient => exact .bind (mirrors_runClient view config now) fun _ => .pure _
  | prepare | convertTables | convertIncremental | convertDeletes | cleanupTransient
  | splitRefreshQuery | computeMetric => exact .bind (view.runFiles _) fun _ => .pure _

theorem mirrors_performAll (progress : Progress) (stages : List Stage) :
    Mirrors view.see (performAll config runner now progress stages)
      (performAll config seen now progress stages) := by
  induction stages generalizing progress with
  | nil => exact .pure progress
  | cons stage rest ih =>
    intro machine
    simp only [performAll]
    rw [mirrors_perform view config now progress stage machine]
    cases perform config runner now progress stage machine with
    | ok next after => exact ih next after
    | error cause after => rfl

/-- A run that is seen through a view is the run of the runner that is seen. -/
theorem mirrors_run (mode : RunMode) :
    Mirrors view.see (run config runner now mode) (run config seen now mode) :=
  .bind (mirrors_performAll view config now .none _) fun progress => .pure progress.report

end Pipeline

end PowerTest
