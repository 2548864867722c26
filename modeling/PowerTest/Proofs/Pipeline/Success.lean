import PowerTest.Proofs.Pipeline.Calls
import PowerTest.Proofs.Pipeline.Stages

/-!
# Steps that succeed

Steps succeed if their commands do. `Succeeds` says this of steps whose calls are among the calls
of a whole run, from a condition on the store to one on the store and the value handed on; its
rules follow the shape of the steps.
-/

namespace PowerTest

open Steps

variable {Memory : Type} {ε α β : Type} {calls : List Call}

/-- Steps that lead from a condition to another, given that their calls are among the known ones. -/
structure Succeeds (calls : List Call) (before : Store → Prop)
    (steps : EStateM ε (Machine (Memory × List Call)) α) (after : α → Store → Prop) : Prop where
  /-- No call is forgotten. -/
  keeps : ∀ machine, machine.memory.2 <+: (endState (steps machine)).memory.2
  reaches : ∀ machine, before machine.store → (endState (steps machine)).memory.2 <+: calls →
    ∃ value final, steps machine = .ok value final ∧ after value final.store

namespace Succeeds

variable {before : Store → Prop} {after : α → Store → Prop}

theorem pure {value : α} (holds : ∀ store, before store → after value store) :
    Succeeds calls before (Pure.pure value : EStateM ε (Machine (Memory × List Call)) α) after where
  keeps _ := List.prefix_rfl
  reaches machine start _ := ⟨value, machine, rfl, holds _ start⟩

theorem bind {steps : EStateM ε (Machine (Memory × List Call)) α}
    {next : α → EStateM ε (Machine (Memory × List Call)) β} {middle : α → Store → Prop}
    {after : β → Store → Prop} (first : Succeeds calls before steps middle)
    (second : ∀ value, Succeeds calls (middle value) (next value) after) :
    Succeeds calls before (steps >>= next) after := by
  have grows (machine : Machine (Memory × List Call)) :
      (endState (steps machine)).memory.2 <+: (endState ((steps >>= next) machine)).memory.2 := by
    cases ran : steps machine with
    | error failure final => rw [bind_eq_of_error ran]; exact List.prefix_rfl
    | ok value final => rw [bind_eq_of_ok ran]; exact (second value).keeps final
  refine ⟨fun machine => (first.keeps machine).trans (grows machine), ?_⟩
  intro machine start known
  obtain ⟨value, final, ran, reached⟩ :=
    first.reaches machine start ((grows machine).trans known)
  rw [bind_eq_of_ok ran] at known ⊢
  exact (second value).reaches final reached known

theorem imp {steps : EStateM ε (Machine (Memory × List Call)) α} {weaker : Store → Prop}
    {stronger : α → Store → Prop} (succeeds : Succeeds calls before steps after)
    (start : ∀ store, weaker store → before store)
    (final : ∀ value store, after value store → stronger value store) :
    Succeeds calls weaker steps stronger where
  keeps := succeeds.keeps
  reaches machine holds known := by
    obtain ⟨value, last, ran, reached⟩ := succeeds.reaches machine (start _ holds) known
    exact ⟨value, last, ran, final _ _ reached⟩

theorem files {steps : Files α}
    (done : ∀ store, before store → ∃ value final, steps store = .ok value final ∧
      after value final) :
    Succeeds calls before (Run.files steps : Run (Memory × List Call) α) after where
  keeps machine := by
    simp only [Run.files]
    cases steps machine.store <;> exact List.prefix_rfl
  reaches machine start _ := by
    obtain ⟨value, final, ran, reached⟩ := done machine.store start
    exact ⟨value, { machine with store := final }, by simp only [Run.files, ran], reached⟩

/-- A command succeeds if every known call of it does. -/
theorem checkedCommand {runner : Runner Memory} {invocation : Invocation} {final : Store → Prop}
    (done : ∀ call ∈ calls, call.invocation = invocation → before call.before →
      call.answer = .ok 0 ∧ final call.after) :
    Succeeds calls before (Run.checkedCommand (recorded runner) invocation)
      fun _ store => final store := by
  have ending (machine : Machine (Memory × List Call)) :
      ∃ call : Call, call.invocation = invocation ∧ call.before = machine.store ∧
        (endState (Run.checkedCommand (recorded runner) invocation machine)).memory.2 =
          machine.memory.2 ++ [call] ∧
        (call.answer = .ok 0 → ∃ last,
          Run.checkedCommand (recorded runner) invocation machine = .ok () last ∧
            last.store = call.after) := by
    obtain ⟨call, next, same, seen, _, ran⟩ :=
      Run.checkedCommand_recorded runner invocation machine
    rw [ran]
    refine ⟨call, same, seen, ?_, fun answer => ?_⟩
    · cases call.failure? <;> rfl
    · rw [call.failure?_eq_none_iff.mpr answer]
      exact ⟨_, rfl, rfl⟩
  constructor
  · intro machine
    obtain ⟨call, _, _, memory, _⟩ := ending machine
    exact memory ▸ List.prefix_append _ _
  · intro machine start known
    obtain ⟨call, same, seen, memory, succeeds⟩ := ending machine
    rw [memory] at known
    have member : call ∈ calls :=
      known.subset (List.mem_append_right _ (List.mem_singleton_self call))
    obtain ⟨answer, reached⟩ := done call member same (seen ▸ start)
    obtain ⟨last, ran, left⟩ := succeeds answer
    exact ⟨(), last, ran, left ▸ reached⟩

/-- Steps hand on what they were given. -/
theorem keep {after : Store → Prop} {steps : Run (Memory × List Call) Unit}
    (succeeds : Succeeds calls before steps fun _ => after) (progress : Progress) :
    Succeeds calls before (steps >>= fun _ => Pure.pure progress) fun _ => after :=
  succeeds.bind fun _ => .pure fun _ reached => reached

theorem filesStage {after : Store → Prop} {steps : Files Unit}
    (done : ∀ store, before store → ∃ final, steps store = .ok () final ∧ after final)
    (progress : Progress) :
    Succeeds calls before
      ((Run.files steps : Run (Memory × List Call) Unit) >>= fun _ => Pure.pure progress)
      fun _ => after := by
  refine keep (.files fun store start => ?_) progress
  obtain ⟨final, ran, reached⟩ := done store start
  exact ⟨(), final, ran, reached⟩

end Succeeds

namespace Pipeline

variable {before : Store → Prop} {config : Config} {runner : Runner Memory} {now : Int}
  {progress : Progress}

theorem succeeds_performAll_nil (progress : Progress) :
    Succeeds calls before (performAll config (recorded runner) now progress [])
      fun next store => next = progress ∧ before store :=
  .pure fun _ start => ⟨rfl, start⟩

/-- Stages in a row succeed if each does. -/
theorem succeeds_performAll_cons {stage : Stage} {rest : List Stage}
    {middle after : Progress → Store → Prop}
    (first : Succeeds calls before (perform config (recorded runner) now progress stage) middle)
    (second : ∀ next, Succeeds calls (middle next)
      (performAll config (recorded runner) now next rest) after) :
    Succeeds calls before (performAll config (recorded runner) now progress (stage :: rest))
      after := by
  rw [performAll_cons]
  have blamed : Succeeds calls before (performStage config (recorded runner) now progress stage)
      middle := ?_
  · exact blamed.bind second
  refine ⟨?_, ?_⟩
  · intro machine
    have keeps := first.keeps machine
    rw [performStage]
    cases ran : perform config (recorded runner) now progress stage machine <;>
      (rw [ran] at keeps; exact keeps)
  · intro machine start known
    rw [performStage] at known ⊢
    have reaches := first.reaches machine start
    cases ran : perform config (recorded runner) now progress stage machine with
    | error cause final =>
      rw [ran] at known reaches
      obtain ⟨_, _, never, _⟩ := reaches known
      cases never
    | ok next final =>
      rw [ran] at known reaches
      obtain ⟨value, last, same, reached⟩ := reaches known
      obtain ⟨rfl, rfl⟩ := EStateM.Result.ok.inj same
      exact ⟨_, _, rfl, reached⟩

end Pipeline

end PowerTest
