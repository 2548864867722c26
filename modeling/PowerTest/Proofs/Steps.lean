/-!
# Steps that may fail

Steps change a state and end with a value or a failure; steps in a row stop at the first failure
and keep what was changed before. `bind_eq` reads two steps in a row, and `endState` is what is
left of a result whose value does not matter.
-/

namespace PowerTest.Steps

variable {ε σ α β : Type}

/-- The state in which steps end, successful or not. -/
def endState : EStateM.Result ε σ α → σ
  | .ok _ state => state
  | .error _ state => state

@[simp] theorem endState_ok (value : α) (state : σ) :
    endState (.ok value state : EStateM.Result ε σ α) = state := rfl

@[simp] theorem endState_error (failure : ε) (state : σ) :
    endState (.error failure state : EStateM.Result ε σ α) = state := rfl

/-- The second of two steps starts where the first one ended. -/
theorem bind_eq (first : EStateM ε σ α) (second : α → EStateM ε σ β) (state : σ) :
    (first >>= second) state =
      match first state with
      | .ok value after => second value after
      | .error failure after => .error failure after := rfl

theorem bind_eq_of_ok {first : EStateM ε σ α} {state after : σ} {value : α}
    (done : first state = .ok value after) (second : α → EStateM ε σ β) :
    (first >>= second) state = second value after := by
  rw [bind_eq, done]

theorem bind_eq_of_error {first : EStateM ε σ α} {state after : σ} {failure : ε}
    (failed : first state = .error failure after) (second : α → EStateM ε σ β) :
    (first >>= second) state = .error failure after := by
  rw [bind_eq, failed]

/-- What relates a start to the end of the first of two steps relates it to the end of both if the
second step keeps it so. -/
theorem endState_bind {relation : σ → σ → Prop} {first : EStateM ε σ α} {second : α → EStateM ε σ β}
    {state : σ} (start : relation state (endState (first state)))
    (further : ∀ value middle, first state = .ok value middle → relation state middle →
      relation state (endState (second value middle))) :
    relation state (endState ((first >>= second) state)) := by
  rw [bind_eq]
  cases done : first state with
  | error failure middle =>
    rw [done] at start
    exact start
  | ok value middle =>
    rw [done] at start
    exact further value middle done start

/-- Two steps in a row succeed if each does. -/
theorem bind_eq_ok_iff {first : EStateM ε σ α} {second : α → EStateM ε σ β} {state after : σ}
    {result : β} :
    (first >>= second) state = .ok result after ↔
      ∃ value middle, first state = .ok value middle ∧ second value middle = .ok result after := by
  rw [bind_eq]
  cases first state with
  | error failure middle => simp only [reduceCtorEq, false_and, exists_false]
  | ok value middle =>
    constructor
    · exact fun done => ⟨value, middle, rfl, done⟩
    · rintro ⟨other, next, same, done⟩
      obtain ⟨rfl, rfl⟩ := EStateM.Result.ok.inj same
      exact done

@[simp] theorem pure_eq (value : α) (state : σ) :
    (pure value : EStateM ε σ α) state = .ok value state := rfl

@[simp] theorem throw_eq (failure : ε) (state : σ) :
    (throw failure : EStateM ε σ α) state = .error failure state := rfl

end PowerTest.Steps
