import PowerTest.Failure
import PowerTest.Proofs.Steps

/-!
# What an operation does where it succeeds

An operation of a store either gives a fault or does one thing: a file is put where the path opens
one, a file that is found is erased, a directory is put where nothing stands. What else holds of
the operations follows from that and from what their paths lead to. Steps on a store that succeed
are operations that do, and steps that only look leave the store as it is.
-/

namespace PowerTest

namespace Store

variable {store after : Store} {source path : String} {content : Bytes}

theorem find_of_isDirectory (present : store.isDirectory path = true) :
    ∃ home, store.find path = .ok (home, .directory) := by
  rw [isDirectory] at present
  split at present
  · rename_i home found
    exact ⟨home, found⟩
  · cases present

theorem find_of_isFile (file : store.isFile path = true) :
    ∃ location executable content, store.find path = .ok (location, .file executable content) := by
  rw [isFile] at file
  split at file
  · rename_i location executable content found
    exact ⟨location, executable, content, found⟩
  · cases file

/-- What is read is the content of a file that is found. -/
theorem find_of_read (read : store.read path = .ok content) :
    ∃ location executable, store.find path = .ok (location, .file executable content) := by
  rw [Store.read] at read
  split at read
  · cases read
  · cases read
  · rename_i location executable bytes found
    obtain rfl := Except.ok.inj read
    exact ⟨location, executable, found⟩

theorem write_eq_ok_iff :
    store.write path content = .ok after ↔
      ∃ location mark old, store.destination path = .ok (location, mark, old) ∧
        after = store.put location (.file mark content) := by
  constructor
  · intro written
    rw [write] at written
    split at written
    · cases written
    · rename_i location mark old opened
      exact ⟨location, mark, old, opened, (Except.ok.inj written).symm⟩
  · rintro ⟨location, mark, old, opened, rfl⟩
    rw [write, opened]

theorem append_eq_ok_iff :
    store.append path content = .ok after ↔
      ∃ location mark old, store.destination path = .ok (location, mark, old) ∧
        after = store.put location (.file mark (old ++ content)) := by
  constructor
  · intro written
    rw [Store.append] at written
    split at written
    · cases written
    · rename_i location mark old opened
      exact ⟨location, mark, old, opened, (Except.ok.inj written).symm⟩
  · rintro ⟨location, mark, old, opened, rfl⟩
    rw [Store.append, opened]

/-- A file that is copied onto itself is emptied. -/
theorem copy_eq_ok_iff :
    store.copy source path = .ok after ↔
      ∃ place executable content location mark old,
        store.find source = .ok (place, .file executable content) ∧
        store.destination path = .ok (location, mark, old) ∧
        after = store.put location
          (.file executable (if location = place then [] else content)) := by
  constructor
  · intro copied
    rw [copy] at copied
    split at copied
    · cases copied
    · cases copied
    rename_i place executable content found
    split at copied
    · cases copied
    rename_i location mark old opened
    exact ⟨place, executable, content, location, mark, old, found, opened,
      (Except.ok.inj copied).symm⟩
  · rintro ⟨place, executable, content, location, mark, old, found, opened, rfl⟩
    simp only [copy, found, opened]

theorem remove_eq_ok_iff :
    store.remove path = .ok after ↔
      ∃ location executable content,
        store.find path = .ok (location, .file executable content) ∧
        after = store.erase location := by
  rw [remove]
  rcases store.find path with fault | ⟨place, _ | _⟩ <;> simp [eq_comm]

theorem makeDirectory_eq_ok_iff :
    store.makeDirectory path = .ok after ↔
      ∃ location, store.locate path = .ok (.absent location) ∧
        after = store.put location .directory := by
  rw [makeDirectory]
  rcases store.locate path with fault | place | location <;> simp [eq_comm]

end Store

namespace Files

open Steps

variable {α : Type} {blame : Fault → Failure} {store after : Store}

theorem change_eq_ok_iff {operation : Store → Except Fault Store} :
    change blame operation store = .ok () after ↔ operation store = .ok after := by
  rw [change]
  cases operation store <;> simp

theorem inspect_eq_ok_iff {query : Store → Except Fault α} {value : α} :
    inspect blame query store = .ok value after ↔ query store = .ok value ∧ after = store := by
  rw [inspect]
  cases query store <;> simp [eq_comm]

/-- A change that fails leaves the store as it is. -/
theorem endState_change {relation : Store → Store → Prop} {operation : Store → Except Fault Store}
    (unchanged : relation store store) (done : ∀ after, operation store = .ok after →
      relation store after) :
    relation store (endState (change blame operation store)) := by
  rw [change]
  cases ran : operation store with
  | error fault => exact unchanged
  | ok after => exact done after ran

theorem endState_inspect (blame : Fault → Failure) (query : Store → Except Fault α)
    (store : Store) : endState (inspect blame query store) = store := by
  rw [inspect]
  cases query store <;> rfl

end Files

end PowerTest
