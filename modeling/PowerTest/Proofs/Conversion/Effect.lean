import PowerTest.Proofs.Conversion.Script
import PowerTest.Proofs.Steps
import PowerTest.Proofs.Store.Opening

/-!
# What a conversion does to the store

A conversion between two files of a directory either changes nothing, or leaves its source and
writes a part of the script, or removes its source behind the complete script: `Converted` has one
case for each, and `converted_convert` says that there are no others.
-/

namespace PowerTest

open Steps Store

/-- What a script starts with, given what its destination holds. -/
def WriteMode.base : WriteMode → Bytes → Bytes
  | overwrite, _ => []
  | append, content => content

/-- The source that a node is. -/
def Source.ofNode : Node → Source
  | .directory => .directory
  | .file _ content => .file content

/-- The results of a conversion between two names of a directory. -/
inductive Converted (render : Record → List String) (directory source destination : String)
    (mode : WriteMode) (before : Store) : EStateM.Result Failure Store Nat → Prop
  | refused {failure : Failure} :
    Converted render directory source destination mode before (.error failure before)
  | begun {home : Location} {node : Node} {mark : Bool} {old script : Bytes} {failure : Failure}
    (leads : before.Leads directory home) (fitsSource : Fits directory source)
    (fits : Fits directory destination)
    (found : before.node? (home ++ [source]) = some node)
    (free : before.opened (home ++ [destination]) = some (mark, old))
    (start : ∀ executable content, node = .file executable content →
      ConvertsStart render content script)
    (nothing : node = .directory → script = []) :
    Converted render directory source destination mode before
      (.error failure (before.put (home ++ [destination]) (.file mark (mode.base old ++ script))))
  | completed {home : Location} {executable mark : Bool} {content old script : Bytes} {count : Nat}
    (leads : before.Leads directory home) (fitsSource : Fits directory source)
    (fits : Fits directory destination)
    (found : before.node? (home ++ [source]) = some (.file executable content))
    (free : before.opened (home ++ [destination]) = some (mark, old))
    (whole : Converts render content script) :
    Converted render directory source destination mode before
      (.ok count ((before.put (home ++ [destination])
        (.file mark (mode.base old ++ script))).erase (home ++ [source])))

variable {render : Record → List String} {directory source destination : String}
  {mode : WriteMode} {store : Store} {home : Location}

theorem openSource_of_find {path : String} {location : Location} {node : Node}
    (found : store.find path = .ok (location, node)) :
    openSource path store = .ok (Source.ofNode node) store := by
  rw [openSource, Source.openAt, found]
  cases node <;> rfl

theorem openDestination_eq (store : Store) (path : String) (mode : WriteMode) :
    store.openDestination path mode =
      match store.destination path with
      | .error fault => .error fault
      | .ok (location, mark, content) =>
        .ok (store.put location (.file mark (mode.base content))) := by
  cases mode with
  | overwrite =>
    rw [openDestination, write]
    cases store.destination path <;> rfl
  | append =>
    rw [openDestination, Store.append]
    cases store.destination path with
    | error fault => rfl
    | ok file => simp only [List.append_nil, WriteMode.base]

/-- A source that leads nowhere is refused before anything changes. -/
theorem convert_of_find_eq_error {path other : String} {fault : Fault}
    (lost : store.find path = .error fault) :
    convert render path other mode store = .error (.ofSource path fault) store := by
  simp only [convert, bind_eq, openSource, Source.openAt, lost]

/-- A destination that cannot be written is refused before anything changes. -/
theorem convert_of_destination_eq_error {path other : String} {location : Location} {node : Node}
    {fault : Fault} (found : store.find path = .ok (location, node))
    (lost : store.destination other = .error fault) :
    convert render path other mode store = .error (.destinationWrite other fault) store := by
  simp only [convert, bind_eq, openSource_of_find found, Files.change, openDestination_eq, lost]

/-- How a conversion ends that has written what it could: it removes its source unless something
could not be converted. -/
def concluded (path : String) (place : Location) (written : Store) (count : Nat) :
    Option Failure → Node → EStateM.Result Failure Store Nat
  | some failure, _ => .error failure written
  | none, .directory => .error (.inputOutput path .isADirectory) written
  | none, .file _ _ => .ok count (written.erase place)

/-- A conversion whose files can be opened writes what can be converted. -/
theorem convert_of_opens {path other : String} {place target : Location} {node : Node}
    {mark : Bool} {old : Bytes} (found : store.find path = .ok (place, node))
    (opens : store.Opens other target mark old) (apart : place ≠ target) :
    let read := statementsOf render ((Source.ofNode node).items path 1)
    let written := store.put target (.file mark (mode.base old ++ scriptBytes read.1))
    convert render path other mode store =
      concluded path place written read.2.1 read.2.2 node := by
  intro read written
  have free := opened_ne_directory opens.free
  let ready := store.put target (.file mark (mode.base old))
  have change : store.openDestination other mode = .ok ready := by
    rw [openDestination_eq, destination_eq_ok_iff.mpr opens]
  have foundReady : ready.find path = .ok (place, node) := find_putFile free apart found _
  have more : ready.append other (scriptBytes read.1) = .ok written := by
    rw [Store.append, destination_putFile opens]
    exact congrArg _ (put_put _ _ _ _)
  have foundWritten : written.find path = .ok (place, node) := find_putFile free apart found _
  simp only [convert, bind_eq, Files.change, openSource_of_find found, change,
    openSource_of_find foundReady, show statementsOf render _ = read from rfl, more]
  cases read.2.2 with
  | some failure => rfl
  | none =>
    cases node with
    | directory => simp only [bind_eq, Files.change, remove, foundWritten, concluded]
    | file executable content =>
      simp only [bind_eq, Files.change, remove, foundWritten, pure_eq, concluded]

section Directory

variable (leads : store.Leads directory home) (plainSource : Path.IsPlain source)
  (plainDestination : Path.IsPlain destination) (fitsSource : Fits directory source)
  (fitsDestination : Fits directory destination) (different : source ≠ destination)

include leads plainSource plainDestination fitsSource fitsDestination different

/-- A conversion between two names of a directory depends on what stands there. -/
theorem convert_of_opened {node : Node} {mark : Bool} {old : Bytes}
    (found : store.node? (home ++ [source]) = some node)
    (free : store.opened (home ++ [destination]) = some (mark, old)) :
    let read := statementsOf render
      ((Source.ofNode node).items (Path.join directory source) 1)
    let written := store.put (home ++ [destination])
      (.file mark (mode.base old ++ scriptBytes read.1))
    convert render (Path.join directory source) (Path.join directory destination) mode store =
      concluded (Path.join directory source) (home ++ [source]) written read.2.1 read.2.2 node := by
  have foundSource : store.find (Path.join directory source) = .ok (home ++ [source], node) := by
    rw [find_join leads plainSource fitsSource, found]
  have opens : store.destination (Path.join directory destination) =
      .ok (home ++ [destination], mark, old) := by
    rw [destination_join leads plainDestination fitsDestination, free]
  exact convert_of_opens foundSource (destination_eq_ok_iff.mp opens) (mt concat_inj.mp different)

/-- A file with a complete conversion is converted where its script can be written. -/
theorem convert_completes {executable mark : Bool} {content old script : Bytes}
    (found : store.node? (home ++ [source]) = some (.file executable content))
    (free : store.opened (home ++ [destination]) = some (mark, old))
    (whole : Converts render content script) :
    ∃ count,
      convert render (Path.join directory source) (Path.join directory destination) mode store =
        .ok count ((store.put (home ++ [destination])
          (.file mark (mode.base old ++ script))).erase (home ++ [source])) := by
  have done := @convert_of_opened render _ _ _ mode _ _ leads plainSource plainDestination fitsSource
    fitsDestination different _ _ _ found free
  obtain ⟨statements, count, read, rfl⟩ :=
    statementsOf_of_converts (Path.join directory source) whole
  simp only [Source.ofNode, read, concluded] at done
  exact ⟨count, done⟩

end Directory

/-- Every conversion between two names of a directory has one of the three results. -/
theorem converted_convert (render : Record → List String) (mode : WriteMode) (store : Store)
    (directory : String) (plainSource : Path.IsPlain source)
    (plainDestination : Path.IsPlain destination) (different : source ≠ destination) :
    Converted render directory source destination mode store
      (convert render (Path.join directory source) (Path.join directory destination) mode
        store) := by
  cases lookup : store.find (Path.join directory source) with
  | error fault =>
    rw [convert_of_find_eq_error lookup]
    exact .refused
  | ok target =>
    obtain ⟨location, node⟩ := target
    cases opening : store.destination (Path.join directory destination) with
    | error fault =>
      rw [convert_of_destination_eq_error lookup opening]
      exact .refused
    | ok file =>
      have reached {name : String} (plain : Path.IsPlain name)
          (led : ¬∃ fault, store.locate (Path.join directory name) = .error fault) :
          ∃ home, store.Leads directory home ∧ Fits directory name := by
        refine Classical.byContradiction fun nowhere => led (locate_of_not_leads plain ?_)
        exact fun home leads fits => nowhere ⟨home, leads, fits⟩
      obtain ⟨home, leads, fitsSource⟩ := reached plainSource (by
        rintro ⟨fault, lost⟩
        simp only [find, lost, reduceCtorEq] at lookup)
      obtain ⟨other, ledAgain, fitsDestination⟩ := reached plainDestination (by
        rintro ⟨fault, lost⟩
        simp only [Store.destination, lost, reduceCtorEq] at opening)
      rw [find_join leads plainSource fitsSource] at lookup
      cases found : store.node? (home ++ [source]) with
      | none => simp only [found, reduceCtorEq] at lookup
      | some stands =>
        rw [destination_join leads plainDestination fitsDestination] at opening
        cases free : store.opened (home ++ [destination]) with
        | none => simp only [free, reduceCtorEq] at opening
        | some before =>
          obtain ⟨mark, old⟩ := before
          have result := @convert_of_opened render _ _ _ mode _ _ leads plainSource
            plainDestination fitsSource fitsDestination different _ _ _ found free
          cases stands with
          | directory =>
            rw [result]
            exact .begun leads fitsSource fitsDestination found free (by simp) fun _ => rfl
          | file executable content =>
            rcases statementsOf_file render (Path.join directory source) content with
              ⟨statements, count, read, whole⟩ | ⟨statements, count, failure, read, start⟩
            · simp only [Source.ofNode, read, concluded] at result
              rw [result]
              exact .completed leads fitsSource fitsDestination found free whole
            · simp only [Source.ofNode, read, concluded] at result
              rw [result]
              refine .begun leads fitsSource fitsDestination found free ?_ (by simp)
              rintro _ _ ⟨⟩
              exact start

namespace Converted

variable {result : EStateM.Result Failure Store Nat}

/-- A conversion keeps the directory. -/
theorem leads (step : Converted render directory source destination mode store result)
    (led : store.Leads directory home) : (endState result).Leads directory home := by
  cases step with
  | refused => exact led
  | begun leads _ _ found free => exact led.put _ (.inr (opened_ne_directory free))
  | @completed place _ _ _ _ _ _ leads _ _ found free =>
    refine (led.put place (.inr (opened_ne_directory free))).erase place ?_
    rw [node?_put_concat]
    split
    · simp
    · rw [found]
      simp

/-- A conversion changes nothing but its source and its destination. -/
theorem frame (step : Converted render directory source destination mode store result)
    (led : store.Leads directory home) {location : Location}
    (notSource : location ≠ home ++ [source]) (notDestination : location ≠ home ++ [destination]) :
    (endState result).node? location = store.node? location := by
  cases step with
  | refused => rfl
  | begun leads _ _ found free =>
    obtain rfl := led.unique leads
    rw [endState_error, node?_put_concat, if_neg notDestination]
  | completed leads =>
    obtain rfl := led.unique leads
    rw [endState_ok, node?_erase_concat, if_neg notSource, node?_put_concat, if_neg notDestination]

/-- Without its directory a conversion changes nothing. -/
theorem eq_of_nowhere (step : Converted render directory source destination mode store result)
    (nowhere : ∀ home, ¬store.Leads directory home) : endState result = store := by
  cases step with
  | refused => rfl
  | begun leads => exact absurd leads (nowhere _)
  | completed leads => exact absurd leads (nowhere _)

end Converted

end PowerTest
