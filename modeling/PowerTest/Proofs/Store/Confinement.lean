import Mathlib.Data.List.Induction
import PowerTest.Conversion
import PowerTest.Fragment
import PowerTest.Proofs.Steps
import PowerTest.Proofs.Store.Growth
import PowerTest.Staging

/-!
# What stays below a path

A relative path that never turns upwards `Descends`: joined to a directory, it leads nowhere but
below the directory, whatever the store holds (`inside_join`). `Confined` says of a change that all
it did lies below a path, directories on the way along the path apart; `Stays` says it of steps on
files, and the steps of a run stay where their paths are.
-/

namespace PowerTest

open Steps

namespace Path

/-- A relative path that never turns upwards. -/
structure Descends (path : String) : Prop where
  relative : isAbsolute path = false
  level : ".." ∉ names path

variable {directory name : String}

theorem IsPlain.descends (plain : IsPlain name) : Descends name := by
  refine ⟨plain.not_isAbsolute, ?_⟩
  rw [names_of_single plain, List.mem_singleton]
  exact plain.notAbove.symm

theorem cutFrom_of_current_ne_nil (mark : Char → Bool) {current : List Char}
    (some : current ≠ []) (rest : List Char) :
    ∃ piece others, Text.cutFrom mark current rest = piece :: others ∧ piece ≠ [] := by
  induction rest generalizing current with
  | nil => exact ⟨_, [], rfl, List.reverse_ne_nil_iff.mpr some⟩
  | cons first rest ih =>
    rw [Text.cutFrom]
    split
    · exact ⟨_, _, rfl, List.reverse_ne_nil_iff.mpr some⟩
    · exact ih (List.cons_ne_nil _ _)

theorem names_ne_nil (relative : isAbsolute name = false) (some : name ≠ "") : names name ≠ [] := by
  cases spelled : name.toList with
  | nil => exact absurd (String.toList_eq_nil_iff.mp spelled) some
  | cons first rest =>
    have other : (first == '/') = false := by
      rw [isAbsolute, spelled] at relative
      exact relative
    obtain ⟨piece, others, cut, nonempty⟩ :=
      cutFrom_of_current_ne_nil (· == '/') (List.cons_ne_nil first []) rest
    rw [names, spelled, Text.cut, Text.cutFrom, other, if_neg Bool.false_ne_true, cut]
    simp [nonempty]

/-- Joined to nothing, a directory is spelled with a slash at its end. -/
theorem endsInSlash_join_empty (some : (join directory "").isEmpty = false) :
    endsInSlash (join directory "") = true := by
  have relative : isAbsolute "" = false := rfl
  rw [endsInSlash, join_toList relative]
  split
  · rename_i open_
    rcases Bool.or_eq_true_iff.mp open_ with empty | slash
    · rw [String.isEmpty_iff.mp empty] at some
      cases some
    · have none : "".toList = [] := rfl
      rw [none, List.append_nil]
      exact slash
  · simp

end Path

namespace Store

variable {store before middle after : Store} {directory path name : String}
  {home location : Location} {target : Target} {mark executable : Bool} {content : Bytes}

/-! ## Paths that lead below a directory -/

theorem walk_step (level : name ≠ "..") (reached : store.walk home [name] = .ok target) :
    home <+: target.location := by
  cases walk_eq_ok_iff.mp reached with
  | stay _ further =>
    cases further
    exact List.prefix_rfl
  | up => exact absurd rfl level
  | down _ _ _ _ further =>
    cases further
    exact List.prefix_append home [name]
  | missing => exact List.prefix_append home [name]

/-- Names that never turn upwards lead on from a directory to what lies below it. -/
theorem walk_below {start : Location} {front back : List String} (level : ".." ∉ back)
    (some : back ≠ []) (reached : store.walk start (front ++ back) = .ok target) :
    ∃ home, store.walk start front = .ok (.present home .directory) ∧ home <+: target.location := by
  induction back using List.reverseRecOn generalizing target with
  | nil => exact absurd rfl some
  | append_singleton back name ih =>
    have levelBack : ".." ∉ back := fun member => level (List.mem_append_left [name] member)
    have levelName : name ≠ ".." := by
      rintro rfl
      exact level (List.mem_append_right back (List.mem_singleton_self ".."))
    rw [← List.append_assoc, walk_concat] at reached
    cases arrived : store.walk start (front ++ back) with
    | error fault =>
      rw [arrived] at reached
      cases reached
    | ok between =>
      rw [arrived] at reached
      rcases between with ⟨place, _ | _⟩ | place
      · have step : place <+: target.location := walk_step levelName reached
        by_cases last : back = []
        · subst last
          rw [List.append_nil] at arrived
          exact ⟨place, arrived, step⟩
        · obtain ⟨home, first, below⟩ := ih levelBack last arrived
          exact ⟨home, first, below.trans step⟩
      · cases reached
      · cases reached

/-- A location below the directory that a path leads to. -/
def Below (store : Store) (path : String) (location : Location) : Prop :=
  ∃ home name rest, store.Leads path home ∧ location = home ++ name :: rest

theorem locate_of_target {node : Node} (same : after.workingDirectory = store.workingDirectory)
    (stay : ∀ location, store.node? location = some .directory →
      after.node? location = some .directory)
    (stands : after.node? target.location = some node)
    (reached : store.locate path = .ok target) :
    after.locate path = .ok (.present target.location node) := by
  obtain ⟨some, clean, short, led⟩ := locate_eq_ok_iff.mp reached
  refine locate_eq_ok_iff.mpr ⟨some, clean, short, ?_⟩
  rw [origin, same]
  exact walk_of_target stay stands led

/-- What stands below a directory that a path leads to, and is not the directory, lies below. -/
theorem below_of_locate (descends : Path.Descends name) (some : name ≠ "")
    (reached : store.locate (Path.join directory name) = .ok target)
    (other : store.node? target.location ≠ .some .directory) :
    store.Below directory target.location := by
  obtain ⟨_, _, _, led⟩ := locate_eq_ok_iff.mp reached
  rw [origin, Path.isAbsolute_join descends.relative, ← origin,
    Path.names_join_of_relative descends.relative] at led
  obtain ⟨home, leads, rest, below⟩ :=
    walk_below descends.level (Path.names_ne_nil descends.relative some) led
  rw [← below] at other ⊢
  cases rest with
  | nil =>
    rw [List.append_nil] at other
    exact absurd (walk_eq_present leads) other
  | cons first rest => exact ⟨home, first, rest, leads, rfl⟩

/-- A path below another leads below it. -/
theorem below_of_below_join (descends : Path.Descends name)
    (below : store.Below (Path.join directory name) location) : store.Below directory location := by
  obtain ⟨place, first, rest, leads, rfl⟩ := below
  by_cases some : Path.names name = []
  · refine ⟨place, first, rest, ?_, rfl⟩
    rwa [Leads, origin, Path.isAbsolute_join descends.relative, ← origin,
      Path.names_join_of_relative descends.relative, some, List.append_nil] at leads
  · rw [Leads, origin, Path.isAbsolute_join descends.relative, ← origin,
      Path.names_join_of_relative descends.relative] at leads
    obtain ⟨home, led, between, below⟩ := walk_below descends.level some leads
    have whole : place = home ++ between := below.symm
    rw [whole, List.append_assoc]
    cases between with
    | nil => exact ⟨home, first, rest, led, rfl⟩
    | cons next others => exact ⟨home, next, others ++ first :: rest, led, rfl⟩

/-- A path whose file, written or found, lies below a directory in every store. -/
structure Inside (directory path : String) : Prop where
  written : ∀ store location mark content,
    Store.destination store path = .ok (location, mark, content) →
      Store.Below store directory location ∧ Store.node? store location ≠ some .directory
  found : ∀ store location executable content,
    Store.find store path = .ok (location, .file executable content) →
      Store.Below store directory location

theorem locate_of_destination (opened : store.destination path = .ok (location, mark, content)) :
    ∃ target, store.locate path = .ok target ∧ target.location = location ∧
      store.node? location ≠ some .directory ∧ Path.endsInSlash path = false := by
  rw [destination] at opened
  split at opened
  · cases opened
  · cases opened
  · rename_i place executable old reached
    split at opened
    · cases opened
    rename_i closed
    obtain ⟨rfl, _⟩ := Prod.mk.inj (Except.ok.inj opened)
    have stands : store.node? place = some (.file executable old) := node?_of_locate reached
    exact ⟨_, reached, rfl, by simp [stands], Bool.not_eq_true _ ▸ closed⟩
  · rename_i place reached
    split at opened
    · cases opened
    rename_i closed
    obtain ⟨rfl, _⟩ := Prod.mk.inj (Except.ok.inj opened)
    have nothing : store.node? place = none := node?_of_locate reached
    exact ⟨_, reached, rfl, by simp [nothing], Bool.not_eq_true _ ▸ closed⟩

/-- The file that is opened under a plain name of a directory stands in it. -/
theorem opened_of_destination (plain : Path.IsPlain name)
    (opens : store.destination (Path.join directory name) = .ok (location, mark, content)) :
    ∃ home, store.Leads directory home ∧ Fits directory name ∧ location = home ++ [name] ∧
      store.node? location ≠ some .directory := by
  obtain ⟨reached, led, _, free, _⟩ := locate_of_destination opens
  obtain ⟨home, leads, fits⟩ := leads_of_locate_join plain led
  rw [destination_join leads plain fits] at opens
  split at opens
  · cases opens
  · obtain ⟨here, _⟩ := Prod.mk.inj (Except.ok.inj opens)
    exact ⟨home, leads, fits, here.symm, free⟩

theorem inside_join (descends : Path.Descends name) :
    Inside directory (Path.join directory name) := by
  -- Without a name the path asks for a directory, so no file is written or found there.
  have named {store : Store} {target : Target}
      (reached : store.locate (Path.join directory name) = .ok target)
      (closed : Path.endsInSlash (Path.join directory name) = false) : name ≠ "" := by
    rintro rfl
    have slash := Path.endsInSlash_join_empty (locate_eq_ok_iff.mp reached).1
    cases closed.symm.trans slash
  constructor
  · intro store location mark content opened
    obtain ⟨target, reached, rfl, other, closed⟩ := locate_of_destination opened
    exact ⟨below_of_locate descends (named reached closed) reached other, other⟩
  · intro store location executable content found
    have reached := locate_of_find found
    have stands := node?_of_find found
    have closed : Path.endsInSlash (Path.join directory name) = false := by
      rw [find, reached] at found
      simp only at found
      split at found
      · cases found
      · rename_i closed
        exact Bool.not_eq_true _ ▸ closed
    exact below_of_locate descends (named reached closed) reached (by simp [Target.location, stands])

theorem Inside.of_join (descends : Path.Descends name)
    (inside : Inside (Path.join directory name) path) : Inside directory path := by
  constructor
  · intro store location mark content opened
    obtain ⟨below, other⟩ := inside.written store location mark content opened
    exact ⟨below_of_below_join descends below, other⟩
  · intro store location executable content found
    exact below_of_below_join descends (inside.found store location executable content found)

/-! ## Changes below a path -/

/-- A change that lies below a path or made directories along it. -/
structure Confined (path : String) (before after : Store) : Prop where
  workingDirectory : after.workingDirectory = before.workingDirectory
  /-- No directory is removed or replaced, so paths keep leading where they did. -/
  directories : ∀ location, before.node? location = some .directory →
    after.node? location = some .directory
  changes : ∀ location, after.node? location = before.node? location ∨
    after.Below path location ∨
      before.node? location = none ∧ after.node? location = some .directory ∧
        ∃ above ∈ along path, after.Leads above location

theorem confined_refl (path : String) (store : Store) : Confined path store store :=
  ⟨rfl, fun _ stands => stands, fun _ => .inl rfl⟩

theorem Confined.leads (confined : Confined path before after) (leads : before.Leads name home) :
    after.Leads name home :=
  leads.of_directories confined.workingDirectory confined.directories

theorem Confined.below (confined : Confined path before after)
    (below : before.Below name location) : after.Below name location := by
  obtain ⟨home, first, rest, leads, rfl⟩ := below
  exact ⟨home, first, rest, confined.leads leads, rfl⟩

theorem Confined.trans (first : Confined path before middle) (second : Confined path middle after) :
    Confined path before after := by
  refine ⟨second.workingDirectory.trans first.workingDirectory,
    fun location stands => second.directories _ (first.directories _ stands), fun location => ?_⟩
  rcases first.changes location with same | below | ⟨nothing, directory, above, member, leads⟩
  · rw [← same]
    exact second.changes location
  · exact .inr (.inl (second.below below))
  · have stays := second.directories location directory
    exact .inr (.inr ⟨nothing, stays, above, member, second.leads leads⟩)

theorem confined_of_madeAlong (made : MadeAlong (along path) before after) :
    Confined path before after := by
  have grows := made.grows
  refine ⟨made.workingDirectory, fun place => grows.stay place .directory, fun location => ?_⟩
  exact (made.changes location).imp_right .inr

theorem confined_of_frame (below : before.Below path location)
    (workingDirectory : after.workingDirectory = before.workingDirectory)
    (directories : ∀ place, before.node? place = some .directory →
      after.node? place = some .directory)
    (frame : ∀ place, place ≠ location → after.node? place = before.node? place) :
    Confined path before after := by
  refine ⟨workingDirectory, directories, fun place => ?_⟩
  by_cases here : place = location
  · subst here
    obtain ⟨home, first, rest, leads, rfl⟩ := below
    exact .inr (.inl ⟨home, first, rest, leads.of_directories workingDirectory directories, rfl⟩)
  · exact .inl (frame place here)

theorem Below.ne_nil (below : before.Below path location) : location ≠ [] := by
  obtain ⟨home, first, rest, _, rfl⟩ := below
  exact List.append_ne_nil_of_right_ne_nil _ (List.cons_ne_nil _ _)

theorem confined_put {node : Node} (below : before.Below path location)
    (free : node = .directory ∨ before.node? location ≠ some .directory) :
    Confined path before (before.put location node) := by
  have view (place : Location) := node?_put before location place node below.ne_nil
  refine confined_of_frame below rfl (fun place stands => ?_) fun place other => ?_
  · rw [view]
    split
    · rename_i here
      subst here
      rcases free with rfl | free
      · rfl
      · exact absurd stands free
    · exact stands
  · rw [view, if_neg other]

theorem confined_erase (below : before.Below path location)
    (free : before.node? location ≠ some .directory) :
    Confined path before (before.erase location) := by
  have view (place : Location) := node?_erase before location place below.ne_nil
  refine confined_of_frame below rfl (fun place stands => ?_) fun place other => ?_
  · have other : place ≠ location := fun here => free (here ▸ stands)
    rw [view, if_neg other]
    exact stands
  · rw [view, if_neg other]

/-- Whatever is put where a path opens a file. -/
theorem confined_of_destination (inside : Inside directory path)
    (opened : before.destination path = .ok (location, mark, content)) (node : Node) :
    Confined directory before (before.put location node) := by
  obtain ⟨below, other⟩ := inside.written before location mark content opened
  exact confined_put below (.inr other)

theorem confined_write (inside : Inside directory path)
    (written : before.write path content = .ok after) : Confined directory before after := by
  obtain ⟨_, _, _, opened, rfl⟩ := write_eq_ok_iff.mp written
  exact confined_of_destination inside opened _

theorem confined_append (inside : Inside directory path)
    (written : before.append path content = .ok after) : Confined directory before after := by
  obtain ⟨_, _, _, opened, rfl⟩ := append_eq_ok_iff.mp written
  exact confined_of_destination inside opened _

theorem confined_copy {source : String} (inside : Inside directory path)
    (copied : before.copy source path = .ok after) : Confined directory before after := by
  obtain ⟨_, _, _, _, _, _, _, opened, rfl⟩ := copy_eq_ok_iff.mp copied
  exact confined_of_destination inside opened _

theorem confined_remove (inside : Inside directory path)
    (removed : before.remove path = .ok after) : Confined directory before after := by
  obtain ⟨location, executable, content, found, rfl⟩ := remove_eq_ok_iff.mp removed
  have stands := node?_of_find found
  exact confined_erase (inside.found _ _ _ _ found) (by simp [stands])

theorem confined_makeDirectory (plain : Path.IsPlain name)
    (made : before.makeDirectory (Path.join directory name) = .ok after) :
    Confined directory before after := by
  obtain ⟨location, lost, rfl⟩ := makeDirectory_eq_ok_iff.mp made
  have nothing : before.node? location = none := node?_of_locate lost
  have below := below_of_locate plain.descends plain.nonempty lost
    (by simp [Target.location, nothing])
  exact confined_put below (.inl rfl)

end Store

/-! ## Steps that stay below a path -/

open Store

/-- Steps on files that change nothing but what lies below a path, wherever they end. -/
def Stays {α : Type} (path : String) (steps : Files α) : Prop :=
  ∀ store, Confined path store (endState (steps store))

namespace Stays

variable {α β : Type} {path : String}

theorem pure (value : α) : Stays path (Pure.pure value) :=
  fun store => confined_refl path store

theorem throw (failure : Failure) : Stays path (MonadExcept.throw failure : Files α) :=
  fun store => confined_refl path store

theorem bind {steps : Files α} {next : α → Files β} (first : Stays path steps)
    (second : ∀ value, Stays path (next value)) : Stays path (steps >>= next) :=
  fun store => endState_bind (first store) fun value middle _ start =>
    start.trans (second value middle)

theorem change {blame : Fault → Failure} {operation : Store → Except Fault Store}
    (done : ∀ store after, operation store = .ok after → Confined path store after) :
    Stays path (Files.change blame operation) :=
  fun store => Files.endState_change (confined_refl path store) (done store)

/-- Steps that only look stay anywhere. -/
theorem of_same {steps : Files α} (same : ∀ store, endState (steps store) = store) :
    Stays path steps := by
  intro store
  rw [same]
  exact confined_refl path store

theorem inspect {blame : Fault → Failure} {query : Store → Except Fault α} :
    Stays path (Files.inspect blame query) :=
  of_same (Files.endState_inspect blame query)

theorem openSource {source : String} : Stays path (PowerTest.openSource source) := by
  apply of_same
  intro store
  rw [PowerTest.openSource]
  cases Source.openAt store source <;> rfl

end Stays

variable {directory name : String}

theorem stays_ensureDirectory (directory : String) :
    Stays directory (ensureDirectory directory) := by
  intro store
  have made := confined_of_madeAlong (madeAlong_makeDirectories store directory)
  rw [ensureDirectory]
  split
  · exact confined_refl directory store
  · split
    · rename_i after done
      rwa [done] at made
    · rename_i after fault done
      rwa [done] at made

theorem stays_copyFiles {origin : String} {names : List String}
    (descend : ∀ name ∈ names, Path.Descends name) :
    Stays directory (copyFiles origin directory names) := by
  induction names with
  | nil => exact .pure ()
  | cons name rest ih =>
    obtain ⟨descends, others⟩ := List.forall_mem_cons.mp descend
    have one : Stays directory (copyFile origin directory name) := by
      intro store
      rw [copyFile]
      split
      · exact Stays.change (fun _ _ => confined_copy (inside_join descends)) store
      · exact confined_refl directory store
    exact one.bind fun _ => ih others

theorem stays_removeFiles {names : List String} (descend : ∀ name ∈ names, Path.Descends name) :
    Stays directory (removeFiles directory names) := by
  induction names with
  | nil => exact .pure ()
  | cons name rest ih =>
    obtain ⟨descends, others⟩ := List.forall_mem_cons.mp descend
    have inside : Inside directory (Path.join directory name) := inside_join descends
    exact .bind (.change fun _ _ => confined_remove inside) fun _ => ih others

theorem stays_convert {render : Record → List String} {source destination : String}
    {mode : WriteMode} (insideSource : Inside directory source)
    (insideDestination : Inside directory destination) :
    Stays directory (convert render source destination mode) := by
  have opened (store after : Store)
      (done : store.openDestination destination mode = .ok after) :
      Confined directory store after := by
    cases mode with
    | overwrite => exact confined_write insideDestination done
    | append => exact confined_append insideDestination done
  refine .bind .openSource fun _ => .bind (.change opened) fun _ => .bind .openSource fun items => ?_
  refine .bind (.change fun _ _ => confined_append insideDestination) fun _ => ?_
  split
  · exact .throw _
  · exact .bind (.change fun _ _ => confined_remove insideSource) fun _ => .pure _

theorem stays_writeFragments {stem : String} {pieces : List String}
    (plain : ∀ number, Path.IsPlain (fragmentName stem number)) (number : Nat) :
    Stays directory (writeFragments directory stem number pieces) := by
  induction pieces generalizing number with
  | nil => exact .pure _
  | cons piece rest ih =>
    have inside : Inside directory (Path.join directory (fragmentName stem number)) :=
      inside_join (plain number).descends
    exact .bind (.change fun _ _ => confined_write inside) fun _ =>
      .bind (ih (number + 1)) fun _ => .pure _

end PowerTest
