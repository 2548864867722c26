import PowerTest.Proofs.Conversion.Jobs
import PowerTest.Proofs.Store.Confinement

/-!
# What comes to stand in a directory

A step of a run `Alters` a directory: what it changes lies below the directory, no directory goes,
none but run directories come, and the names that come to stand in the directory are of a known
kind. The steps on files of a run do so with the names that they write, removing brings nothing
(`steady_remove`), and a conversion brings its destination (`steady_job`).
-/

namespace PowerTest

open Steps

namespace Store

variable {store before middle after : Store} {directory name : String}
  {home location place : Location} {comes more : String → Prop}

/-- A change below a directory, given the kind of names that may come to stand in it. -/
structure Alters (home : Location) (comes : String → Prop) (before after : Store) : Prop where
  workingDirectory : after.workingDirectory = before.workingDirectory
  directories : ∀ location, before.node? location = some .directory →
    after.node? location = some .directory
  below : ∀ location, after.node? location = before.node? location ∨
    ∃ name rest, location = home ++ name :: rest
  made : ∀ name, after.node? (home ++ [name]) = some .directory →
    before.node? (home ++ [name]) = some .directory ∨
      ∃ milliseconds, name = (Artifact.runDirectory milliseconds).name
  new : ∀ name, before.node? (home ++ [name]) = none →
    after.node? (home ++ [name]) = none ∨ comes name

theorem alters_refl (home : Location) (comes : String → Prop) (store : Store) :
    Alters home comes store store :=
  ⟨rfl, fun _ stands => stands, fun _ => .inl rfl, fun _ => .inl, fun _ => .inl⟩

theorem Alters.trans (first : Alters home comes before middle)
    (second : Alters home comes middle after) : Alters home comes before after where
  workingDirectory := second.workingDirectory.trans first.workingDirectory
  directories location stands := second.directories location (first.directories location stands)
  below location := by
    rcases second.below location with same | below
    · rw [same]
      exact first.below location
    · exact .inr below
  made name stands := by
    rcases second.made name stands with earlier | run
    · exact first.made name earlier
    · exact .inr run
  new name missing := by
    rcases first.new name missing with stillMissing | known
    · exact second.new name stillMissing
    · exact .inr known

theorem Alters.mono (alters : Alters home comes before after)
    (wider : ∀ name, comes name → more name) : Alters home more before after :=
  { alters with new := fun name missing => (alters.new name missing).imp_right (wider name) }

theorem Alters.leads (alters : Alters home comes before after) (leads : before.Leads name place) :
    after.Leads name place :=
  leads.of_directories alters.workingDirectory alters.directories

/-- What is not below the directory stays as it is. -/
theorem Alters.kept (alters : Alters home comes before after)
    (outside : ∀ name rest, location ≠ home ++ name :: rest) :
    after.node? location = before.node? location := by
  rcases alters.below location with same | ⟨name, rest, here⟩
  · exact same
  · exact absurd here (outside name rest)

/-- A change of one place below the directory, where no directory was. -/
theorem alters_of_frame {rest : List String} (free : before.node? location ≠ some .directory)
    (here : location = home ++ name :: rest)
    (workingDirectory : after.workingDirectory = before.workingDirectory)
    (frame : ∀ other, other ≠ location → after.node? other = before.node? other)
    (made : rest = [] → after.node? location = some .directory →
      ∃ milliseconds, name = (Artifact.runDirectory milliseconds).name)
    (new : rest = [] → after.node? location = none ∨ comes name) :
    Alters home comes before after := by
  have named {other : String} (same : home ++ [other] = location) : other = name ∧ rest = [] :=
    have tail := List.append_cancel_left (same.trans here)
    ⟨(List.cons.inj tail).1, (List.cons.inj tail).2.symm⟩
  refine ⟨workingDirectory, fun other stands => ?_, fun other => ?_, fun other stands => ?_,
    fun other missing => ?_⟩
  · rw [frame other fun same => free (same ▸ stands)]
    exact stands
  · by_cases same : other = location
    · exact .inr ⟨name, rest, same.trans here⟩
    · exact .inl (frame other same)
  · by_cases same : home ++ [other] = location
    · obtain ⟨rfl, last⟩ := named same
      exact .inr (made last (same ▸ stands))
    · rw [frame _ same] at stands
      exact .inl stands
  · by_cases same : home ++ [other] = location
    · obtain ⟨rfl, last⟩ := named same
      rw [same]
      exact new last
    · rw [frame _ same]
      exact .inl missing

theorem alters_putFile {executable : Bool} {content : Bytes} (known : comes name)
    (free : before.node? (home ++ [name]) ≠ some .directory) :
    Alters home comes before (before.put (home ++ [name]) (.file executable content)) := by
  refine alters_of_frame free rfl rfl (fun other apart => ?_) (fun _ stands => ?_)
    fun _ => .inr known
  · rw [node?_put_concat, if_neg apart]
  · rw [node?_put_concat, if_pos rfl] at stands
    cases stands

theorem alters_erase {rest : List String}
    (free : before.node? (home ++ name :: rest) ≠ some .directory) :
    Alters home comes before (before.erase (home ++ name :: rest)) := by
  have view (other : Location) := node?_erase before (home ++ name :: rest) other
    (List.append_ne_nil_of_right_ne_nil _ (List.cons_ne_nil _ _))
  have gone : (before.erase (home ++ name :: rest)).node? (home ++ name :: rest) = none := by
    rw [view, if_pos rfl]
  refine alters_of_frame free rfl rfl (fun other apart => ?_) (fun _ stands => ?_)
    fun _ => .inl gone
  · rw [view, if_neg apart]
  · cases gone.symm.trans stands

theorem alters_putDirectory {milliseconds : Nat}
    (known : comes (Artifact.runDirectory milliseconds).name)
    (missing : before.node? (home ++ [(Artifact.runDirectory milliseconds).name]) = none) :
    Alters home comes before
      (before.put (home ++ [(Artifact.runDirectory milliseconds).name]) .directory) := by
  have free : before.node? (home ++ [(Artifact.runDirectory milliseconds).name]) ≠
      some .directory := by
    rw [missing]
    nofun
  refine alters_of_frame free rfl rfl (fun other apart => ?_) (fun _ _ => ⟨milliseconds, rfl⟩)
    fun _ => .inr known
  rw [node?_put_concat, if_neg apart]

theorem place_of_walk_single {node : Node} (plain : Path.IsPlain name)
    (led : store.walk home [name] = .ok (.present place node)) : place = home ++ [name] := by
  cases walk_eq_ok_iff.mp led with
  | stay => exact absurd rfl plain.notHere
  | up => exact absurd rfl plain.notAbove
  | down _ _ _ _ further =>
    cases further
    rfl

theorem place_of_leads_plain (plain : Path.IsPlain name) (led : store.Leads name place) :
    place = store.workingDirectory ++ [name] := by
  rw [Leads, origin, plain.not_isAbsolute, Path.names_of_single plain] at led
  exact place_of_walk_single plain led

/-- A path through a directory leads to the place of its last name. -/
theorem place_of_leads_join (leads : store.Leads directory home) (plain : Path.IsPlain name)
    (led : store.Leads (Path.join directory name) place) : place = home ++ [name] := by
  rw [Leads, origin, Path.isAbsolute_join plain.not_isAbsolute, ← origin, Path.names_join plain,
    walk_concat, show store.walk _ _ = _ from leads] at led
  exact place_of_walk_single plain led

end Store

open Store

/-! ## Steps that alter a directory -/

/-- Steps on files that alter a directory wherever they end. -/
def Steady {α : Type} (directory : String) (comes : String → Prop) (steps : Files α) : Prop :=
  ∀ store home, store.Leads directory home → Alters home comes store (endState (steps store))

variable {α β : Type} {directory name : String} {home : Location} {comes : String → Prop}

namespace Steady

theorem pure (value : α) : Steady directory comes (Pure.pure value) :=
  fun store home _ => alters_refl home comes store

theorem bind {steps : Files α} {next : α → Files β} (first : Steady directory comes steps)
    (second : ∀ value, Steady directory comes (next value)) :
    Steady directory comes (steps >>= next) := by
  intro store home leads
  refine endState_bind (first store home leads) fun value middle _ start => ?_
  exact start.trans (second value middle home (start.leads leads))

theorem change {blame : Fault → Failure} {operation : Store → Except Fault Store}
    (done : ∀ store after home, store.Leads directory home → operation store = .ok after →
      Alters home comes store after) :
    Steady directory comes (Files.change blame operation) :=
  fun store home leads => Files.endState_change (alters_refl home comes store)
    fun after ran => done store after home leads ran

/-- Steps that only look alter nothing. -/
theorem of_same {steps : Files α} (same : ∀ store, endState (steps store) = store) :
    Steady directory comes steps := by
  intro store home _
  rw [same]
  exact alters_refl home comes store

theorem inspect {blame : Fault → Failure} {query : Store → Except Fault α} :
    Steady directory comes (Files.inspect blame query) :=
  of_same (Files.endState_inspect blame query)

end Steady

/-- Removing a file below a directory brings nothing. -/
theorem steady_remove {blame : Fault → Failure} (descends : Path.Descends name) :
    Steady directory comes (Files.change blame (·.remove (Path.join directory name))) := by
  refine .change fun store after home leads removed => ?_
  obtain ⟨location, executable, content, found, rfl⟩ := remove_eq_ok_iff.mp removed
  obtain ⟨other, first, more, led, rfl⟩ :=
    (inside_join descends).found store location executable content found
  obtain rfl := led.unique leads
  exact alters_erase (by simp [node?_of_find found])

theorem steady_removeFiles {names : List String} (descend : ∀ name ∈ names, Path.Descends name) :
    Steady directory comes (removeFiles directory names) := by
  induction names with
  | nil => exact .pure ()
  | cons name rest ih =>
    obtain ⟨descends, others⟩ := List.forall_mem_cons.mp descend
    exact .bind (steady_remove descends) fun _ => ih others

theorem steady_write {content : Bytes} {blame : Fault → Failure} (plain : Path.IsPlain name)
    (known : comes name) :
    Steady directory comes (Files.change blame (·.write (Path.join directory name) content)) := by
  refine .change fun store after home leads written => ?_
  obtain ⟨_, _, _, opens, rfl⟩ := write_eq_ok_iff.mp written
  obtain ⟨place, led, _, rfl, free⟩ := opened_of_destination plain opens
  obtain rfl := led.unique leads
  exact alters_putFile known free

theorem steady_writeFragments {stem : String} {pieces : List String}
    (plain : ∀ number, Path.IsPlain (fragmentName stem number))
    (known : ∀ number, comes (fragmentName stem number)) (number : Nat) :
    Steady directory comes (writeFragments directory stem number pieces) := by
  induction pieces generalizing number with
  | nil => exact .pure _
  | cons piece rest ih =>
    exact .bind (steady_write (plain number) (known number)) fun _ =>
      .bind (ih (number + 1)) fun _ => .pure _

/-- A conversion brings its destination. -/
theorem steady_job {job : Job} (proper : job.source ≠ job.destination)
    (known : comes job.destination.name) : Steady directory comes (job.run directory) := by
  intro store home leads
  have step := Job.converted_run directory proper store
  generalize job.run directory store = result at step ⊢
  cases step with
  | refused => exact alters_refl home comes store
  | begun led _ _ _ free =>
    obtain rfl := led.unique leads
    exact alters_putFile known (opened_ne_directory free)
  | @completed place _ _ _ _ _ _ led _ _ found free =>
    obtain rfl := led.unique leads
    refine (alters_putFile known (opened_ne_directory free)).trans (alters_erase ?_)
    rw [node?_put_concat, if_neg (Job.name_ne place proper), found]
    simp

theorem steady_runAll {jobs : List Job} (proper : ∀ job ∈ jobs, job.source ≠ job.destination)
    (known : ∀ job ∈ jobs, comes job.destination.name) :
    Steady directory comes (Job.runAll directory jobs) := by
  induction jobs with
  | nil => exact .pure ()
  | cons job rest ih =>
    obtain ⟨properJob, properRest⟩ := List.forall_mem_cons.mp proper
    obtain ⟨knownJob, knownRest⟩ := List.forall_mem_cons.mp known
    exact .bind (steady_job properJob knownJob) fun _ => ih properRest knownRest

/-- The source of the first job is gone in the end unless a later job makes it. -/
theorem consumed_of_runAll {job : Job} {rest : List Job} {store after : Store}
    (proper : ∀ other ∈ job :: rest, other.source ≠ other.destination)
    (fresh : ∀ other ∈ rest, other.destination ≠ job.source) (leads : store.Leads directory home)
    (done : Job.runAll directory (job :: rest) store = .ok () after) :
    after.Leads directory home ∧ Fits directory job.source.name ∧
      after.node? (home ++ [job.source.name]) = none := by
  obtain ⟨properJob, properRest⟩ := List.forall_mem_cons.mp proper
  obtain ⟨_, middle, first, later⟩ := bind_eq_ok_iff.mp done
  obtain ⟨_, _, _, _, _, ⟨fits, _⟩, _, _, _, gone, _⟩ :=
    Job.script_of_succeeded properJob leads first
  have led := (Job.converted_run directory properJob store).leads leads
  rw [first] at led
  have others : Steady directory (· ≠ job.source.name) (Job.runAll directory rest) :=
    steady_runAll properRest fun other member same =>
      fresh other member (Artifact.eq_of_name_eq same)
  have alters := others middle home led
  rw [later] at alters
  rcases alters.new job.source.name gone with still | other
  · exact ⟨alters.leads led, fits, still⟩
  · exact absurd rfl other

end PowerTest
