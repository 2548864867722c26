import PowerTest.Proofs.Conversion.Effect
import PowerTest.Proofs.Names

/-!
# Conversions in a row

The conversions of a run are jobs in a row that stop at the first one that fails. A job
`Conserves` its source: the file is there, or its complete conversion is. One job keeps this for
itself and for every job with other files, and so does a row of jobs.
-/

namespace PowerTest

open Steps Store

/-- A conversion between two artifacts. -/
structure Job where
  render : Record → List String
  source : Artifact
  destination : Artifact
  mode : WriteMode

/-- A file that can be opened where it stands. -/
def Store.Openable (store : Store) (directory : String) (home : Location) (artifact : Artifact)
    (executable : Bool) (content : Bytes) : Prop :=
  Fits directory artifact.name ∧
    store.node? (home ++ [artifact.name]) = some (.file executable content)

namespace Job

def run (directory : String) (job : Job) : Files Nat :=
  convert job.render (job.source.path directory) (job.destination.path directory) job.mode

/-- Jobs up to the first that fails. -/
def runAll (directory : String) : List Job → Files Unit
  | [] => pure ()
  | job :: rest => do
    let _ ← job.run directory
    runAll directory rest

/-- Two jobs with no file in common. -/
structure Apart (job other : Job) : Prop where
  sources : job.source ≠ other.source
  destinations : job.destination ≠ other.destination
  outward : job.source ≠ other.destination
  inward : job.destination ≠ other.source

/-- A job's source is as it was before, or there is its complete conversion instead. -/
def Conserves (job : Job) (directory : String) (home : Location) (before after : Store) : Prop :=
  ∀ executable content,
    before.node? (home ++ [job.source.name]) = some (.file executable content) →
      after.node? (home ++ [job.source.name]) = some (.file executable content) ∨
        after.node? (home ++ [job.source.name]) = none ∧
          ∃ mark script, Converts job.render content script ∧
            Fits directory job.destination.name ∧
            after.node? (home ++ [job.destination.name]) = some (.file mark script)

variable {directory : String} {home location : Location} {before store after : Store}
  {job other : Job} {jobs : List Job}

theorem runAll_append (directory : String) (first second : List Job) :
    runAll directory (first ++ second) = (do runAll directory first; runAll directory second) := by
  induction first with
  | nil => rfl
  | cons job rest ih =>
    simp only [List.cons_append, runAll, bind_assoc]
    exact congrArg (_ >>= ·) (funext fun _ => ih)

theorem runAll_of_error {failure : Failure} (ran : job.run directory store = .error failure after)
    (rest : List Job) : runAll directory (job :: rest) store = .error failure after :=
  bind_eq_of_error ran _

theorem runAll_of_ok {count : Nat} (ran : job.run directory store = .ok count after)
    (rest : List Job) : runAll directory (job :: rest) store = runAll directory rest after :=
  bind_eq_of_ok ran _

theorem endState_runAll_singleton (directory : String) (job : Job) (store : Store) :
    endState (runAll directory [job] store) = endState (job.run directory store) := by
  cases ran : job.run directory store with
  | error failure after => rw [runAll_of_error ran]; rfl
  | ok count after => rw [runAll_of_ok ran]; rfl

theorem name_ne (home : Location) {first second : Artifact} (different : first ≠ second) :
    home ++ [first.name] ≠ home ++ [second.name] :=
  fun same => different (Artifact.eq_of_name_eq (concat_inj.mp same))

theorem converted_run (directory : String) (proper : job.source ≠ job.destination)
    (store : Store) :
    Converted job.render directory job.source.name job.destination.name job.mode store
      (job.run directory store) :=
  converted_convert _ _ _ _ job.source.isPlain_name job.destination.isPlain_name fun same =>
    proper (Artifact.eq_of_name_eq same)

/-! ## One job -/

/-- A job that overwrites its destination conserves its source. -/
theorem conserves_run (proper : job.source ≠ job.destination) (anew : job.mode = .overwrite)
    (leads : store.Leads directory home) (conserved : job.Conserves directory home before store) :
    job.Conserves directory home before (endState (job.run directory store)) := by
  intro executable content present
  have known := conserved executable content present
  have apart := name_ne home proper
  have step := converted_run directory proper store
  generalize job.run directory store = result at step ⊢
  cases step with
  | refused => exact known
  | begun led _ _ found free =>
    obtain rfl := leads.unique led
    rcases known with stays | ⟨gone, _⟩
    · left
      rw [endState_error, node?_put_concat, if_neg apart, stays]
    -- A source that is gone is not opened.
    · cases gone.symm.trans found
  | @completed _ _ mark _ _ script _ led _ fits found free whole =>
    obtain rfl := leads.unique led
    rcases known with stays | ⟨gone, _⟩
    · obtain ⟨rfl, rfl⟩ := Node.file.inj (Option.some.inj (stays.symm.trans found))
      right
      refine ⟨?_, mark, script, whole, fits, ?_⟩
      · rw [endState_ok, node?_erase_concat, if_pos rfl]
      · rw [endState_ok, node?_erase_concat, if_neg apart.symm, node?_put_concat, if_pos rfl,
          anew, WriteMode.base, List.nil_append]
    · cases gone.symm.trans found

/-- Where nothing happens to a job's files, its source stays conserved. -/
theorem Conserves.of_frame (conserved : job.Conserves directory home before store)
    (source : after.node? (home ++ [job.source.name]) = store.node? (home ++ [job.source.name]))
    (destination : after.node? (home ++ [job.destination.name]) =
      store.node? (home ++ [job.destination.name])) :
    job.Conserves directory home before after := by
  intro executable content present
  rw [source, destination]
  exact conserved executable content present

theorem conserves_refl (job : Job) (directory : String) (home : Location) (store : Store) :
    job.Conserves directory home store store :=
  fun _ _ present => .inl present

/-! ## Jobs in a row -/

/-- What every job keeps a row of jobs keeps. -/
theorem runAll_keeps {motive : Store → Prop}
    (step : ∀ job ∈ jobs, ∀ store, motive store → motive (endState (job.run directory store)))
    (start : motive store) : motive (endState (runAll directory jobs store)) := by
  induction jobs generalizing store with
  | nil => exact start
  | cons job rest ih =>
    have next := step job List.mem_cons_self store start
    cases ran : job.run directory store with
    | error failure after =>
      rw [ran] at next
      rw [runAll_of_error ran]
      exact next
    | ok count after =>
      rw [ran] at next
      rw [runAll_of_ok ran]
      exact ih (fun job member => step job (List.mem_cons_of_mem _ member)) next

theorem leads_runAll (jobs : List Job) (proper : ∀ job ∈ jobs, job.source ≠ job.destination)
    (leads : store.Leads directory home) :
    (endState (runAll directory jobs store)).Leads directory home :=
  runAll_keeps (motive := (·.Leads directory home))
    (fun job member _ led => (converted_run directory (proper job member) _).leads led) leads

section Row

variable (proper : ∀ job ∈ jobs, job.source ≠ job.destination)

include proper

/-- Jobs change nothing but their sources and destinations. -/
theorem frame_runAll (leads : store.Leads directory home)
    (untouched : ∀ job ∈ jobs, location ≠ home ++ [job.source.name] ∧
      location ≠ home ++ [job.destination.name]) :
    (endState (runAll directory jobs store)).Leads directory home ∧
      (endState (runAll directory jobs store)).node? location = store.node? location := by
  refine runAll_keeps (motive := fun after =>
    after.Leads directory home ∧ after.node? location = store.node? location) ?_ ⟨leads, rfl⟩
  intro job member after ⟨led, same⟩
  have step := converted_run directory (proper job member) after
  obtain ⟨notSource, notDestination⟩ := untouched job member
  exact ⟨step.leads led, (step.frame led notSource notDestination).trans same⟩

/-- Without their directory jobs change nothing. -/
theorem runAll_of_nowhere (nowhere : ∀ home, ¬store.Leads directory home) :
    endState (runAll directory jobs store) = store := by
  refine runAll_keeps (motive := (· = store)) ?_ rfl
  rintro job member _ rfl
  exact (converted_run directory (proper job member) _).eq_of_nowhere nowhere

/-- A job that may be repeated in a row of jobs conserves its source if the others have no file in
common with it. -/
theorem conserves_runAll (anew : job.mode = .overwrite)
    (others : ∀ other ∈ jobs, other = job ∨ job.Apart other)
    (leads : store.Leads directory home) (conserved : job.Conserves directory home before store) :
    (endState (runAll directory jobs store)).Leads directory home ∧
      job.Conserves directory home before (endState (runAll directory jobs store)) := by
  refine runAll_keeps (motive := fun after =>
    after.Leads directory home ∧ job.Conserves directory home before after) ?_ ⟨leads, conserved⟩
  intro other member store ⟨led, known⟩
  have step := converted_run directory (proper other member) store
  refine ⟨step.leads led, ?_⟩
  rcases others other member with rfl | apart
  · exact conserves_run (proper _ member) anew led known
  · exact known.of_frame
      (step.frame led (name_ne home apart.sources) (name_ne home apart.outward))
      (step.frame led (name_ne home apart.inward) (name_ne home apart.destinations))

end Row

/-! ## Two jobs with one destination -/

/-- A part of a script that comes from the source of a job, all of it if the source is gone. -/
def Contributes (job : Job) (directory : String) (home : Location) (before after : Store)
    (part : Bytes) : Prop :=
  (∃ executable content, before.Openable directory home job.source executable content ∧
    ConvertsStart job.render content part ∧
    (after.node? (home ++ [job.source.name]) = none → Converts job.render content part)) ∨
    (∀ executable content, ¬before.Openable directory home job.source executable content) ∧
      part = []

/-- What two jobs leave that fill one script: nothing happens to the second source before the
script of the first is complete, and what follows that script comes from the second source. -/
structure FillsOne (first second : Job) (directory : String) (home : Location)
    (before after : Store) : Prop where
  front : ∀ executable content,
    before.node? (home ++ [first.source.name]) = some (.file executable content) →
      after.node? (home ++ [first.source.name]) = some (.file executable content) ∨
        after.node? (home ++ [first.source.name]) = none ∧
          ∃ mark script rest, Converts first.render content script ∧
            second.Contributes directory home before after rest ∧
            Fits directory first.destination.name ∧
            after.node? (home ++ [first.destination.name]) = some (.file mark (script ++ rest))
  back : ∀ executable content,
    before.node? (home ++ [second.source.name]) = some (.file executable content) →
      after.node? (home ++ [second.source.name]) = some (.file executable content) ∨
        after.node? (home ++ [second.source.name]) = none ∧
          after.node? (home ++ [first.source.name]) = none ∧
          ∃ executable content, before.Openable directory home first.source executable content

variable {first second : Job}

theorem fillsOne_refl (first second : Job) (directory : String) (home : Location) (store : Store) :
    FillsOne first second directory home store store :=
  ⟨fun _ _ present => .inl present, fun _ _ present => .inl present⟩

theorem FillsOne.of_start (fills : FillsOne first second directory home store after)
    (one : store.node? (home ++ [first.source.name]) = before.node? (home ++ [first.source.name]))
    (two : store.node? (home ++ [second.source.name]) =
      before.node? (home ++ [second.source.name])) :
    FillsOne first second directory home before after := by
  refine ⟨?_, ?_⟩
  · have front := fills.front
    simp only [Contributes, Openable] at front ⊢
    rw [one, two] at front
    exact front
  · have back := fills.back
    simp only [Openable] at back ⊢
    rw [one, two] at back
    exact back

theorem FillsOne.of_frame (fills : FillsOne first second directory home before store)
    (same : ∀ artifact ∈ [first.source, second.source, first.destination],
      after.node? (home ++ [artifact.name]) = store.node? (home ++ [artifact.name])) :
    FillsOne first second directory home before after := by
  simp only [List.mem_cons, List.not_mem_nil, or_false, forall_eq_or_imp, forall_eq] at same
  obtain ⟨one, two, script⟩ := same
  refine ⟨?_, ?_⟩
  · have front := fills.front
    simp only [Contributes, Openable] at front ⊢
    rw [one, two, script]
    exact front
  · rw [one, two]
    exact fills.back

/-- A job that fails leaves its source. -/
theorem source_of_failed (proper : job.source ≠ job.destination)
    (leads : store.Leads directory home) {failure : Failure}
    (ran : job.run directory store = .error failure after) :
    after.node? (home ++ [job.source.name]) = store.node? (home ++ [job.source.name]) := by
  have step := converted_run directory proper store
  rw [ran] at step
  cases step with
  | refused => rfl
  | begun led _ _ found free =>
    obtain rfl := leads.unique led
    rw [node?_put_concat, if_neg (name_ne home proper)]

/-- A job that succeeds leaves its complete script behind what it kept of the destination. -/
theorem script_of_succeeded (proper : job.source ≠ job.destination)
    (leads : store.Leads directory home) {count : Nat}
    (ran : job.run directory store = .ok count after) :
    ∃ executable content mark old script,
      store.Openable directory home job.source executable content ∧
        store.opened (home ++ [job.destination.name]) = some (mark, old) ∧
        Converts job.render content script ∧ Fits directory job.destination.name ∧
        after.node? (home ++ [job.source.name]) = none ∧
        after.node? (home ++ [job.destination.name]) =
          some (.file mark (job.mode.base old ++ script)) := by
  have step := converted_run directory proper store
  rw [ran] at step
  cases step with
  | completed led fitsSource fits found free whole =>
    obtain rfl := leads.unique led
    refine ⟨_, _, _, _, _, ⟨fitsSource, found⟩, free, whole, fits, ?_, ?_⟩
    · rw [node?_erase_concat, if_pos rfl]
    · rw [node?_erase_concat, if_neg (name_ne home proper.symm), node?_put_concat, if_pos rfl]

/-- A job that appends to a script adds a part of its own conversion. -/
theorem contributes_run (proper : job.source ≠ job.destination) (further : job.mode = .append)
    (leads : store.Leads directory home)
    (source : store.node? (home ++ [job.source.name]) = before.node? (home ++ [job.source.name]))
    {mark : Bool} {script : Bytes}
    (written : store.node? (home ++ [job.destination.name]) = some (.file mark script)) :
    ∃ rest, job.Contributes directory home before (endState (job.run directory store)) rest ∧
      (endState (job.run directory store)).node? (home ++ [job.destination.name]) =
        some (.file mark (script ++ rest)) := by
  have opened : store.opened (home ++ [job.destination.name]) = some (mark, script) := by
    rw [Store.opened, written]
  cases ran : job.run directory store with
  | error failure after =>
    have kept := (source_of_failed proper leads ran).trans source
    have step := converted_run directory proper store
    rw [ran] at step
    rw [endState_error]
    cases step with
    | refused =>
      refine ⟨[], ?_, by rw [written, List.append_nil]⟩
      by_cases present : ∃ executable content,
          before.Openable directory home job.source executable content
      · obtain ⟨executable, content, fits, stands⟩ := present
        refine .inl ⟨executable, content, ⟨fits, stands⟩, convertsStart_nil _ _, fun gone => ?_⟩
        exact (Option.some_ne_none _ ((kept.trans stands).symm.trans gone)).elim
      · exact .inr ⟨fun executable content found => present ⟨executable, content, found⟩, rfl⟩
    | @begun _ node _ _ part _ led fits _ found free start nothing =>
      obtain rfl := leads.unique led
      obtain ⟨rfl, rfl⟩ := Prod.mk.inj (Option.some.inj (opened.symm.trans free))
      refine ⟨part, ?_, by rw [node?_put_concat, if_pos rfl, further, WriteMode.base]⟩
      rw [source] at found
      cases node with
      | directory =>
        refine .inr ⟨?_, nothing rfl⟩
        rintro _ _ ⟨_, present⟩
        cases found.symm.trans present
      | file executable content =>
        refine .inl ⟨executable, content, ⟨fits, found⟩, start _ _ rfl, fun gone => ?_⟩
        exact (Option.some_ne_none _ ((kept.trans found).symm.trans gone)).elim
  | ok count after =>
    obtain ⟨executable, content, _, _, rest, ⟨fits, found⟩, free, whole, _, gone, filled⟩ :=
      script_of_succeeded proper leads ran
    obtain ⟨rfl, rfl⟩ := Prod.mk.inj (Option.some.inj (opened.symm.trans free))
    rw [further, WriteMode.base] at filled
    exact ⟨rest,
      .inl ⟨executable, content, ⟨fits, source ▸ found⟩, whole.start, fun _ => whole⟩, filled⟩

theorem fillsOne_run (proper : first.source ≠ first.destination)
    (apart : second.source ≠ second.destination) (different : first.source ≠ second.source)
    (one : second.destination = first.destination) (anew : first.mode = .overwrite)
    (further : second.mode = .append) (leads : store.Leads directory home) :
    FillsOne first second directory home store
      (endState (runAll directory [first, second] store)) := by
  have sources := name_ne home different
  have otherPlace := name_ne home (one ▸ apart)
  have step := converted_run directory proper store
  have led := step.leads leads
  have same := step.frame leads sources.symm otherPlace
  cases ran : first.run directory store with
  | error failure after =>
    rw [ran, endState_error] at same
    rw [runAll_of_error ran, endState_error]
    refine ⟨fun executable content present => .inl ?_, fun executable content present => .inl ?_⟩
    · exact (source_of_failed proper leads ran).trans present
    · exact same.trans present
  | ok count middle =>
    rw [ran, endState_ok] at same led
    obtain ⟨executable, content, mark, old, script, found, _, whole, fits, gone, written⟩ :=
      script_of_succeeded proper leads ran
    rw [anew, WriteMode.base, List.nil_append, ← one] at written
    obtain ⟨rest, contributes, filled⟩ := contributes_run apart further led same written
    have next := converted_run directory apart middle
    have stillGone := next.frame led sources (name_ne home (one ▸ proper))
    rw [gone] at stillGone
    rw [runAll_of_ok ran, endState_runAll_singleton]
    cases ranNext : second.run directory middle with
    | error failure after =>
      rw [ranNext, endState_error] at stillGone contributes filled
      rw [endState_error]
      refine ⟨?_, fun executable content present => .inl ?_⟩
      · intro _ _ present
        obtain ⟨rfl, rfl⟩ := Node.file.inj (Option.some.inj (found.2.symm.trans present))
        exact .inr ⟨stillGone, mark, script, rest, whole, contributes, fits, one ▸ filled⟩
      · exact (source_of_failed apart led ranNext).trans (same.trans present)
    | ok more after =>
      rw [ranNext, endState_ok] at stillGone contributes filled
      obtain ⟨_, _, _, _, _, _, _, _, _, sourceGone, _⟩ := script_of_succeeded apart led ranNext
      rw [endState_ok]
      refine ⟨?_, fun _ _ _ => .inr ⟨sourceGone, stillGone, executable, content, found⟩⟩
      intro _ _ present
      obtain ⟨rfl, rfl⟩ := Node.file.inj (Option.some.inj (found.2.symm.trans present))
      exact .inr ⟨stillGone, mark, script, rest, whole, contributes, fits, one ▸ filled⟩

/-- Two jobs fill one script also in a row of jobs that have no file in common with them. -/
theorem fillsOne_runAll (first second : Job) {front back : List Job}
    (proper : first.source ≠ first.destination) (apart : second.source ≠ second.destination)
    (different : first.source ≠ second.source) (one : second.destination = first.destination)
    (anew : first.mode = .overwrite) (further : second.mode = .append)
    (others : ∀ job ∈ front ++ back, job.source ≠ job.destination ∧
      first.Apart job ∧ second.Apart job)
    (leads : store.Leads directory home) :
    FillsOne first second directory home store
      (endState (runAll directory (front ++ ([first, second] ++ back)) store)) := by
  have framed {jobs : List Job} (some : ∀ job ∈ jobs, job ∈ front ++ back) {store : Store}
      (led : store.Leads directory home) (artifact : Artifact)
      (own : artifact ∈ [first.source, second.source, first.destination]) :
      (endState (runAll directory jobs store)).Leads directory home ∧
        (endState (runAll directory jobs store)).node? (home ++ [artifact.name]) =
          store.node? (home ++ [artifact.name]) := by
    refine frame_runAll (fun job member => (others job (some job member)).1) led ?_
    intro job member
    obtain ⟨_, apartFirst, apartSecond⟩ := others job (some job member)
    simp only [List.mem_cons, List.not_mem_nil, or_false] at own
    rcases own with rfl | rfl | rfl
    · exact ⟨name_ne home apartFirst.sources, name_ne home apartFirst.outward⟩
    · exact ⟨name_ne home apartSecond.sources, name_ne home apartSecond.outward⟩
    · exact ⟨name_ne home apartFirst.inward, name_ne home apartFirst.destinations⟩
  have before := framed (fun _ member => List.mem_append_left _ member) leads
  have fills {middle : Store} (led : middle.Leads directory home) :=
    fillsOne_run proper apart different one anew further led
  rw [runAll_append, bind_eq]
  cases ran : runAll directory front store with
  | error failure middle =>
    rw [ran] at before
    exact (fillsOne_refl _ _ _ _ store).of_frame fun artifact own => (before artifact own).2
  | ok _ middle =>
    simp only [ran, endState_ok] at before
    obtain ⟨led, sameFirst⟩ := before first.source (by simp)
    obtain ⟨_, sameSecond⟩ := before second.source (by simp)
    have filled := (fills led).of_start sameFirst sameSecond
    have next := leads_runAll [first, second] (by simp [proper, apart]) led
    change FillsOne _ _ _ _ _ (endState (runAll directory ([first, second] ++ back) middle))
    rw [runAll_append, bind_eq]
    cases ranBoth : runAll directory [first, second] middle with
    | error failure after =>
      rw [ranBoth] at filled
      exact filled
    | ok _ after =>
      rw [ranBoth] at filled next
      exact filled.of_frame fun artifact own =>
        (framed (fun _ member => List.mem_append_right _ member) next artifact own).2

end Job

end PowerTest
