import PowerTest.Proofs.Pipeline.Interleaving
import PowerTest.Proofs.Pipeline.OutputDirectory

/-!
# Run directories

Runs of the benchmark that share an output directory and whose clients change nothing but what lies
below their working directory do not disturb each other, in whatever order they take their steps.
Each step only adds, and only under the name of its run (`AddsUnder`), since a directory is made
where nothing is and the client finds it empty. So the runs stay `Orderly`: each owns the directory
that was made for it, and what a client left there is what is scored: `runs_undisturbed`.
-/

namespace PowerTest

open Steps Store

variable {ι Memory : Type}

/-- A call that changes nothing but what lies below its working directory. -/
structure Call.WorksInside (call : Call) : Prop where
  workingDirectory : call.after.workingDirectory = call.before.workingDirectory
  changed : ∀ location, call.after.node? location ≠ call.before.node? location →
    call.before.Below call.invocation.workingDirectory location

/-- A benchmark whose client changes nothing but what lies below its working directory. -/
def Benchmark.WorksInside (benchmark : Benchmark Memory) : Prop :=
  ∀ (call : Call) (program : String) (arguments : List String) (directory : String),
    call.Obeys benchmark.runner →
    call.invocation = Pipeline.clientCommand benchmark.config program arguments directory →
      call.WorksInside

/-! ## Adding under one name -/

namespace Store

variable {before after : Store} {directory name other path : String} {home location : Location}

/-- A change that only adds, and only under one name of a directory. -/
structure AddsUnder (directory name : String) (before after : Store) : Prop where
  workingDirectory : after.workingDirectory = before.workingDirectory
  added : ∀ location, after.node? location ≠ before.node? location →
    before.node? location = none ∧ ∃ home rest, before.Leads directory home ∧
      location = home ++ name :: rest ∧ after.node? (home ++ [name]) = some .directory

theorem addsUnder_refl (directory name : String) (store : Store) :
    AddsUnder directory name store store :=
  ⟨rfl, fun _ changed => absurd rfl changed⟩

theorem AddsUnder.grows (adds : AddsUnder directory name before after) : Grows before after := by
  refine ⟨adds.workingDirectory, fun location node stands => ?_⟩
  by_cases same : after.node? location = before.node? location
  · rw [same, stands]
  · cases (adds.added location same).1.symm.trans stands

theorem AddsUnder.leads_iff (adds : AddsUnder directory name before after) :
    after.Leads directory home ↔ before.Leads directory home := by
  refine ⟨fun leads => ?_, adds.grows.leads⟩
  -- If something is new it is new in that directory, which then was there before.
  by_cases unchanged : ∀ location, after.node? location = before.node? location
  · refine leads.of_directories adds.workingDirectory.symm fun location stands => ?_
    rw [← unchanged, stands]
  · obtain ⟨location, changed⟩ := not_forall.mp unchanged
    obtain ⟨_, place, _, led, _⟩ := adds.added location changed
    obtain rfl := leads.unique (adds.grows.leads led)
    exact led

theorem AddsUnder.frame (adds : AddsUnder directory name before after)
    (leads : before.Leads directory home) (apart : other ≠ name) (rest : List String) :
    after.node? (home ++ other :: rest) = before.node? (home ++ other :: rest) := by
  by_contra changed
  obtain ⟨_, place, more, led, same, _⟩ := adds.added _ changed
  obtain rfl := leads.unique led
  exact apart (List.cons.inj (List.append_cancel_left same)).1

/-- Everything still stands below something: what is new stands below the name it was added under. -/
theorem AddsUnder.rooted (adds : AddsUnder directory name before after)
    (rooted : ∀ home name rest, before.Leads directory home →
      before.node? (home ++ [name]) = none → before.node? (home ++ name :: rest) = none)
    (home : Location) (other : String) (rest : List String) (leads : after.Leads directory home)
    (nothing : after.node? (home ++ [other]) = none) : after.node? (home ++ other :: rest) = none := by
  have missing := rooted home other rest (adds.leads_iff.mp leads) (adds.grows.missing nothing)
  by_contra stands
  obtain ⟨_, place, more, led, same, made⟩ := adds.added _ (missing ▸ stands)
  obtain rfl := leads.unique (adds.grows.leads led)
  obtain rfl := (List.cons.inj (List.append_cancel_left same)).1
  cases nothing.symm.trans made

theorem addsUnder_of_made (plain : Path.IsPlain name)
    (made : before.makeDirectory (Path.join directory name) = .ok after) :
    AddsUnder directory name before after := by
  obtain ⟨home, leads, nothing, rfl, _⟩ := made_of_makeDirectory_join plain made
  refine ⟨rfl, fun location changed => ?_⟩
  rw [node?_put_concat] at changed
  split at changed
  · rename_i here
    subst here
    exact ⟨nothing, home, [], leads, rfl, by rw [node?_put_concat, if_pos rfl]⟩
  · exact absurd rfl changed

/-- A client that finds its directory empty only adds to it. -/
theorem addsUnder_of_call {call : Call} (works : call.WorksInside)
    (leads : call.before.Leads directory home)
    (own : call.before.Leads call.invocation.workingDirectory (home ++ [name]))
    (empty : ∀ next rest, call.before.node? (home ++ [name] ++ next :: rest) = none) :
    AddsUnder directory name call.before call.after := by
  have same : call.after.node? (home ++ [name]) = call.before.node? (home ++ [name]) := by
    by_contra changed
    obtain ⟨place, next, rest, led, same⟩ := works.changed _ changed
    obtain rfl := own.unique led
    exact List.cons_ne_nil next rest (List.self_eq_append_right.mp same)
  have stays : call.after.node? (home ++ [name]) = some .directory := same.trans own.node?
  refine ⟨works.workingDirectory, fun location changed => ?_⟩
  obtain ⟨place, next, rest, led, rfl⟩ := works.changed location changed
  obtain rfl := own.unique led
  refine ⟨empty next rest, home, next :: rest, leads, ?_, stays⟩
  rw [List.append_assoc, List.singleton_append]

end Store

/-! ## Runs that own their directories -/

theorem Benchmark.isPlain_name (benchmark : Benchmark Memory) : Path.IsPlain benchmark.name :=
  (Artifact.runDirectory benchmark.now.toNat).isPlain_name

/-- The directory of a run that has one, with the output directory that it lies in. -/
structure Owns (benchmark : Benchmark Memory) (directory own : String) (home : Location)
    (store : Store) : Prop where
  path : own = benchmark.directory
  parent : store.Leads directory home
  leads : store.Leads own (home ++ [benchmark.name])

theorem Owns.grows {benchmark : Benchmark Memory} {directory own : String} {home : Location}
    {store after : Store} (owns : Owns benchmark directory own home store)
    (grows : Grows store after) : Owns benchmark directory own home after :=
  ⟨owns.path, grows.leads owns.parent, grows.leads owns.leads⟩

/-- Runs in one output directory, each of which has its directory for itself. -/
structure Orderly (benchmarks : ι → Benchmark Memory) (directory : String) (world : World ι Memory) :
    Prop where
  /-- In the output directory everything stands below something that is there. -/
  rooted : ∀ home name rest, world.store.Leads directory home →
    world.store.node? (home ++ [name]) = none → world.store.node? (home ++ name :: rest) = none
  owned : ∀ who own, (world.phases who).directory? = some own →
    ∃ home, Owns (benchmarks who) directory own home world.store
  distinct : ∀ first second, first ≠ second → (world.phases first).directory?.isSome →
    (world.phases second).directory?.isSome → (benchmarks first).name ≠ (benchmarks second).name
  /-- Until the client is called the directory stays as it was made. -/
  empty : ∀ who own home, world.phases who = .opened own →
    Owns (benchmarks who) directory own home world.store →
    ∀ name rest, world.store.node? (home ++ (benchmarks who).name :: name :: rest) = none

theorem orderly_start (benchmarks : ι → Benchmark Memory) (directory : String)
    {machine : Machine Memory} (tree : machine.store.IsTree) :
    Orderly benchmarks directory (World.start machine) where
  rooted home name rest _ nothing := by
    have below := tree.node?_below nothing rest
    rwa [List.append_assoc, List.singleton_append] at below
  owned who own has := nomatch has
  distinct first _ _ has := nomatch has
  empty who own _ opened := nomatch opened

/-- What a log says depends on what its path leads to. -/
theorem ofLog_congr {store after : Store} {path : String} {scaleFactor : Float}
    (same : after.locate path = store.locate path) :
    Timing.Report.ofLog after path scaleFactor = Timing.Report.ofLog store path scaleFactor := by
  simp only [Timing.Report.ofLog, Timing.readLog, Store.readText, Store.read, Store.find, same]

variable {benchmarks : ι → Benchmark Memory} {directory own : String} {world : World ι Memory}
  {who other : ι}

theorem made_of_shared (shared : ∀ who, (benchmarks who).config.output.dir = directory)
    {before after : Store}
    (made : before.makeDirectory (benchmarks who).directory = .ok after) :
    ∃ home, before.node? (home ++ [(benchmarks who).name]) = none ∧
      before.Leads directory home ∧ after = before.put (home ++ [(benchmarks who).name]) .directory ∧
      Owns (benchmarks who) directory (benchmarks who).directory home after := by
  have plain := (benchmarks who).isPlain_name
  have path : (benchmarks who).directory = Path.join directory (benchmarks who).name := by
    rw [Benchmark.directory, shared]
  have grows := (madeAlong_makeDirectory made).grows
  rw [path] at made
  obtain ⟨home, leads, nothing, put, own⟩ := made_of_makeDirectory_join plain made
  exact ⟨home, nothing, leads, put, rfl, grows.leads leads, path ▸ own⟩

variable [DecidableEq ι]

section

variable (shared : ∀ who, (benchmarks who).config.output.dir = directory)
  (works : ∀ who, (benchmarks who).WorksInside) (orderly : Orderly benchmarks directory world)

include shared works orderly

/-- A step only adds, and only under the name of its run. -/
theorem addsUnder_step (who : ι) :
    AddsUnder directory (benchmarks who).name world.store (world.step benchmarks who).store := by
  have moves := World.moves_step benchmarks world who
  generalize (world.step benchmarks who).store = after at moves ⊢
  generalize came : world.phases who = phase at moves
  generalize (world.step benchmarks who).phases who = next at moves
  cases moves with
  | idle same owner calm => exact same ▸ addsUnder_refl _ _ _
  | opened made =>
    rw [Benchmark.directory, shared] at made
    exact addsUnder_of_made (benchmarks who).isPlain_name made
  | called call obeys ran start left owner calm =>
    obtain ⟨home, owns⟩ := orderly.owned who _ (by rw [came]; rfl)
    have empty := orderly.empty who _ home came owns
    have place : call.invocation.workingDirectory = _ := congrArg Invocation.workingDirectory ran
    rw [← start] at owns empty ⊢
    rw [← left]
    refine addsUnder_of_call (works who call _ _ _ obeys ran) owns.parent (place ▸ owns.leads) ?_
    intro next rest
    rw [List.append_assoc, List.singleton_append]
    exact empty next rest

omit works [DecidableEq ι] in
/-- The directory of another run is there before this one is made. -/
theorem apart_of_made {after : Store} (has : (world.phases other).directory?.isSome)
    (made : world.store.makeDirectory (benchmarks who).directory = .ok after) :
    (benchmarks other).name ≠ (benchmarks who).name := by
  intro same
  obtain ⟨own, has⟩ := Option.isSome_iff_exists.mp has
  obtain ⟨home, owns⟩ := orderly.owned other own has
  obtain ⟨place, nothing, leads, _⟩ := made_of_shared shared made
  obtain rfl := owns.parent.unique leads
  cases nothing.symm.trans (same ▸ owns.leads.node?)

theorem frame_step {home : Location} (different : other ≠ who)
    (has : (world.phases other).directory? = some own)
    (owns : Owns (benchmarks other) directory own home world.store) (rest : List String) :
    (world.step benchmarks who).store.node? (home ++ (benchmarks other).name :: rest) =
      world.store.node? (home ++ (benchmarks other).name :: rest) := by
  have adds := addsUnder_step shared works orderly who
  have some : (world.phases other).directory?.isSome := by rw [has]; rfl
  have moves := World.moves_step benchmarks world who
  generalize came : world.phases who = phase at moves
  generalize (world.step benchmarks who).phases who = next at moves
  cases moves with
  | idle same owner calm => rw [same]
  | opened made => exact adds.frame owns.parent (apart_of_made shared orderly some made) rest
  | called call obeys ran start left owner calm =>
    have hasOwn : (world.phases who).directory?.isSome := by rw [came]; rfl
    exact adds.frame owns.parent (orderly.distinct other who different some hasOwn) rest

theorem owned_step (who other : ι)
    (has : ((world.step benchmarks who).phases other).directory? = some own) :
    ∃ home, Owns (benchmarks other) directory own home (world.step benchmarks who).store := by
  rcases World.directory?_step benchmarks world who other with same | ⟨rfl, opened, made⟩
  · obtain ⟨home, owns⟩ := orderly.owned other own (same ▸ has)
    exact ⟨home, owns.grows (addsUnder_step shared works orderly who).grows⟩
  · obtain ⟨home, _, _, _, owns⟩ := made_of_shared shared made
    rw [opened] at has
    obtain rfl := Option.some.inj has
    exact ⟨home, owns⟩

omit works in
theorem distinct_step {first second : ι} (different : first ≠ second)
    (hasFirst : ((world.step benchmarks who).phases first).directory?.isSome)
    (hasSecond : ((world.step benchmarks who).phases second).directory?.isSome) :
    (benchmarks first).name ≠ (benchmarks second).name := by
  have gainsFirst := World.directory?_step benchmarks world who first
  have gainsSecond := World.directory?_step benchmarks world who second
  rcases gainsFirst with sameFirst | ⟨rfl, _, made⟩ <;>
    rcases gainsSecond with sameSecond | ⟨rfl, _, madeSecond⟩
  · exact orderly.distinct first second different (sameFirst ▸ hasFirst) (sameSecond ▸ hasSecond)
  · exact apart_of_made shared orderly (sameFirst ▸ hasFirst) madeSecond
  · exact (apart_of_made shared orderly (sameSecond ▸ hasSecond) made).symm
  · exact absurd rfl different

theorem empty_step {home : Location} (opened : (world.step benchmarks who).phases other = .opened own)
    (owns : Owns (benchmarks other) directory own home (world.step benchmarks who).store)
    (name : String) (rest : List String) :
    (world.step benchmarks who).store.node?
      (home ++ (benchmarks other).name :: name :: rest) = none := by
  have grows := (addsUnder_step shared works orderly who).grows
  rcases World.opened_step opened with ⟨different, before⟩ | ⟨rfl, made⟩
  · have has : (world.phases other).directory? = some own := by rw [before]; rfl
    obtain ⟨place, owned⟩ := orderly.owned other own has
    obtain rfl := owns.parent.unique (grows.leads owned.parent)
    rw [frame_step shared works orderly different has owned]
    exact orderly.empty other own home before owned name rest
  · obtain ⟨place, nothing, leads, put, _⟩ := made_of_shared shared made
    obtain rfl := owns.parent.unique (grows.leads leads)
    have longer : home ++ (benchmarks other).name :: name :: rest ≠
        home ++ [(benchmarks other).name] := by
      simp
    rw [put, node?_put_concat, if_neg longer]
    exact orderly.rooted home _ _ leads nothing

theorem orderly_step (who : ι) : Orderly benchmarks directory (world.step benchmarks who) where
  rooted := (addsUnder_step shared works orderly who).rooted orderly.rooted
  owned other _ := owned_step shared works orderly who other
  distinct _ _ := distinct_step shared orderly
  empty _ _ _ := empty_step shared works orderly

theorem orderly_play (schedule : List ι) :
    Orderly benchmarks directory (world.play benchmarks schedule) := by
  induction schedule generalizing world with
  | nil => exact orderly
  | cons who rest ih => exact ih (orderly_step shared works orderly who)

theorem grows_play (schedule : List ι) :
    Grows world.store (world.play benchmarks schedule).store := by
  induction schedule generalizing world with
  | nil => exact grows_refl _
  | cons who rest ih =>
    have first := (addsUnder_step shared works orderly who).grows
    exact first.trans (ih (orderly_step shared works orderly who))

theorem grows_append (earlier later : List ι) :
    Grows (world.play benchmarks earlier).store (world.play benchmarks (earlier ++ later)).store := by
  rw [World.play_append]
  exact grows_play shared works (orderly_play shared works orderly earlier) later

/-- The directory of a run is made where nothing stood as long as the run was waiting. -/
theorem fresh_play {schedule : List ι} (waiting : world.phases who = .waiting)
    (has : ((world.play benchmarks schedule).phases who).directory? = some own) :
    ∃ home, Owns (benchmarks who) directory own home (world.play benchmarks schedule).store ∧
      ∀ rest, world.store.node? (home ++ (benchmarks who).name :: rest) = none := by
  induction schedule using List.reverseRecOn with
  | nil =>
    rw [World.play, List.foldl_nil, waiting] at has
    cases has
  | append_singleton schedule last ih =>
    have middle := orderly_play shared works orderly schedule
    rw [World.play_concat] at has ⊢
    rcases World.directory?_step benchmarks (world.play benchmarks schedule) last who with
      same | ⟨rfl, opened, made⟩
    · obtain ⟨home, owns, nothing⟩ := ih (same ▸ has)
      exact ⟨home, owns.grows (addsUnder_step shared works middle last).grows, nothing⟩
    · obtain ⟨home, nothing, leads, _, owns⟩ := made_of_shared shared made
      rw [opened] at has
      obtain rfl := Option.some.inj has
      refine ⟨home, owns, fun rest => ?_⟩
      have missing := middle.rooted home _ rest leads nothing
      exact (grows_play shared works orderly schedule).missing missing

/-- What the client left in its directory is there as long as its log is not scored. -/
theorem measured_play {schedule : List ι} (waiting : world.phases who = .waiting)
    (measured : (world.play benchmarks schedule).phases who = .measured own) :
    ∃ before after home, schedule = before ++ who :: after ∧
      (world.play benchmarks before).phases who = .opened own ∧
      Owns (benchmarks who) directory own home (world.play benchmarks before).store ∧
      ∀ rest, (world.play benchmarks schedule).store.node?
          (home ++ (benchmarks who).name :: rest) =
        (world.play benchmarks (before ++ [who])).store.node?
          (home ++ (benchmarks who).name :: rest) := by
  induction schedule using List.reverseRecOn with
  | nil =>
    rw [World.play, List.foldl_nil, waiting] at measured
    cases measured
  | append_singleton schedule last ih =>
    have middle := orderly_play shared works orderly schedule
    by_cases here : who = last
    · subst here
      rw [World.play_concat, World.phases_step_self] at measured
      have opened := Benchmark.phase_of_measured measured
      obtain ⟨home, owns⟩ := middle.owned who own (by rw [opened]; rfl)
      exact ⟨schedule, [], home, rfl, opened, owns, fun _ => rfl⟩
    · rw [World.play_concat, World.phases_step_of_ne here] at measured
      obtain ⟨before, after, home, rfl, opened, owns, same⟩ := ih measured
      have later := owns.grows (grows_append shared works orderly before (who :: after))
      have has : ((world.play benchmarks (before ++ who :: after)).phases who).directory? =
          some own := by rw [measured]; rfl
      refine ⟨before, after ++ [last], home, by simp, opened, owns, fun rest => ?_⟩
      rw [World.play_concat, frame_step shared works middle here has later, same]

/-- A report is that on what the run's own client left in a directory that it found empty. -/
theorem scored_play (plain : Path.IsPlain (benchmarks who).config.client.logFileName)
    {schedule : List ι} {made : Option String} {report : Timing.Report}
    (waiting : world.phases who = .waiting)
    (ended : (world.play benchmarks schedule).phases who = .ended made (.ok report)) :
    ∃ before after own home, schedule = before ++ who :: after ∧ made = some own ∧
      (world.play benchmarks before).phases who = .opened own ∧
      Owns (benchmarks who) directory own home (world.play benchmarks before).store ∧
      Timing.Report.ofLog (world.play benchmarks (before ++ [who])).store
        ((benchmarks who).log own) (benchmarks who).config.generator.scaleFactor = .ok report := by
  obtain ⟨_, last, own, rfl, rfl, measured, scored⟩ := World.scored_of_ended waiting ended
  obtain ⟨before, between, home, rfl, opened, owns, same⟩ :=
    measured_play shared works orderly waiting measured
  have called := owns.grows (grows_append shared works orderly before [who])
  have later := owns.grows (grows_append shared works orderly before (who :: between))
  have log : (world.play benchmarks (before ++ who :: between)).store.locate
        ((benchmarks who).log own) =
      (world.play benchmarks (before ++ [who])).store.locate ((benchmarks who).log own) := by
    refine locate_join_congr plain called.leads later.leads ?_
    rw [List.append_assoc, List.singleton_append]
    exact same [(benchmarks who).config.client.logFileName]
  refine ⟨before, between ++ who :: last, own, home, by simp, rfl, opened, owns, ?_⟩
  rw [← scored]
  exact (ofLog_congr log).symm

end

/-- A run whose directory is there already ends without calling its client. -/
theorem refused_step (waiting : world.phases who = .waiting)
    (taken : world.store.hasNode (benchmarks who).directory = true) :
    ∃ cause, ((benchmarks who).config.client.isConfigured = true →
        cause = .inputOutput (benchmarks who).directory .alreadyExists) ∧
      (world.step benchmarks who).phases who = .ended none (.error ⟨.runClient, cause⟩) ∧
      (world.step benchmarks who).machine = world.machine := by
  have there : world.machine.store.makeDirectory (benchmarks who).directory =
      .error .alreadyExists := by
    rw [hasNode] at taken
    cases found : world.store.find (benchmarks who).directory with
    | error fault =>
      rw [found] at taken
      cases taken
    | ok reached => rw [makeDirectory, show world.machine.store.locate _ = _ from locate_of_find found]
  rw [World.phases_step_self, World.machine_step, waiting]
  cases configured : (benchmarks who).config.client.isConfigured with
  | false =>
    refine ⟨.missingClient, fun configured => absurd configured Bool.false_ne_true, ?_⟩
    simp only [Benchmark.advance, Benchmark.openDirectory_of_not_configured configured,
      Phase.follow, and_self]
  | true =>
    refine ⟨_, fun _ => rfl, ?_⟩
    simp only [Benchmark.advance, Benchmark.openDirectory_of_configured configured, there,
      Phase.follow, and_self]

/-! ## Undisturbed runs -/

/-- The world that runs reach from a machine in the order of a schedule. -/
def World.reached (benchmarks : ι → Benchmark Memory) (machine : Machine Memory)
    (schedule : List ι) : World ι Memory :=
  (World.start machine).play benchmarks schedule

/-- Runs that do not disturb each other, nor what was there before, in whatever order they go. -/
structure Undisturbed (benchmarks : ι → Benchmark Memory) (machine : Machine Memory) : Prop where
  /-- Three steps in a row of one run are the run. -/
  alone : ∀ (world : World ι Memory) who, world.phases who = .waiting →
    (∃ made outcome,
      (world.play benchmarks [who, who, who]).phases who = .ended made outcome ∧
        Pipeline.run (benchmarks who).config (benchmarks who).runner (benchmarks who).now .metricOnly
            world.machine =
          Pipeline.resultOf outcome (world.play benchmarks [who, who, who]).machine) ∧
      ∀ other, other ≠ who →
        (world.play benchmarks [who, who, who]).phases other = world.phases other
  /-- Whatever is there at any time stays as it is. -/
  kept : ∀ earlier later, Grows (World.reached benchmarks machine earlier).store
    (World.reached benchmarks machine (earlier ++ later)).store
  /-- A directory is made for a run where nothing was as long as the run had not begun. -/
  fresh : ∀ earlier later who own,
    (World.reached benchmarks machine earlier).phases who = .waiting →
    ((World.reached benchmarks machine (earlier ++ later)).phases who).directory? = some own →
    ∃ place, (World.reached benchmarks machine (earlier ++ later)).store.Leads own place ∧
      ∀ rest, (World.reached benchmarks machine earlier).store.node? (place ++ rest) = none
  distinct : ∀ schedule first second own another, first ≠ second →
    ((World.reached benchmarks machine schedule).phases first).directory? = some own →
    ((World.reached benchmarks machine schedule).phases second).directory? = some another →
    own ≠ another ∧ ∃ place elsewhere, place ≠ elsewhere ∧
      (World.reached benchmarks machine schedule).store.Leads own place ∧
      (World.reached benchmarks machine schedule).store.Leads another elsewhere
  /-- A report is that on the log as the run's own client left it, in a directory with nothing in it
  when the client was called. -/
  scored : ∀ schedule who made report,
    (World.reached benchmarks machine schedule).phases who = .ended made (.ok report) →
    ∃ before after own place, schedule = before ++ who :: after ∧ made = some own ∧
      (World.reached benchmarks machine before).phases who = .opened own ∧
      (World.reached benchmarks machine before).store.Leads own place ∧
      (∀ name rest,
        (World.reached benchmarks machine before).store.node? (place ++ name :: rest) = none) ∧
      Timing.Report.ofLog (World.reached benchmarks machine (before ++ [who])).store
        ((benchmarks who).log own) (benchmarks who).config.generator.scaleFactor = .ok report
  /-- A run whose name is taken fails before its client is called, and changes nothing. -/
  refused : ∀ schedule who, (World.reached benchmarks machine schedule).phases who = .waiting →
    (World.reached benchmarks machine schedule).store.hasNode (benchmarks who).directory = true →
    ∃ cause, ((benchmarks who).config.client.isConfigured = true →
        cause = .inputOutput (benchmarks who).directory .alreadyExists) ∧
      (World.reached benchmarks machine (schedule ++ [who])).phases who =
        .ended none (.error ⟨.runClient, cause⟩) ∧
      (World.reached benchmarks machine (schedule ++ [who])).machine =
        (World.reached benchmarks machine schedule).machine

/-- Runs of the benchmark in one output directory do not disturb each other if their clients work in
the directories that they are given. -/
theorem runs_undisturbed (shared : ∀ who, (benchmarks who).config.output.dir = directory)
    (plain : ∀ who, Path.IsPlain (benchmarks who).config.client.logFileName)
    (works : ∀ who, (benchmarks who).WorksInside) {machine : Machine Memory}
    (tree : machine.store.IsTree) : Undisturbed benchmarks machine := by
  have orderly (schedule : List ι) :
      Orderly benchmarks directory (World.reached benchmarks machine schedule) :=
    orderly_play shared works (orderly_start benchmarks directory tree) schedule
  refine ⟨fun _ _ => World.play_alone,
    grows_append shared works (orderly_start benchmarks directory tree), ?_, ?_, ?_, ?_⟩
  · intro earlier later who own waiting has
    have split : World.reached benchmarks machine (earlier ++ later) =
        (World.reached benchmarks machine earlier).play benchmarks later := World.play_append
    rw [split] at has ⊢
    obtain ⟨home, owns, nothing⟩ := fresh_play shared works (orderly earlier) waiting has
    refine ⟨_, owns.leads, fun rest => ?_⟩
    rw [List.append_assoc, List.singleton_append]
    exact nothing rest
  · intro schedule first second own another different hasFirst hasSecond
    obtain ⟨home, owns⟩ := (orderly schedule).owned first own hasFirst
    obtain ⟨place, ownsOther⟩ := (orderly schedule).owned second another hasSecond
    obtain rfl := owns.parent.unique ownsOther.parent
    have apart : home ++ [(benchmarks first).name] ≠ home ++ [(benchmarks second).name] := by
      rw [Ne, concat_inj]
      exact (orderly schedule).distinct first second different (by rw [hasFirst]; rfl)
        (by rw [hasSecond]; rfl)
    refine ⟨?_, _, _, apart, owns.leads, ownsOther.leads⟩
    rintro rfl
    exact apart (owns.leads.unique ownsOther.leads)
  · intro schedule who made report ended
    obtain ⟨before, after, own, home, split, has, opened, owns, scored⟩ := scored_play shared works
      (orderly_start benchmarks directory tree) (plain who) rfl ended
    refine ⟨before, after, own, _, split, has, opened, owns.leads, fun name rest => ?_, scored⟩
    rw [List.append_assoc, List.singleton_append]
    exact (orderly before).empty who own home opened owns name rest
  · intro schedule who waiting taken
    have next : World.reached benchmarks machine (schedule ++ [who]) =
        (World.reached benchmarks machine schedule).step benchmarks who := World.play_concat
    rw [next]
    exact refused_step waiting taken

/-- Two runs of a client that prints a line, the second of which reads an earlier clock. -/
def twoBenchmarks (second : Bool) : Benchmark Unit :=
  ⟨Pipeline.logNamed "log.txt", Pipeline.writesOutput "q1: 1", if second then -1 else 1000⟩

theorem worksInside_twoBenchmarks (second : Bool) : (twoBenchmarks second).WorksInside := by
  intro call program arguments directory obeys ran
  have descends : Path.Descends "log.txt" := ⟨by decide, by decide⟩
  have touches := Pipeline.touchesOutput_of_writesOutput obeys
  refine ⟨touches.workingDirectory, fun location changed => ?_⟩
  obtain ⟨path, mark, content, output, opened⟩ := touches.touched location changed
  rw [ran] at output ⊢
  have inside := Pipeline.inside_clientLog descends program arguments directory path output
  exact (inside.written _ _ _ _ opened).1

theorem runs_undisturbed_two :
    (∀ second, (twoBenchmarks second).config.output.dir = "out") ∧
      (∀ second, Path.IsPlain (twoBenchmarks second).config.client.logFileName) ∧
      (∀ second, (twoBenchmarks second).WorksInside) ∧ Pipeline.emptyOutput.IsTree ∧
      Undisturbed twoBenchmarks ⟨Pipeline.emptyOutput, (), []⟩ := by
  have shared (second : Bool) : (twoBenchmarks second).config.output.dir = "out" := rfl
  have plain (second : Bool) : Path.IsPlain (twoBenchmarks second).config.client.logFileName := by
    show Path.IsPlain "log.txt"
    constructor <;> decide
  have tree : Pipeline.emptyOutput.IsTree := isTree_of_entries (by decide +kernel)
  exact ⟨shared, plain, worksInside_twoBenchmarks, tree,
    runs_undisturbed shared plain worksInside_twoBenchmarks tree⟩

end PowerTest
