import PowerTest.Proofs.Pipeline.OutputDirectory
import PowerTest.Proofs.Store.Opening

/-!
# How far the generation of queries comes

Each query is generated by a call and then loses its template. `Generated` says what a store and the
calls look like when some queries have been called for and some of these are finished: the
finished ones have no template, the others still have theirs, each query is as its call left it,
and each call saw its own template and none of the earlier ones. `generateQueries_progress` says
that the stage finishes all queries or stops at a call that fails, with all queries before it
finished.
-/

namespace PowerTest

open Steps Store

variable {Memory : Type}

/-- A removed file leaves its directory where it was. -/
theorem removeFiles_singleton {directory name : String} {home : Location} {store : Store}
    {executable : Bool} {content : Bytes} (leads : store.Leads directory home)
    (plain : Path.IsPlain name) (fits : Fits directory name)
    (stands : store.node? (home ++ [name]) = some (.file executable content)) :
    removeFiles directory [name] store = .ok () (store.erase (home ++ [name])) := by
  simp only [removeFiles, bind_eq, Files.change, remove_join leads plain fits, stands, pure_eq]

namespace Pipeline

/-- The place of the template of a query. -/
def templatePlace (home : Location) (number : Nat) : Location :=
  home ++ [(Artifact.template number).name]

/-- The place of a generated query. -/
def queryPlace (home : Location) (number : Nat) : Location :=
  home ++ [(Artifact.query number).name]

theorem templatePlace_ne {home : Location} {number other : Nat} (different : number ≠ other) :
    templatePlace home number ≠ templatePlace home other := by
  rw [templatePlace, templatePlace, ne_eq, concat_inj, Artifact.name_inj, Artifact.template.injEq]
  exact different

theorem queryPlace_ne {home : Location} {number other : Nat} (different : number ≠ other) :
    queryPlace home number ≠ queryPlace home other := by
  rw [queryPlace, queryPlace, ne_eq, concat_inj, Artifact.name_inj, Artifact.query.injEq]
  exact different

theorem templatePlace_ne_queryPlace (home : Location) (number other : Nat) :
    templatePlace home number ≠ queryPlace home other := by
  rw [templatePlace, queryPlace, ne_eq, concat_inj, Artifact.name_inj]
  nofun

/-- What stands when queries have been called for, one call each, and some of them are finished. -/
structure Generated (config : Config) (home : Location) (called finished : List Nat)
    (calls : List Call) (before after : Store) : Prop where
  workingDirectory : after.workingDirectory = before.workingDirectory
  invocations : calls.map Call.invocation = called.map (queryCommand config)
  succeeded : ∀ call ∈ calls.take finished.length, call.answer = .ok 0
  removed : ∀ number ∈ finished, after.node? (templatePlace home number) = none
  /-- A query is as its call left it. -/
  captured : ∀ (position number : Nat) (call : Call), called[position]? = some number →
    calls[position]? = some call →
      after.node? (queryPlace home number) = call.after.node? (queryPlace home number)
  kept : ∀ location, (∀ number ∈ finished, location ≠ templatePlace home number) →
    (∀ number ∈ called, location ≠ queryPlace home number) →
      after.node? location = before.node? location
  /-- A call sees its template. -/
  present : ∀ (position number : Nat) (call : Call), called[position]? = some number →
    calls[position]? = some call →
      call.before.node? (templatePlace home number) = before.node? (templatePlace home number)
  /-- A call sees no template of an earlier one. -/
  consumed : ∀ (earlier position number : Nat) (call : Call), earlier < position →
    called[earlier]? = some number → calls[position]? = some call →
      call.before.node? (templatePlace home number) = none
  /-- A call sees all else as it was. -/
  undisturbed : ∀ call ∈ calls, ∀ location, (∀ number ∈ called,
    location ≠ templatePlace home number ∧ location ≠ queryPlace home number) →
      call.before.node? location = before.node? location

variable {config : Config} {home : Location} {number : Nat} {called finished : List Nat}
  {call : Call} {calls : List Call} {before middle after : Store}

theorem generated_nil (config : Config) (home : Location) (store : Store) :
    Generated config home [] [] [] store store where
  workingDirectory := rfl
  invocations := rfl
  succeeded := List.forall_mem_nil _
  removed := List.forall_mem_nil _
  captured := nofun
  kept _ _ _ := rfl
  present := nofun
  consumed := nofun
  undisturbed := List.forall_mem_nil _

/-- A call for a query changes at most that query. -/
theorem frame_of_touchesOutput (touches : call.TouchesOutput)
    (query : call.invocation = queryCommand config number)
    (leads : call.before.Leads config.output.dir home) :
    call.after.Leads config.output.dir home ∧ ∀ location ≠ queryPlace home number,
      call.after.node? location = call.before.node? location := by
  have changed (location : Location)
      (other : call.after.node? location ≠ call.before.node? location) :
      location = queryPlace home number ∧ call.before.node? location ≠ some .directory := by
    obtain ⟨path, mark, content, output, opens⟩ := touches.touched location other
    rw [query] at output
    obtain rfl := Option.some.inj output
    obtain ⟨reaches, _, free⟩ := destination_eq_ok_iff.mp opens
    exact ⟨reaches.eq_concat (Artifact.query number).isPlain_name leads, opened_ne_directory free⟩
  refine ⟨leads.of_directories touches.workingDirectory fun location stands => ?_,
    fun location apart => ?_⟩
  · rw [Decidable.byContradiction fun other => (changed location other).2 stands, stands]
  · exact Decidable.byContradiction fun other => apart (changed location other).1

/-- After a call for a query its template can be removed, and the other templates stay. -/
theorem removeTemplate (touches : call.TouchesOutput)
    (query : call.invocation = queryCommand config number)
    (leads : call.before.Leads config.output.dir home)
    (fits : Fits config.output.dir (Artifact.template number).name) {executable : Bool}
    {content : Bytes}
    (stands : call.before.node? (templatePlace home number) = some (.file executable content)) :
    removeFiles config.output.dir [Artifact.templateName number] call.after =
        .ok () (call.after.erase (templatePlace home number)) ∧
      (call.after.erase (templatePlace home number)).Leads config.output.dir home ∧
      ∀ other ≠ number, (call.after.erase (templatePlace home number)).node?
        (templatePlace home other) = call.before.node? (templatePlace home other) := by
  obtain ⟨leadsAfter, frame⟩ := frame_of_touchesOutput touches query leads
  have stays : call.after.node? (templatePlace home number) = some (.file executable content) :=
    (frame _ (templatePlace_ne_queryPlace home number number)).trans stands
  refine ⟨?_, leadsAfter.erase home fun directory => ?_, fun other apart => ?_⟩
  · exact removeFiles_singleton leadsAfter (Artifact.template number).isPlain_name fits stays
  · cases stays.symm.trans directory
  · rw [templatePlace, node?_erase_concat, ← templatePlace, if_neg (templatePlace_ne apart),
      frame _ (templatePlace_ne_queryPlace home other number)]

/-- A call that is not answered well is the last one, and its template stays. -/
theorem generated_of_failed (query : call.invocation = queryCommand config number)
    (touches : call.TouchesOutput)
    (frame : ∀ location ≠ queryPlace home number,
      call.after.node? location = call.before.node? location) :
    Generated config home [number] [] [call] call.before call.after where
  workingDirectory := touches.workingDirectory
  invocations := congrArg ([·]) query
  succeeded := List.forall_mem_nil _
  removed := List.forall_mem_nil _
  captured position other found standsNumber standsCall := by
    cases position with
    | zero =>
      obtain rfl := Option.some.inj standsNumber
      obtain rfl := Option.some.inj standsCall
      rfl
    | succ position => cases standsCall
  kept location _ apart := frame location (apart number (List.mem_singleton_self number))
  present position other found standsNumber standsCall := by
    cases position with
    | zero =>
      obtain rfl := Option.some.inj standsCall
      rfl
    | succ position => cases standsCall
  consumed earlier position other found before _ standsCall := by
    cases position with
    | zero => cases before
    | succ position => cases standsCall
  undisturbed := List.forall_mem_singleton.mpr fun _ _ => rfl

/-- A query is finished, and then others are called for. -/
theorem Generated.cons (query : call.invocation = queryCommand config number)
    (touches : call.TouchesOutput) (answer : call.answer = .ok 0)
    (frame : ∀ location ≠ queryPlace home number,
      call.after.node? location = call.before.node? location)
    (fresh : number ∉ called) (among : ∀ other ∈ finished, other ∈ called)
    (later : Generated config home called finished calls
      (call.after.erase (templatePlace home number)) after) :
    Generated config home (number :: called) (number :: finished) (call :: calls) call.before
      after := by
  have apart {other : Nat} (member : other ∈ called) : other ≠ number :=
    fun same => fresh (same ▸ member)
  have between (location : Location) (notTemplate : location ≠ templatePlace home number)
      (notQuery : location ≠ queryPlace home number) :
      (call.after.erase (templatePlace home number)).node? location =
        call.before.node? location := by
    rw [templatePlace, node?_erase_concat, ← templatePlace, if_neg notTemplate,
      frame location notQuery]
  have gone : (call.after.erase (templatePlace home number)).node? (templatePlace home number) =
      none := by
    rw [templatePlace, node?_erase_concat, if_pos rfl]
  have outside : ∀ other ∈ called, templatePlace home number ≠ templatePlace home other ∧
      templatePlace home number ≠ queryPlace home other := fun other member =>
    ⟨templatePlace_ne (apart member).symm, templatePlace_ne_queryPlace home number other⟩
  constructor
  · exact later.workingDirectory.trans touches.workingDirectory
  · rw [List.map_cons, List.map_cons, query, later.invocations]
  · exact List.forall_mem_cons.mpr ⟨answer, later.succeeded⟩
  · refine List.forall_mem_cons.mpr ⟨?_, later.removed⟩
    rw [later.kept _ (fun other member => (outside other (among other member)).1)
      fun other member => (outside other member).2, gone]
  · intro position other found standsNumber standsCall
    cases position with
    | zero =>
      obtain rfl := Option.some.inj standsNumber
      obtain rfl := Option.some.inj standsCall
      rw [later.kept _ (fun other _ => (templatePlace_ne_queryPlace home other number).symm)
        fun other member => queryPlace_ne (apart member).symm, templatePlace, node?_erase_concat,
        ← templatePlace, if_neg (templatePlace_ne_queryPlace home number number).symm]
    | succ position => exact later.captured position other found standsNumber standsCall
  · intro location templates queries
    rw [List.forall_mem_cons] at templates queries
    rw [later.kept location templates.2 queries.2, between location templates.1 queries.1]
  · intro position other found standsNumber standsCall
    cases position with
    | zero =>
      obtain rfl := Option.some.inj standsCall
      rfl
    | succ position =>
      have different := apart (List.mem_of_getElem? standsNumber)
      rw [later.present position other found standsNumber standsCall,
        between _ (templatePlace_ne different) (templatePlace_ne_queryPlace home other number)]
  · intro earlier position other found before standsNumber standsCall
    cases position with
    | zero => cases before
    | succ position =>
      cases earlier with
      | zero =>
        obtain rfl := Option.some.inj standsNumber
        rw [later.undisturbed found (List.mem_of_getElem? standsCall) _ outside, gone]
      | succ earlier =>
        exact later.consumed earlier position other found (Nat.lt_of_succ_lt_succ before)
          standsNumber standsCall
  · refine List.forall_mem_cons.mpr ⟨fun _ _ => rfl, fun found member location other => ?_⟩
    rw [List.forall_mem_cons] at other
    rw [later.undisturbed found member location other.2, between location other.1.1 other.1.2]

/-! ## The stage -/

/-- The generation of queries ends when all are finished or at the first call that fails. -/
inductive GenerationEnds (config : Config) (home : Location) (numbers : List Nat)
    (calls : List Call) (before : Store) : EStateM.Result Failure (Machine Memory) Unit → Prop
  | finished {machine : Machine Memory}
    (generated : Generated config home numbers numbers calls before machine.store) :
    GenerationEnds config home numbers calls before (.ok () machine)
  | stopped {machine : Machine Memory} {count : Nat} {call : Call} {cause : Failure}
    (position : count < numbers.length) (last : calls[count]? = some call)
    (failed : call.failure? = some cause)
    (generated : Generated config home (numbers.take (count + 1)) (numbers.take count) calls before
      machine.store) :
    GenerationEnds config home numbers calls before (.error cause machine)

variable {runner : Runner Memory} {numbers : List Nat}

/-- A query is finished before the generation of others ends. -/
theorem GenerationEnds.cons {result : EStateM.Result Failure (Machine Memory) Unit}
    (query : call.invocation = queryCommand config number) (touches : call.TouchesOutput)
    (answer : call.answer = .ok 0)
    (frame : ∀ location ≠ queryPlace home number,
      call.after.node? location = call.before.node? location)
    (fresh : number ∉ numbers)
    (later : GenerationEnds config home numbers calls
      (call.after.erase (templatePlace home number)) result) :
    GenerationEnds config home (number :: numbers) (call :: calls) call.before result := by
  cases later with
  | finished generated =>
    exact .finished (generated.cons query touches answer frame fresh fun _ => id)
  | stopped position last failed generated =>
    refine .stopped (Nat.succ_lt_succ position) last failed
      (generated.cons query touches answer frame (fun member => fresh ?_) fun other member => ?_)
    · exact List.mem_of_mem_take member
    · exact List.take_subset_take_left _ (Nat.le_succ _) member

/-- A record of the calls is not needed to tell how a generation ends. -/
theorem GenerationEnds.forgetResult
    {result : EStateM.Result Failure (Machine (Memory × List Call)) Unit}
    (ends : GenerationEnds config home numbers calls before result) :
    GenerationEnds config home numbers calls before (Machine.forgetResult result) := by
  cases ends with
  | finished generated => exact .finished generated
  | stopped position last failed generated => exact .stopped position last failed generated

theorem generationEnds_generateQueries (distinct : numbers.Nodup)
    (machine : Machine (Memory × List Call)) (leads : machine.store.Leads config.output.dir home)
    (fits : ∀ number ∈ numbers, Fits config.output.dir (Artifact.template number).name)
    (staged : ∀ number ∈ numbers, ∃ executable content,
      machine.store.node? (templatePlace home number) = some (.file executable content))
    (made : (endState (generateQueries config (recorded runner) numbers machine)).memory.2 =
      machine.memory.2 ++ calls)
    (touches : ∀ call ∈ calls, call.TouchesOutput) :
    GenerationEnds config home numbers calls machine.store
      (generateQueries config (recorded runner) numbers machine) := by
  induction numbers generalizing machine calls with
  | nil =>
    obtain rfl : calls = [] := List.append_right_eq_self.mp made.symm
    exact .finished (generated_nil config home machine.store)
  | cons number rest ih =>
    obtain ⟨fresh, distinctRest⟩ := List.nodup_cons.mp distinct
    obtain ⟨fitsNumber, fitsRest⟩ := List.forall_mem_cons.mp fits
    obtain ⟨⟨executable, content, stands⟩, stagedRest⟩ := List.forall_mem_cons.mp staged
    obtain ⟨call, next, query, same, _, ran⟩ :=
      Run.checkedCommand_recorded runner (queryCommand config number) machine
    rw [← same] at leads stands stagedRest ⊢
    rw [generateQueries, bind_eq, ran] at made ⊢
    cases failed : call.failure? with
    | some cause =>
      simp only [failed, endState_error, List.append_cancel_left_eq] at made
      subst made
      have touched := touches call (List.mem_singleton_self call)
      have frame := (frame_of_touchesOutput touched query leads).2
      exact .stopped (Nat.zero_lt_succ _) rfl failed (generated_of_failed query touched frame)
    | none =>
      have answer := call.failure?_eq_none_iff.mp failed
      have removal := (Issues.files (removeFiles config.output.dir
        [Artifact.templateName number])).bind
          fun _ _ _ _ => issues_generateQueries config runner rest
      simp only [failed] at made ⊢
      obtain ⟨more, added, _⟩ := removal
        ⟨call.after, (next, machine.memory.2 ++ [call]),
          machine.invocations ++ [queryCommand config number]⟩
      obtain rfl : calls = call :: more := by
        have both := made.symm.trans added.calls
        rwa [List.append_assoc, List.append_cancel_left_eq] at both
      obtain ⟨touched, touchesMore⟩ := List.forall_mem_cons.mp touches
      have frame := (frame_of_touchesOutput touched query leads).2
      obtain ⟨removed, leadsRest, others⟩ := removeTemplate touched query leads fitsNumber stands
      have stagedAfter : ∀ other ∈ rest, ∃ executable content,
          (call.after.erase (templatePlace home number)).node? (templatePlace home other) =
            some (.file executable content) := by
        intro other member
        rw [others other fun same => fresh (same ▸ member)]
        exact stagedRest other member
      simp only [bind_eq, Run.files, removed] at made ⊢
      have later := ih distinctRest ⟨call.after.erase (templatePlace home number),
          (next, machine.memory.2 ++ [call]), machine.invocations ++ [queryCommand config number]⟩
        leadsRest fitsRest stagedAfter (made.trans (List.append_cons _ _ _)) touchesMore
      exact later.cons query touched answer frame fresh

/-- The stage with a record of its calls. -/
def recordedQueries (config : Config) (runner : Runner Memory) (machine : Machine Memory) :
    EStateM.Result Failure (Machine (Memory × List Call)) Unit :=
  generateQueries config (recorded runner) queryNumbers
    ⟨machine.store, (machine.memory, []), machine.invocations⟩

/-- The calls of the stage. -/
def queryCalls (config : Config) (runner : Runner Memory) (machine : Machine Memory) : List Call :=
  (endState (recordedQueries config runner machine)).memory.2

/-- What the generation of queries does from where all templates are staged. -/
structure QueryProgress (config : Config) (runner : Runner Memory) (machine : Machine Memory)
    (home : Location) : Prop where
  leads : machine.store.Leads config.output.dir home
  staged : ∀ number ∈ queryNumbers, ∃ executable content,
    machine.store.node? (templatePlace home number) = some (.file executable content)
  invocations : (endState (generateQueries config runner queryNumbers machine)).invocations =
    machine.invocations ++ (queryCalls config runner machine).map Call.invocation
  obeys : ∀ call ∈ queryCalls config runner machine, call.Obeys runner
  ends : GenerationEnds config home queryNumbers (queryCalls config runner machine) machine.store
    (generateQueries config runner queryNumbers machine)

/-- A template that is a file stands in the output directory. -/
theorem exists_leads_of_isFile {directory : String} {store : Store}
    (staged : store.isFile ((Artifact.template number).path directory) = true) :
    ∃ home executable content, store.Leads directory home ∧
      Fits directory (Artifact.template number).name ∧
      store.node? (templatePlace home number) = some (.file executable content) := by
  have plain := (Artifact.template number).isPlain_name
  obtain ⟨_, executable, content, found⟩ := find_of_isFile staged
  obtain ⟨home, leads, fits, rfl⟩ := place_of_find_join plain found
  exact ⟨home, executable, content, leads, fits, node?_of_find found⟩

theorem recordedQueries_spec (config : Config) (runner : Runner Memory)
    (machine : Machine Memory) :
    generateQueries config runner queryNumbers machine =
        Machine.forgetResult (recordedQueries config runner machine) ∧
      Added runner ⟨machine.store, (machine.memory, []), machine.invocations⟩
        (endState (recordedQueries config runner machine)) (queryCalls config runner machine) := by
  have observed := Machine.transparent_of_mirrors
    (mirrors_generateQueries (Machine.forgetting runner) config queryNumbers)
  obtain ⟨made, added, _⟩ := issues_generateQueries config runner queryNumbers
    ⟨machine.store, (machine.memory, []), machine.invocations⟩
  have same : queryCalls config runner machine = made := added.calls
  exact ⟨observed ⟨machine.store, (machine.memory, []), machine.invocations⟩, same ▸ added⟩

/-- From where all templates are staged, with calls that write nothing but their output, the stage
comes to its end or to a call that fails, and every query before this one is finished. -/
theorem generateQueries_progress {machine : Machine Memory}
    (staged : ∀ number ∈ queryNumbers,
      machine.store.isFile ((Artifact.template number).path config.output.dir) = true)
    (writes : ∀ call ∈ queryCalls config runner machine, call.TouchesOutput) :
    ∃ home, QueryProgress config runner machine home := by
  obtain ⟨home, _, _, leads, _⟩ := exists_leads_of_isFile (staged 1 (by decide))
  have standing : ∀ number ∈ queryNumbers, Fits config.output.dir (Artifact.template number).name ∧
      ∃ executable content,
        machine.store.node? (templatePlace home number) = some (.file executable content) := by
    intro number member
    obtain ⟨other, executable, content, again, fits, stands⟩ :=
      exists_leads_of_isFile (staged number member)
    obtain rfl := again.unique leads
    exact ⟨fits, executable, content, stands⟩
  obtain ⟨observed, added⟩ := recordedQueries_spec config runner machine
  have ends : GenerationEnds config home queryNumbers (queryCalls config runner machine)
      machine.store (recordedQueries config runner machine) :=
    generationEnds_generateQueries (by decide)
      ⟨machine.store, (machine.memory, []), machine.invocations⟩ leads
      (fun number member => (standing number member).1)
      (fun number member => (standing number member).2) added.calls writes
  refine ⟨home, leads, fun number member => (standing number member).2, ?_, added.obeys, ?_⟩
  · rw [observed, ← added.invocations]
    cases recordedQueries config runner machine <;> rfl
  · rw [observed]
    exact ends.forgetResult

/-- A machine whose output directory holds the templates of all queries. -/
def templatesStaged : Machine Unit where
  store := ⟨(["w"], .directory) :: (["w", "out"], .directory) :: queryNumbers.map fun number =>
    (["w", "out", (Artifact.template number).name], .file false (Text.encode "select :1")), ["w"]⟩
  memory := ()
  invocations := []

theorem generateQueries_progress_here :
    (∀ number ∈ queryNumbers, templatesStaged.store.isFile
      ((Artifact.template number).path (logNamed "log.txt").output.dir) = true) ∧
    (∀ call ∈ queryCalls (logNamed "log.txt") (writesOutput "select 1") templatesStaged,
      call.TouchesOutput) ∧
    ∃ home,
      QueryProgress (logNamed "log.txt") (writesOutput "select 1") templatesStaged home := by
  have staged : ∀ number ∈ queryNumbers, templatesStaged.store.isFile
      ((Artifact.template number).path (logNamed "log.txt").output.dir) = true := by
    decide +kernel
  have writes : ∀ call ∈ queryCalls (logNamed "log.txt") (writesOutput "select 1") templatesStaged,
      call.TouchesOutput := fun call member =>
    touchesOutput_of_writesOutput
      ((recordedQueries_spec (logNamed "log.txt") (writesOutput "select 1")
        templatesStaged).2.obeys call member)
  exact ⟨staged, writes, generateQueries_progress staged writes⟩

end Pipeline

end PowerTest
