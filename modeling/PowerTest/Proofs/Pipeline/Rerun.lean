import PowerTest.Proofs.Pipeline.OwnOutput
import PowerTest.Proofs.Pipeline.Restaging

/-!
# Running again

A full run consumes the rows that it converts. If the data generator then writes nothing, a second
full run over the same directory makes its two calls and stops at the first table, whose rows are
missing: `rerun_failsCleanly`. It stages the generator's files again, and everything else stays.

This asks of the transient names that they never turn upwards, and acceptance does not look at
them: one with two dots removes a file of the generator's, without which there is no second run
(`rerun_misses_resource`).
-/

namespace PowerTest

open Steps Store

variable {Memory Other : Type}

/-- Names in a configuration that are told apart from those of artifacts, and lead into the
directories that they are for. -/
structure Config.Tidy (config : Config) : Prop where
  resources : ∀ name ∈ config.generator.resources,
    Path.IsPlain name ∧ ∀ artifact : Artifact, artifact.name ≠ name
  transient : ∀ name ∈ config.generator.transient, Path.Descends name
  log : Path.IsPlain config.client.logFileName

/-- An output directory that is neither of the generator's directories, nor above one. -/
structure Config.KeepsApart (config : Config) (store : Store) : Prop where
  generator : ∀ home place, store.Leads config.output.dir home →
    store.Leads config.generator.dir place → ¬home <+: place
  queries : ∀ home place, store.Leads config.output.dir home →
    store.Leads (Path.join config.generator.dir config.generator.queryDir) place → ¬home <+: place

/-- A call that ends well and changes no file. -/
structure Call.Idle (call : Call) : Prop where
  answer : call.answer = .ok 0
  workingDirectory : call.after.workingDirectory = call.before.workingDirectory
  untouched : ∀ location, call.after.node? location = call.before.node? location

theorem Call.Idle.restaged {call : Call} (idle : call.Idle) (home : Location) :
    Restaged home [] call.before call.after :=
  ⟨⟨idle.workingDirectory, fun location => by rw [idle.untouched]⟩, fun location _ =>
    idle.untouched location⟩

namespace Pipeline

variable {config : Config} {runner : Runner Memory} {now : Int} {home generator queries : Location}
  {first : Table} {rest : List Table}

/-! ## What the first run leaves -/

theorem plan_full (config : Config) :
    ∃ later, config.plan .full =
        .prepare :: ([.generateBaseData, .generateIncrementalData] ++ .convertTables :: later) ∧
      ∀ stage ∈ later, stage ∉ [Stage.prepare, .generateBaseData, .generateIncrementalData] := by
  rw [Config.plan]
  split <;> exact ⟨_, rfl, by decide⟩

theorem tables_ne_nil (valid : config.validate = .ok ()) : config.generator.tables ≠ [] :=
  (Config.validate_eq_ok_iff_acceptable.mp valid).tables

/-- A stage on files that succeeds ends in the store that its steps end in. -/
theorem ok_of_filesStage {steps : Files Unit} {progress next : Progress}
    {machine after : Machine Memory}
    (done : (do Run.files steps; pure progress : Run Memory Progress) machine = .ok next after) :
    steps machine.store = .ok () after.store := by
  obtain ⟨_, middle, ran, handed⟩ := bind_eq_ok_iff.mp done
  obtain ⟨_, rfl⟩ := EStateM.Result.ok.inj handed
  obtain ⟨store, ended, rfl⟩ := Run.files_eq_ok_iff.mp ran
  exact ended

/-- A directory without the rows of its first table, and prepared for another run. -/
structure Consumed (config : Config) (first : Table) (generator queries home : Location)
    (store : Store) : Prop where
  fits : Fits config.output.dir (Artifact.tableData first).name
  gone : store.node? (home ++ [(Artifact.tableData first).name]) = none
  restageable : Restageable config generator queries home store
  notGenerator : home ≠ generator
  notQueries : home ≠ queries

section FirstRun

variable (tidy : config.Tidy) (writes : ∀ call : Call, call.Obeys runner → call.WritesOwn config)

include tidy writes

theorem alters_performAll {comes : String → Prop} (known : ∀ name, settled name → comes name)
    {stages : List Stage} (later : ∀ stage ∈ stages, stage ≠ .prepare)
    (generates : ∀ stage ∈ stages, stage = .generateBaseData ∨ stage = .generateIncrementalData →
      ∀ name, comes name) {progress next : Progress} {machine after : Machine Memory}
    (leads : machine.store.Leads config.output.dir home)
    (done : performAll config runner now progress stages machine = .ok next after) :
    Alters home comes machine.store after.store := by
  have altered : Altered home comes machine.store
      (endState (performAll config runner now progress stages machine)) :=
    maintains_altered_performAll leads writes tidy.log tidy.transient known later generates progress
      machine (alters_refl home comes machine.store)
  rw [done] at altered
  exact altered

/-- Once the data is generated, no rows of base tables come any more. -/
theorem settles_performAll {stages : List Stage}
    (others : ∀ stage ∈ stages,
      stage ∉ [Stage.prepare, .generateBaseData, .generateIncrementalData])
    {progress next : Progress} {machine after : Machine Memory}
    (leads : machine.store.Leads config.output.dir home)
    (done : performAll config runner now progress stages machine = .ok next after) :
    Alters home settled machine.store after.store := by
  refine alters_performAll tidy writes (fun _ known => known) (fun stage member same => ?_)
    (fun stage member data => ?_) leads done
  · exact others stage member (same ▸ List.mem_cons_self)
  · refine absurd ?_ (others stage member)
    rcases data with rfl | rfl <;> decide

theorem consumed_of_run (tables : config.generator.tables = first :: rest)
    {machine after : Machine Memory} {report : Option Timing.Report}
    (ended : run config runner now .full machine = .ok report after)
    (apart : config.KeepsApart after.store) :
    ∃ generator queries home, Consumed config first generator queries home after.store := by
  have plain : ∀ name ∈ config.generator.resources, Path.IsPlain name :=
    fun name member => (tidy.resources name member).1
  obtain ⟨progress, final, done, handed⟩ := bind_eq_ok_iff.mp ended
  obtain ⟨_, rfl⟩ := EStateM.Result.ok.inj handed
  obtain ⟨later, plan, others⟩ := plan_full config
  rw [plan] at done
  obtain ⟨_, prepared, preparing, done⟩ := performAll_cons_eq_ok_iff.mp done
  rw [performAll_append] at done
  obtain ⟨_, generated, generating, done⟩ := bind_eq_ok_iff.mp done
  obtain ⟨_, converted, converting, finishing⟩ := performAll_cons_eq_ok_iff.mp done
  obtain ⟨generator, queries, home, leadsGenerator, leadsQueries, leads, ready⟩ :=
    restageable_of_prepare plain (ok_of_filesStage preparing)
  -- The two stages that generate data may bring anything, and the later ones no rows of tables.
  have bringing : Alters home (fun _ => True) prepared.store generated.store :=
    alters_performAll tidy writes (fun _ _ => trivial) (by decide)
      (fun _ _ _ _ => trivial) leads generating
  have row := ok_of_filesStage converting
  rw [convertTables_eq, tables] at row
  have proper : ∀ job ∈ (first :: rest).map Config.tableJob, job.source ≠ job.destination := by
    intro job member
    obtain ⟨table, _, rfl⟩ := List.mem_map.mp member
    exact Artifact.noConfusion
  have fresh : ∀ job ∈ rest.map Config.tableJob,
      job.destination ≠ (Config.tableJob first).source := by
    intro job member
    obtain ⟨table, _, rfl⟩ := List.mem_map.mp member
    exact Artifact.noConfusion
  obtain ⟨led, fits, consumed⟩ := consumed_of_runAll proper fresh (bringing.leads leads) row
  have settling : Alters home settled generated.store final.store :=
    settles_performAll tidy writes (List.forall_mem_cons.mpr ⟨by decide, others⟩)
      (bringing.leads leads) done
  have finished : Alters home settled converted.store final.store :=
    settles_performAll tidy writes others led finishing
  have altered := bringing.trans (settling.mono fun _ _ => trivial)
  have notGenerator := apart.generator home generator (altered.leads leads)
    (altered.leads leadsGenerator)
  have notQueries := apart.queries home queries (altered.leads leads) (altered.leads leadsQueries)
  have aside {place : Location} (other : ¬home <+: place) : home ≠ place :=
    fun same => other (same ▸ List.prefix_rfl)
  refine ⟨generator, queries, home, fits, ?_, ?_, aside notGenerator, aside notQueries⟩
  · rcases finished.new _ consumed with gone | known
    · exact gone
    · exact absurd rfl (known first)
  · exact (ready (aside notGenerator) (aside notQueries)).alters altered notGenerator notQueries
      fun name member => (tidy.resources name member).2

end FirstRun

/-! ## The second run -/

/-- A command that changes no file only adds to the record. -/
theorem checkedCommand_of_idle {invocation : Invocation}
    (idle : ∀ call : Call, call.Obeys runner → call.invocation = invocation → call.Idle)
    (machine : Machine Memory) (home : Location) :
    ∃ memory after, Run.checkedCommand runner invocation machine =
        .ok () ⟨after, memory, machine.invocations ++ [invocation]⟩ ∧
      Restaged home [] machine.store after := by
  obtain ⟨call, next, same, seen, came, ran⟩ := Run.checkedCommand_eq runner invocation machine
  have still : call.Idle := idle call ⟨machine.memory, next, by rw [same, seen, came]⟩ same
  rw [call.failure?_eq_none_iff.mpr still.answer] at ran
  exact ⟨next, call.after, ran, seen ▸ still.restaged home⟩

/-- A conversion that starts with a table whose rows are missing changes nothing. -/
theorem convertTables_of_lacks {directory : String} {store : Store}
    (lacks : store.Lacks ((Artifact.tableData first).path directory)) :
    convertTables directory (first :: rest) store =
      .error (.sourceNotFound ((Artifact.tableData first).path directory)) store := by
  exact bind_eq_of_error (convert_of_find_eq_error lacks) _

/-- Only templates are staged under names of artifacts. -/
theorem not_mem_staged (tidy : config.Tidy) {artifact : Artifact}
    (other : ∀ number, artifact ≠ .template number) :
    artifact.name ∉ config.generator.resources ++ Artifact.templateNames := by
  intro member
  rcases List.mem_append.mp member with resource | template
  · exact (tidy.resources _ resource).2 artifact rfl
  · obtain ⟨number, _, same⟩ := Artifact.name_mem_templateNames.mp template
    exact other number same

/-- A run over a directory that is prepared and has no rows of the first table: it makes the two
calls for data, stops, and changes nothing but what it stages. -/
theorem run_of_consumed (tidy : config.Tidy) (tables : config.generator.tables = first :: rest)
    (idle : ∀ call : Call, call.Obeys runner → call.invocation ∈ config.dataCommands → call.Idle)
    {store : Store} (consumed : Consumed config first generator queries home store)
    (memory : Memory) :
    ∃ final, run config runner now .full ⟨store, memory, []⟩ =
        .error ⟨.convertTables, .sourceNotFound (config.pathOf (.tableData first))⟩ final ∧
      final.invocations = config.dataCommands ∧
      Restaged home (config.generator.resources ++ Artifact.templateNames) store final.store := by
  have plain : ∀ name ∈ config.generator.resources, Path.IsPlain name :=
    fun name member => (tidy.resources name member).1
  obtain ⟨later, plan, _⟩ := plan_full config
  obtain ⟨staged, prepared, one⟩ := prepare_of_restageable plain consumed.restageable
    consumed.notGenerator consumed.notQueries
  obtain ⟨next, based, base, two⟩ := checkedCommand_of_idle
    (fun call obeys same => idle call obeys (same ▸ List.mem_cons_self)) ⟨staged, memory, []⟩ home
  obtain ⟨last, left, increment, three⟩ := checkedCommand_of_idle
    (fun call obeys same => idle call obeys (same ▸ List.mem_cons_of_mem _ List.mem_cons_self))
    ⟨based, next, [baseDataCommand config]⟩ home
  have restaged := (one.append two).append three
  rw [List.append_nil, List.append_nil] at restaged
  refine ⟨⟨left, last, config.dataCommands⟩, ?_, rfl, restaged⟩
  have lacks : left.Lacks (config.pathOf (.tableData first)) := by
    refine (lacks_iff (restaged.directories.leads_iff.mpr consumed.restageable.leadsHome)
      consumed.fits).mpr ?_
    rw [restaged.kept _ fun name member here => ?_]
    · exact consumed.gone
    · obtain rfl := concat_inj.mp here
      exact not_mem_staged tidy (fun _ => Artifact.noConfusion) member
  have stops : convertTables config.output.dir config.generator.tables left =
      .error (.sourceNotFound (config.pathOf (.tableData first))) left := by
    rw [tables]
    exact convertTables_of_lacks lacks
  have stopped : performAll config runner now .none (config.plan .full) ⟨store, memory, []⟩ =
      .error ⟨.convertTables, .sourceNotFound (config.pathOf (.tableData first))⟩
        ⟨left, last, config.dataCommands⟩ := by
    simp only [plan, List.cons_append, List.nil_append, performAll, perform, bind_eq, Run.files,
      prepared, base, pure_eq, increment, stops]
    rfl
  exact bind_eq_of_error stopped _

/-- A run that finds the rows of the first table missing and damages nothing: it makes the two calls
for data, and outside of what it stages every file and directory stays as it is. -/
structure FailsCleanly (config : Config) (runner : Runner Memory) (now : Int) (store : Store)
    (memory : Memory) (first : Table) (home : Location) (final : Machine Memory) : Prop where
  heads : config.generator.tables.head? = some first
  failed : run config runner now .full ⟨store, memory, []⟩ =
    .error ⟨.convertTables, .sourceNotFound (config.pathOf (.tableData first))⟩ final
  commands : final.invocations = config.dataCommands
  leads : store.Leads config.output.dir home
  stays : final.store.Leads config.output.dir home
  /-- Among these are the scripts, the queries and the run directories with what lies in them. -/
  artifacts : ∀ (artifact : Artifact) (below : List String),
    (∀ number, artifact ≠ .template number) →
    final.store.node? (home ++ artifact.name :: below) =
      store.node? (home ++ artifact.name :: below)
  others : ∀ location,
    (∀ name ∈ config.generator.resources ++ Artifact.templateNames, location ≠ home ++ [name]) →
    final.store.node? location = store.node? location

/-- After a full run whose commands write their own output, and if the data generator then writes
nothing, a second full run fails cleanly. -/
theorem rerun_failsCleanly {second : Runner Other} {machine : Machine Memory}
    {report : Option Timing.Report} {store : Store} {memory : Memory}
    (valid : config.validate = .ok ()) (tidy : config.Tidy)
    (writes : ∀ call : Call, call.Obeys runner → call.WritesOwn config)
    (idle : ∀ call : Call, call.Obeys second → call.invocation ∈ config.dataCommands → call.Idle)
    (ended : run config runner now .full ⟨store, memory, []⟩ = .ok report machine)
    (apart : config.KeepsApart machine.store) (later : Int) (other : Other) :
    ∃ first home final,
      FailsCleanly config second later machine.store other first home final := by
  obtain ⟨first, rest, tables⟩ := List.exists_cons_of_ne_nil (tables_ne_nil valid)
  obtain ⟨generator, queries, home, consumed⟩ := consumed_of_run tidy writes tables ended apart
  obtain ⟨final, failed, commands, restaged⟩ := run_of_consumed tidy tables idle consumed other
  have leads := consumed.restageable.leadsHome
  refine ⟨first, home, final, by rw [tables, List.head?_cons], failed, commands, leads,
    restaged.directories.leads_iff.mpr leads, fun artifact below template => ?_, restaged.kept⟩
  refine restaged.kept _ fun name member here => ?_
  obtain ⟨rfl, _⟩ := List.cons.inj (List.append_cancel_left here)
  exact not_mem_staged tidy template member

/-! ## A run and its rerun -/

/-- A configuration with one table, one resource and a client. -/
def regionConfig (transient : List String) : Config where
  generator := { dir := "gen", tables := [.region], resources := ["dss.ddl"], transient }
  output := { dir := "out" }
  client := { command := ["client"] }

/-- A data generator that writes rows of a table, beside commands that write a line to the files
for their output. -/
def generatesRows (config : Config) (table : Table) (rows line : String) : Runner Unit :=
  fun invocation memory store =>
    if invocation ∈ config.dataCommands then
      let path := config.pathOf (.tableData table)
      match store.write path (Text.encode rows) with
      | .ok after => (.ok 0, (), after)
      | .error fault => (.error (.destinationWrite path fault), (), store)
    else writesOutput line invocation memory store

/-- A runner whose commands do nothing. -/
def idles : Runner Unit := fun _ _ store => (.ok 0, (), store)

theorem idle_of_idles {call : Call} (obeys : call.Obeys idles) : call.Idle := by
  obtain ⟨_, _, came⟩ := obeys
  obtain ⟨answer, last⟩ := Prod.mk.inj came
  obtain same : call.before = call.after := (Prod.mk.inj last).2
  exact ⟨answer.symm, same ▸ rfl, fun location => same ▸ rfl⟩

theorem writesOwn_of_write {call : Call} {path : String} {content : Bytes}
    (written : call.before.write path content = .ok call.after)
    (owns : ∀ location mark old, call.before.destination path = .ok (location, mark, old) →
      call.Owns config location) : call.WritesOwn config := by
  obtain ⟨workingDirectory, changes⟩ := changed_of_write written
  refine ⟨workingDirectory, fun location changed => ?_⟩
  obtain ⟨⟨mark, old, opens⟩, executable, file⟩ := changes location changed
  obtain ⟨_, _, _, free, _⟩ := locate_of_destination opens
  exact ⟨owns location mark old opens, free, executable, content, file⟩

theorem writesOwn_of_generatesRows {table : Table} {rows line : String} {call : Call}
    (obeys : call.Obeys (generatesRows config table rows line)) : call.WritesOwn config := by
  have untouched (same : call.after = call.before) : call.WritesOwn config :=
    ⟨same ▸ rfl, fun location changed => absurd (same ▸ rfl) changed⟩
  obtain ⟨_, _, came⟩ := obeys
  by_cases data : call.invocation ∈ config.dataCommands
  · simp only [generatesRows, data, if_true] at came
    split at came
    · rename_i after written
      have last : after = call.after := (Prod.mk.inj (Prod.mk.inj came).2).2
      refine writesOwn_of_write (last ▸ written) fun location mark old opens => ?_
      have plain := (Artifact.tableData table).isPlain_name
      obtain ⟨home, leads, _, here, _⟩ := opened_of_destination plain opens
      rw [← (standardOutput_of_mem_dataCommands data).2] at leads
      have isData : (Artifact.tableData table).IsData := trivial
      exact .data data leads isData here
    · exact untouched (Prod.mk.inj (Prod.mk.inj came).2).2.symm
  · simp only [generatesRows, data, if_false] at came
    rcases untouched_or_written_of_writesOutput ⟨_, _, came⟩ with same | ⟨path, output, written⟩
    · exact untouched same
    · exact writesOwn_of_write written fun _ _ _ opens => .output output opens

/-- A store with a generator's directory and an output directory that has a refresh set. -/
def refreshSetFiles : Store where
  entries := generatorFiles.entries ++ [(["w", "out"], .directory),
    (["w", "out", (Artifact.updateData .orders 1).name], .file false []),
    (["w", "out", (Artifact.updateData .lineitem 1).name], .file false []),
    (["w", "out", (Artifact.deleteKeys 1).name], .file false [])]
  workingDirectory := ["w"]

/-- The commands of a first run: rows for the table, and a line for the log and the queries. -/
def firstCommands (transient : List String) : Runner Unit :=
  generatesRows (regionConfig transient) .region "0|AFRICA|\n" "log\nq1: 1.5\n"

def firstRun (transient : List String) :
    EStateM.Result StageFailure (Machine Unit) (Option Timing.Report) :=
  run (regionConfig transient) (firstCommands transient) 1000 .full ⟨refreshSetFiles, (), []⟩

def secondRun (transient : List String) (store : Store) :
    EStateM.Result StageFailure (Machine Unit) (Option Timing.Report) :=
  run (regionConfig transient) idles 2000 .full ⟨store, (), []⟩

theorem resources_regionConfig {transient : List String} :
    ∀ name ∈ (regionConfig transient).generator.resources,
      Path.IsPlain name ∧ ∀ artifact : Artifact, artifact.name ≠ name := by
  have plain : Path.IsPlain "dss.ddl" := by constructor <;> decide
  have apart : ∀ kind ∈ Artifact.kinds, Text.letters kind.name ≠ Text.letters "dss.ddl" := by
    decide +kernel
  refine List.forall_mem_singleton.mpr ⟨plain, fun artifact same => ?_⟩
  exact apart _ artifact.unnumbered_mem_kinds (by rw [← Artifact.letters_name, same])

theorem isPlain_regionConfig_log {transient : List String} :
    Path.IsPlain (regionConfig transient).client.logFileName := by
  have plain : Path.IsPlain "client_stdout.txt" := by constructor <;> decide
  exact plain

/-- The two directories lie side by side. -/
theorem keepsApart_regionConfig {transient : List String} {store : Store}
    (works : store.workingDirectory = ["w"]) (present : store.isDirectory "gen" = true) :
    (regionConfig transient).KeepsApart store := by
  have plain : ∀ name ∈ ["gen", "out", "queries"], Path.IsPlain name := by
    intro name member
    simp only [List.mem_cons, List.not_mem_nil, or_false] at member
    rcases member with rfl | rfl | rfl <;> constructor <;> decide
  have output {home : Location} (leads : store.Leads "out" home) : home = ["w", "out"] := by
    rw [place_of_leads_plain (plain "out" (by decide)) leads, works]
    rfl
  have generator {place : Location} (leads : store.Leads "gen" place) : place = ["w", "gen"] := by
    rw [place_of_leads_plain (plain "gen" (by decide)) leads, works]
    rfl
  obtain ⟨middle, found⟩ := find_of_isDirectory present
  obtain rfl := generator (leads_of_find found)
  constructor
  · intro home place leads led
    rw [output leads, generator led]
    decide
  · intro home place leads led
    rw [output leads, place_of_leads_join (leads_of_find found) (plain "queries" (by decide)) led]
    decide

/-- Whether a run ends well with a store that passes a check. -/
def endsIn (check : Store → Bool) :
    EStateM.Result StageFailure (Machine Unit) (Option Timing.Report) → Bool
  | .ok _ machine => check machine.store
  | .error _ _ => false

theorem exists_of_endsIn {check : Store → Bool}
    {result : EStateM.Result StageFailure (Machine Unit) (Option Timing.Report)}
    (ends : endsIn check result = true) :
    ∃ report machine, result = .ok report machine ∧ check machine.store = true := by
  cases result with
  | ok report machine => exact ⟨report, machine, rfl, ends⟩
  | error failure machine => cases ends

/-- The two directories are where they were. -/
def keepsPlaces (store : Store) : Bool :=
  store.workingDirectory = ["w"] && store.isDirectory "gen"

theorem keepsApart_of_keepsPlaces {transient : List String} {store : Store}
    (keeps : keepsPlaces store = true) : (regionConfig transient).KeepsApart store := by
  obtain ⟨works, present⟩ := Bool.and_eq_true_iff.mp keeps
  exact keepsApart_regionConfig (of_decide_eq_true works) present

theorem tidy_regionConfig : (regionConfig ["dss.ddl"]).Tidy where
  resources := resources_regionConfig
  transient := List.forall_mem_singleton.mpr
    (@resources_regionConfig [] "dss.ddl" List.mem_cons_self).1.descends
  log := isPlain_regionConfig_log

/-- After a run with a staged file that is transient, the second one fails cleanly. -/
theorem rerun_failsCleanly_region :
    (regionConfig ["dss.ddl"]).validate = .ok () ∧ (regionConfig ["dss.ddl"]).Tidy ∧
      (∀ call : Call, call.Obeys (firstCommands ["dss.ddl"]) →
        call.WritesOwn (regionConfig ["dss.ddl"])) ∧
      ∃ report machine, firstRun ["dss.ddl"] = .ok report machine ∧
        (regionConfig ["dss.ddl"]).KeepsApart machine.store ∧
        ∃ first home final,
          FailsCleanly (regionConfig ["dss.ddl"]) idles 2000 machine.store () first home final := by
  have accepted : (regionConfig ["dss.ddl"]).validate = .ok () :=
    Config.validate_eq_ok_iff.mpr (by decide +kernel)
  have ends : endsIn keepsPlaces (firstRun ["dss.ddl"]) = true := by decide +kernel
  obtain ⟨report, machine, ended, keeps⟩ := exists_of_endsIn ends
  have apart := @keepsApart_of_keepsPlaces ["dss.ddl"] _ keeps
  exact ⟨accepted, tidy_regionConfig, fun _ => writesOwn_of_generatesRows, report, machine, ended,
    apart, rerun_failsCleanly accepted tidy_regionConfig (fun _ => writesOwn_of_generatesRows)
      (fun _ obeys _ => idle_of_idles obeys) ended apart 2000 ()⟩

/-- Whether a run ends before its first command for want of a file. -/
def misses (path : String) :
    EStateM.Result StageFailure (Machine Unit) (Option Timing.Report) → Bool
  | .error ⟨.prepare, .sourceNotFound other⟩ machine =>
    other = path && machine.invocations.isEmpty
  | _ => false

theorem exists_of_misses {path : String}
    {result : EStateM.Result StageFailure (Machine Unit) (Option Timing.Report)}
    (missing : misses path result = true) :
    ∃ final, result = .error ⟨.prepare, .sourceNotFound path⟩ final ∧ final.invocations = [] := by
  unfold misses at missing
  split at missing
  · rename_i other final
    obtain ⟨same, none⟩ := Bool.and_eq_true_iff.mp missing
    obtain rfl : other = path := of_decide_eq_true same
    exact ⟨final, rfl, List.isEmpty_iff.mp none⟩
  · cases missing

/-- The configuration is accepted and its run ends well, but the generator has lost a file by it. -/
theorem rerun_misses_resource :
    (regionConfig ["../gen/dss.ddl"]).rejection? = none ∧
      (∀ call : Call, call.Obeys (firstCommands ["../gen/dss.ddl"]) →
        call.WritesOwn (regionConfig ["../gen/dss.ddl"])) ∧
      (∀ call : Call, call.Obeys idles → call.Idle) ∧
      ∃ report machine, firstRun ["../gen/dss.ddl"] = .ok report machine ∧
        (regionConfig ["../gen/dss.ddl"]).KeepsApart machine.store ∧
        ∃ final, secondRun ["../gen/dss.ddl"] machine.store =
            .error ⟨.prepare, .sourceNotFound "gen/dss.ddl"⟩ final ∧
          final.invocations = [] := by
  have accepted : (regionConfig ["../gen/dss.ddl"]).rejection? = none := by decide +kernel
  have ends : endsIn (fun store => keepsPlaces store &&
      misses "gen/dss.ddl" (secondRun ["../gen/dss.ddl"] store)) (firstRun ["../gen/dss.ddl"]) =
        true := by
    decide +kernel
  obtain ⟨report, machine, ended, checked⟩ := exists_of_endsIn ends
  obtain ⟨keeps, missing⟩ := Bool.and_eq_true_iff.mp checked
  exact ⟨accepted, fun _ => writesOwn_of_generatesRows, fun _ => idle_of_idles, report, machine,
    ended, keepsApart_of_keepsPlaces keeps, exists_of_misses missing⟩

end Pipeline

end PowerTest
