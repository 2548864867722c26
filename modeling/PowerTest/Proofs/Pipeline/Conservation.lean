import PowerTest.Proofs.Conversion.Jobs
import PowerTest.Proofs.Pipeline.Stages

/-!
# Conversions lose no row

The stages that convert are jobs in a row. Wherever they stop, every source that was a file is
still there, or its destination has its complete conversion: `conversion_conservesRows`.
-/

namespace PowerTest

open Steps Store

namespace Store

/-- A path that leads to a file. -/
def HasFile (store : Store) (path : String) (executable : Bool) (content : Bytes) : Prop :=
  ∃ location, store.find path = .ok (location, .file executable content)

/-- A path that leads to nothing. -/
def Lacks (store : Store) (path : String) : Prop :=
  store.find path = .error .notFound

variable {store : Store} {directory : String} {home : Location} {artifact : Artifact}
  {executable : Bool} {content : Bytes}

theorem hasFile_iff (leads : store.Leads directory home) :
    store.HasFile (artifact.path directory) executable content ↔
      store.Openable directory home artifact executable content := by
  constructor
  · rintro ⟨location, found⟩
    have fits : Fits directory artifact.name := by
      refine Classical.byContradiction fun unfit => ?_
      obtain ⟨fault, lost⟩ :=
        @find_of_not_leads store _ _ artifact.isPlain_name fun _ _ fits => unfit fits
      cases lost.symm.trans found
    rw [Artifact.path, find_join leads artifact.isPlain_name fits] at found
    refine ⟨fits, ?_⟩
    cases stands : store.node? (home ++ [artifact.name]) with
    | none => simp only [stands, reduceCtorEq] at found
    | some node =>
      simp only [stands, Except.ok.injEq, Prod.mk.injEq] at found
      rw [found.2]
  · rintro ⟨fits, stands⟩
    exact ⟨home ++ [artifact.name], by
      rw [Artifact.path, find_join leads artifact.isPlain_name fits, stands]⟩

theorem lacks_iff (leads : store.Leads directory home) (fits : Fits directory artifact.name) :
    store.Lacks (artifact.path directory) ↔ store.node? (home ++ [artifact.name]) = none := by
  rw [Lacks, Artifact.path, find_join leads artifact.isPlain_name fits]
  cases store.node? (home ++ [artifact.name]) with
  | none => simp only
  | some node => simp only [reduceCtorEq]

theorem read_of_node? (leads : store.Leads directory home) (fits : Fits directory artifact.name)
    (stands : store.node? (home ++ [artifact.name]) = some (.file executable content)) :
    store.read (artifact.path directory) = .ok content := by
  rw [Artifact.path, read_join leads artifact.isPlain_name fits, stands]

theorem not_hasFile_of_nowhere (nowhere : ∀ home, ¬store.Leads directory home) :
    ¬store.HasFile (artifact.path directory) executable content := by
  rintro ⟨location, found⟩
  obtain ⟨fault, lost⟩ :=
    find_of_not_leads artifact.isPlain_name fun home leads => absurd leads (nowhere home)
  cases lost.symm.trans found

end Store

namespace Config

/-- The path of an artifact of a run. -/
def pathOf (config : Config) (artifact : Artifact) : String := artifact.path config.output.dir

/-- The conversion of a base table. -/
def tableJob (table : Table) : Job :=
  ⟨insertion table, .tableData table, .loadScript table, .overwrite⟩

/-- The conversion of the rows that the refresh set adds to a table. -/
def updateJob (config : Config) (table : Table) (mode : WriteMode) : Job :=
  ⟨insertion table, .updateData table config.set, .firstRefresh, mode⟩

/-- The conversion of the keys that the refresh set deletes. -/
def deleteJob (config : Config) : Job :=
  ⟨deleteStatements (Pipeline.keyFormat config), .deleteKeys config.set, .secondRefresh, .overwrite⟩

/-- The two conversions that fill one script. -/
def updateJobs (config : Config) : List Job :=
  [config.updateJob .orders .overwrite, config.updateJob .lineitem .append]

/-- The conversions of a run, in order. -/
def jobs (config : Config) : List Job :=
  config.generator.tables.map tableJob ++ (config.updateJobs ++ [config.deleteJob])

end Config

namespace Pipeline

variable {Memory : Type}

/-- The stages that convert, in order. -/
def conversion : List Stage := [.convertTables, .convertIncremental, .convertDeletes]

theorem convertTables_eq (directory : String) (tables : List Table) :
    convertTables directory tables = Job.runAll directory (tables.map Config.tableJob) := by
  induction tables with
  | nil => rfl
  | cons table rest ih =>
    rw [convertTables, ih]
    rfl

theorem convertIncremental_eq (config : Config) :
    convertIncremental config.output.dir config.set =
      Job.runAll config.output.dir config.updateJobs := rfl

theorem convertDeleteKeys_eq (config : Config) :
    convertDeleteKeys config = Job.runAll config.output.dir [config.deleteJob] := rfl

/-- The stages that convert do to the store what the conversions do. -/
theorem endState_conversion (config : Config) (runner : Runner Memory) (now : Int)
    (machine : Machine Memory) :
    (endState (performAll config runner now .none conversion machine)).store =
      endState (Job.runAll config.output.dir config.jobs machine.store) := by
  rw [Config.jobs, Job.runAll_append, Job.runAll_append]
  simp only [conversion, performAll, perform, bind_eq, Run.files, convertTables_eq,
    show config.generator.refreshSet.toNat = config.set from rfl, convertIncremental_eq,
    convertDeleteKeys_eq]
  cases Job.runAll config.output.dir (config.generator.tables.map Config.tableJob)
      machine.store with
  | error failure tables => rfl
  | ok _ tables =>
    simp only [pure_eq]
    cases Job.runAll config.output.dir config.updateJobs tables with
    | error failure updates => rfl
    | ok _ updates =>
      simp only
      cases Job.runAll config.output.dir [config.deleteJob] updates with
      | error failure deletes => rfl
      | ok _ deletes => rfl

/-- What a run that converts leaves of the files that were there before. -/
structure ConservesRows (config : Config) (before after : Store) : Prop where
  tables : ∀ table ∈ config.generator.tables, ∀ executable content,
    before.HasFile (config.pathOf (.tableData table)) executable content →
      after.HasFile (config.pathOf (.tableData table)) executable content ∨
        after.Lacks (config.pathOf (.tableData table)) ∧
          ∃ script, Converts (insertion table) content script ∧
            after.read (config.pathOf (.loadScript table)) = .ok script
  orders : ∀ executable content,
    before.HasFile (config.pathOf (.updateData .orders config.set)) executable content →
      after.HasFile (config.pathOf (.updateData .orders config.set)) executable content ∨
        after.Lacks (config.pathOf (.updateData .orders config.set)) ∧
          ∃ script rest, Converts (insertion .orders) content script ∧
            after.read (config.pathOf .firstRefresh) = .ok (script ++ rest) ∧
            (∀ executable content,
              before.HasFile (config.pathOf (.updateData .lineitem config.set)) executable content →
                ConvertsStart (insertion .lineitem) content rest ∧
                  (after.Lacks (config.pathOf (.updateData .lineitem config.set)) →
                    Converts (insertion .lineitem) content rest)) ∧
            ((∀ executable content, ¬before.HasFile
              (config.pathOf (.updateData .lineitem config.set)) executable content) → rest = [])
  /-- The lines of orders are converted behind the orders. -/
  lineitem : ∀ executable content,
    before.HasFile (config.pathOf (.updateData .lineitem config.set)) executable content →
      after.HasFile (config.pathOf (.updateData .lineitem config.set)) executable content ∨
        after.Lacks (config.pathOf (.updateData .lineitem config.set)) ∧
          after.Lacks (config.pathOf (.updateData .orders config.set)) ∧
          ∃ executable content,
            before.HasFile (config.pathOf (.updateData .orders config.set)) executable content
  deletes : ∀ executable content,
    before.HasFile (config.pathOf (.deleteKeys config.set)) executable content →
      after.HasFile (config.pathOf (.deleteKeys config.set)) executable content ∨
        after.Lacks (config.pathOf (.deleteKeys config.set)) ∧
          ∃ script, Converts (deleteStatements (keyFormat config)) content script ∧
            after.read (config.pathOf .secondRefresh) = .ok script
  /-- Nothing happens to other files. -/
  untouched : ∀ location,
    (∀ home, before.Leads config.output.dir home → ∀ job ∈ config.jobs,
      location ≠ home ++ [job.source.name] ∧ location ≠ home ++ [job.destination.name]) →
    after.node? location = before.node? location

theorem proper_of_mem_jobs {config : Config} :
    ∀ job ∈ config.jobs, job.source ≠ job.destination := by
  intro job member
  simp only [Config.jobs, Config.updateJobs, List.mem_append, List.mem_map, List.mem_cons,
    List.not_mem_nil, or_false] at member
  rcases member with ⟨table, _, rfl⟩ | (rfl | rfl) | rfl <;> exact nofun

/-- The conversion of a table shares no file with any other conversion. -/
theorem tableJob_apart {config : Config} (table : Table) :
    ∀ other ∈ config.jobs, other = Config.tableJob table ∨ (Config.tableJob table).Apart other := by
  intro other member
  simp only [Config.jobs, Config.updateJobs, List.mem_append, List.mem_map, List.mem_cons,
    List.not_mem_nil, or_false] at member
  rcases member with ⟨another, _, rfl⟩ | (rfl | rfl) | rfl
  · by_cases same : another = table
    · exact .inl (by rw [same])
    · refine .inr ⟨fun equal => same ?_, fun equal => same ?_, nofun, nofun⟩
      · exact (Artifact.tableData.inj equal).symm
      · exact (Artifact.loadScript.inj equal).symm
  · exact .inr ⟨nofun, nofun, nofun, nofun⟩
  · exact .inr ⟨nofun, nofun, nofun, nofun⟩
  · exact .inr ⟨nofun, nofun, nofun, nofun⟩

theorem deleteJob_apart {config : Config} :
    ∀ other ∈ config.jobs, other = config.deleteJob ∨ config.deleteJob.Apart other := by
  intro other member
  simp only [Config.jobs, Config.updateJobs, List.mem_append, List.mem_map, List.mem_cons,
    List.not_mem_nil, or_false] at member
  rcases member with ⟨another, _, rfl⟩ | (rfl | rfl) | rfl
  · exact .inr ⟨nofun, nofun, nofun, nofun⟩
  · exact .inr ⟨nofun, nofun, nofun, nofun⟩
  · exact .inr ⟨nofun, nofun, nofun, nofun⟩
  · exact .inl rfl

theorem updateJobs_apart {config : Config} :
    ∀ job ∈ config.generator.tables.map Config.tableJob ++ [config.deleteJob],
      job.source ≠ job.destination ∧ (config.updateJob .orders .overwrite).Apart job ∧
        (config.updateJob .lineitem .append).Apart job := by
  intro job member
  simp only [List.mem_append, List.mem_map, List.mem_singleton] at member
  rcases member with ⟨table, _, rfl⟩ | rfl
  · exact ⟨nofun, ⟨nofun, nofun, nofun, nofun⟩, ⟨nofun, nofun, nofun, nofun⟩⟩
  · exact ⟨nofun, ⟨nofun, nofun, nofun, nofun⟩, ⟨nofun, nofun, nofun, nofun⟩⟩

variable {config : Config} {before after : Store} {home : Location}

/-- A source that is conserved where it stands is conserved under its path. -/
theorem conserved_of_conserves {job : Job} (leads : before.Leads config.output.dir home)
    (led : after.Leads config.output.dir home)
    (conserved : job.Conserves config.output.dir home before after) (executable : Bool)
    (content : Bytes)
    (present : before.HasFile (config.pathOf job.source) executable content) :
    after.HasFile (config.pathOf job.source) executable content ∨
      after.Lacks (config.pathOf job.source) ∧
        ∃ script, Converts job.render content script ∧
          after.read (config.pathOf job.destination) = .ok script := by
  obtain ⟨fits, stands⟩ := (hasFile_iff leads).mp present
  rcases conserved executable content stands with
    stays | ⟨gone, mark, script, whole, fitsScript, written⟩
  · exact .inl ((hasFile_iff led).mpr ⟨fits, stays⟩)
  · exact .inr ⟨(lacks_iff led fits).mpr gone, script, whole, read_of_node? led fitsScript written⟩

theorem conversion_conservesRows (config : Config) (runner : Runner Memory) (now : Int)
    (machine : Machine Memory) :
    ConservesRows config machine.store
      (endState (performAll config runner now .none conversion machine)).store := by
  rw [endState_conversion]
  by_cases somewhere : ∃ home, machine.store.Leads config.output.dir home
  · obtain ⟨home, leads⟩ := somewhere
    have led := Job.leads_runAll config.jobs proper_of_mem_jobs leads
    have conserved {job : Job} (anew : job.mode = .overwrite)
        (others : ∀ other ∈ config.jobs, other = job ∨ job.Apart other) :=
      conserved_of_conserves leads led (Job.conserves_runAll proper_of_mem_jobs anew others leads
        (Job.conserves_refl job _ _ _)).2
    have filled := Job.fillsOne_runAll (config.updateJob .orders .overwrite)
      (config.updateJob .lineitem .append) nofun nofun nofun rfl rfl rfl updateJobs_apart leads
    refine ⟨?_, ?_, ?_, ?_, ?_⟩
    · intro table _
      exact @conserved (Config.tableJob table) rfl (tableJob_apart table)
    · intro executable content present
      obtain ⟨fits, stands⟩ := (hasFile_iff leads).mp present
      rcases filled.front executable content stands with
        stays | ⟨gone, mark, script, rest, whole, contributes, fitsScript, written⟩
      · exact .inl ((hasFile_iff led).mpr ⟨fits, stays⟩)
      refine .inr ⟨(lacks_iff led fits).mpr gone, script, rest, whole,
        read_of_node? led fitsScript written, ?_, ?_⟩
      · intro executable content presentLines
        have lines := (hasFile_iff leads).mp presentLines
        rcases contributes with ⟨_, _, found, start, complete⟩ | ⟨absent, _⟩
        · obtain ⟨rfl, rfl⟩ := Node.file.inj (Option.some.inj (lines.2.symm.trans found.2))
          exact ⟨start, fun gone => complete ((lacks_iff led lines.1).mp gone)⟩
        · exact absurd lines (absent _ _)
      · intro absent
        rcases contributes with ⟨executable, content, found, _, _⟩ | ⟨_, nothing⟩
        · exact absurd ((hasFile_iff leads).mpr found) (absent _ _)
        · exact nothing
    · intro executable content present
      obtain ⟨fits, stands⟩ := (hasFile_iff leads).mp present
      rcases filled.back executable content stands with
        stays | ⟨gone, goneOrders, executableOrders, orders, found⟩
      · exact .inl ((hasFile_iff led).mpr ⟨fits, stays⟩)
      · exact .inr ⟨(lacks_iff led fits).mpr gone, (lacks_iff led found.1).mpr goneOrders,
          executableOrders, orders, (hasFile_iff leads).mpr found⟩
    · exact @conserved config.deleteJob rfl deleteJob_apart
    · intro location untouched
      exact (Job.frame_runAll proper_of_mem_jobs leads (untouched home leads)).2
  · have nowhere : ∀ home, ¬machine.store.Leads config.output.dir home :=
      fun home leads => somewhere ⟨home, leads⟩
    have absent {artifact : Artifact} {executable : Bool} {content : Bytes}
        (present : machine.store.HasFile (config.pathOf artifact) executable content) : False :=
      not_hasFile_of_nowhere nowhere present
    rw [Job.runAll_of_nowhere proper_of_mem_jobs nowhere]
    exact ⟨fun _ _ _ _ present => (absent present).elim, fun _ _ present => (absent present).elim,
      fun _ _ present => (absent present).elim, fun _ _ present => (absent present).elim,
      fun _ _ => rfl⟩

end Pipeline

end PowerTest
