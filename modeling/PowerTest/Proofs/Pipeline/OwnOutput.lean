import PowerTest.Proofs.Pipeline.Conservation
import PowerTest.Proofs.Pipeline.OutputDirectory
import PowerTest.Proofs.Store.Alteration

/-!
# Commands that write their own output

The commands of a run are expected to write nothing but what the run has them for: the data
generator its files of data, and each other command the file that takes its output
(`Call.WritesOwn`). Then each stage after the preparation of the directory alters the directory
(`maintains_altered_perform`), and only data comes to stand in it under a name of data.
-/

namespace PowerTest

open Steps Store

variable {Memory : Type}

/-- An artifact that the data generator writes. -/
def Artifact.IsData : Artifact → Prop
  | tableData _ | updateData _ _ | deleteKeys _ => True
  | _ => False

/-- A place that a call may write to. -/
inductive Call.Owns (call : Call) (config : Config) (location : Location) : Prop
  /-- The file that takes the output. -/
  | output {path : String} {mark : Bool} {old : Bytes}
    (captured : call.invocation.standardOutput = some path)
    (opens : call.before.destination path = .ok (location, mark, old))
  /-- A file of data in the working directory of the data generator. -/
  | data {directory : Location} {artifact : Artifact}
    (generates : call.invocation ∈ config.dataCommands)
    (leads : call.before.Leads call.invocation.workingDirectory directory)
    (isData : artifact.IsData) (here : location = directory ++ [artifact.name])

/-- A call that writes files of its own and nothing else. -/
structure Call.WritesOwn (call : Call) (config : Config) : Prop where
  workingDirectory : call.after.workingDirectory = call.before.workingDirectory
  written : ∀ location, call.after.node? location ≠ call.before.node? location →
    call.Owns config location ∧ call.before.node? location ≠ some .directory ∧
      ∃ executable content, call.after.node? location = some (.file executable content)

variable {config : Config} {home : Location} {comes : String → Prop} {call : Call}

/-- A place in a directory whose name is of a known kind, or a place further down. -/
def Admits (home : Location) (comes : String → Prop) (location : Location) : Prop :=
  ∃ name rest, location = home ++ name :: rest ∧ (rest = [] → comes name)

theorem Call.WritesOwn.alters (writes : call.WritesOwn config)
    (owned : ∀ location, call.Owns config location → Admits home comes location) :
    Alters home comes call.before call.after := by
  have changed (location : Location)
      (other : call.after.node? location ≠ call.before.node? location) :=
    writes.written location other
  refine ⟨writes.workingDirectory, fun location stands => ?_, fun location => ?_,
    fun name stands => ?_, fun name missing => ?_⟩
  · by_cases same : call.after.node? location = call.before.node? location
    · rw [same, stands]
    · exact absurd stands (changed location same).2.1
  · by_cases same : call.after.node? location = call.before.node? location
    · exact .inl same
    · obtain ⟨name, rest, here, _⟩ := owned location (changed location same).1
      exact .inr ⟨name, rest, here⟩
  · by_cases same : call.after.node? (home ++ [name]) = call.before.node? (home ++ [name])
    · exact .inl (same ▸ stands)
    · obtain ⟨_, _, executable, content, file⟩ := changed _ same
      cases stands.symm.trans file
  · by_cases same : call.after.node? (home ++ [name]) = call.before.node? (home ++ [name])
    · exact .inl (same.trans missing)
    · obtain ⟨other, rest, here, known⟩ := owned _ (changed _ same).1
      obtain ⟨rfl, rfl⟩ := List.cons.inj (List.append_cancel_left here)
      exact .inr (known rfl)

/-! ## What the commands of a run own -/

namespace Pipeline

theorem standardOutput_of_mem_dataCommands {invocation : Invocation}
    (member : invocation ∈ config.dataCommands) :
    invocation.standardOutput = none ∧ invocation.workingDirectory = config.output.dir := by
  simp only [Config.dataCommands, List.mem_cons, List.not_mem_nil, or_false] at member
  rcases member with rfl | rfl <;> exact ⟨rfl, rfl⟩

theorem admits_of_dataCommand (generates : call.invocation ∈ config.dataCommands)
    (leads : call.before.Leads config.output.dir home)
    (known : ∀ artifact : Artifact, artifact.IsData → comes artifact.name) {location : Location}
    (owns : call.Owns config location) : Admits home comes location := by
  obtain ⟨silent, works⟩ := standardOutput_of_mem_dataCommands generates
  cases owns with
  | output captured => cases silent.symm.trans captured
  | @data directory artifact _ led isData here =>
    rw [works] at led
    obtain rfl := led.unique leads
    exact ⟨artifact.name, [], here, fun _ => known artifact isData⟩

/-- A command with an output owns only the file for it. -/
theorem destination_of_owns {path : String} {location : Location}
    (captured : call.invocation.standardOutput = some path) (owns : call.Owns config location) :
    ∃ mark old, call.before.destination path = .ok (location, mark, old) := by
  cases owns with
  | @output other mark old output opens =>
    obtain rfl := Option.some.inj (output.symm.trans captured)
    exact ⟨mark, old, opens⟩
  | data generates =>
    cases (standardOutput_of_mem_dataCommands generates).1.symm.trans captured

theorem admits_of_queryCommand {number : Nat} (query : call.invocation = queryCommand config number)
    (leads : call.before.Leads config.output.dir home)
    (known : comes (Artifact.query number).name) {location : Location}
    (owns : call.Owns config location) : Admits home comes location := by
  have captured : call.invocation.standardOutput =
      some ((Artifact.query number).path config.output.dir) := by rw [query]; rfl
  obtain ⟨mark, old, opens⟩ := destination_of_owns captured owns
  obtain ⟨place, led, _, here, _⟩ := opened_of_destination (Artifact.query number).isPlain_name opens
  obtain rfl := led.unique leads
  exact ⟨_, [], here, fun _ => known⟩

theorem admits_of_clientCommand {program : String} {arguments : List String} {now : Int}
    (log : Path.IsPlain config.client.logFileName)
    (client : call.invocation =
      clientCommand config program arguments (Path.join config.output.dir (runDirectoryName now)))
    (leads : call.before.Leads config.output.dir home) {location : Location}
    (owns : call.Owns config location) : Admits home comes location := by
  have plain : Path.IsPlain (runDirectoryName now) := (Artifact.runDirectory now.toNat).isPlain_name
  have captured : call.invocation.standardOutput = some (Path.join
      (Path.join config.output.dir (runDirectoryName now)) config.client.logFileName) := by
    rw [client]
    rfl
  obtain ⟨mark, old, opens⟩ := destination_of_owns captured owns
  obtain ⟨place, led, _, here, _⟩ := opened_of_destination log opens
  obtain rfl := place_of_leads_join leads plain led
  refine ⟨runDirectoryName now, [config.client.logFileName], ?_, nofun⟩
  rw [here, List.append_assoc]
  rfl

/-! ## Stages that alter the directory -/

/-- The names of everything but the rows of base tables. -/
def settled (name : String) : Prop := ∀ table, name ≠ (Artifact.tableData table).name

theorem settled_name {artifact : Artifact} (other : ∀ table, artifact ≠ .tableData table) :
    settled artifact.name :=
  fun table same => other table (Artifact.name_inj.mp same)

/-- A machine whose store is an alteration of a first one. -/
def Altered (home : Location) (comes : String → Prop) (start : Store) (machine : Machine Memory) :
    Prop :=
  Alters home comes start machine.store

variable {runner : Runner Memory} {start : Store} {now : Int}

section Stages

variable (leads : start.Leads config.output.dir home)

include leads

theorem maintains_altered_files {α : Type} {steps : Files α}
    (steady : Steady config.output.dir comes steps) :
    Maintains (Altered home comes start) (Run.files steps : Run Memory α) :=
  .runFiles fun machine altered =>
    altered.trans (steady machine.store home (altered.leads leads))

variable (writes : ∀ call : Call, call.Obeys runner → call.WritesOwn config)

include writes

theorem maintains_altered_command {invocation : Invocation}
    (owned : ∀ call : Call, call.invocation = invocation →
      call.before.Leads config.output.dir home → ∀ location, call.Owns config location →
        Admits home comes location) :
    Maintains (Altered home comes start) (Run.checkedCommand runner invocation) := by
  intro machine altered
  obtain ⟨call, next, same, seen, came, ran⟩ := Run.checkedCommand_eq runner invocation machine
  have obeys : call.Obeys runner := ⟨machine.memory, next, by rw [same, seen, came]⟩
  have led : call.before.Leads config.output.dir home := seen ▸ altered.leads leads
  have moved : Alters home comes start call.after :=
    altered.trans (seen ▸ (writes call obeys).alters (owned call same led))
  rw [ran]
  cases call.failure? with
  | none => exact moved
  | some cause => exact moved

theorem maintains_altered_generateQueries (known : ∀ number, comes (Artifact.query number).name)
    (numbers : List Nat) :
    Maintains (Altered home comes start) (generateQueries config runner numbers) := by
  induction numbers with
  | nil => exact .pure ()
  | cons number rest ih =>
    have template : ∀ name ∈ [Artifact.templateName number], Path.Descends name :=
      List.forall_mem_singleton.mpr (Artifact.template number).isPlain_name.descends
    have command : Maintains (Altered home comes start)
        (Run.checkedCommand runner (queryCommand config number)) :=
      maintains_altered_command leads writes fun call query led location =>
        admits_of_queryCommand query led (known number)
    exact .bind command fun _ =>
      .bind (maintains_altered_files leads (steady_removeFiles template)) fun _ => ih

theorem maintains_altered_runClient (log : Path.IsPlain config.client.logFileName)
    (known : ∀ milliseconds, comes (Artifact.runDirectory milliseconds).name) :
    Maintains (Altered home comes start) (runClient config runner now) := by
  unfold runClient
  cases config.client.command with
  | nil => exact .throw _
  | cons program arguments =>
    have made : Steady config.output.dir comes (createRunDirectory now config.output.dir) := by
      refine .bind (.change fun store after place led done => ?_) fun _ => .pure _
      have plain : Path.IsPlain (runDirectoryName now) :=
        (Artifact.runDirectory now.toNat).isPlain_name
      obtain ⟨other, ledOther, missing, rfl, _⟩ := made_of_makeDirectory_join plain done
      obtain rfl := ledOther.unique led
      exact alters_putDirectory (known now.toNat) missing
    refine (maintains_altered_files leads made).bind_of_ok fun machine place after created => ?_
    obtain ⟨rfl, _⟩ := files_createRunDirectory created
    have command : Maintains (Altered home comes start) (Run.checkedCommand runner
        (clientCommand config program arguments
          (Path.join config.output.dir (runDirectoryName now)))) :=
      maintains_altered_command leads writes fun call client led location =>
        admits_of_clientCommand log client led
    exact .bind command fun _ => .pure _

/-- A stage after the preparation of the directory alters it. Unless it generates data, it brings no
rows of base tables. -/
theorem maintains_altered_perform (log : Path.IsPlain config.client.logFileName)
    (transient : ∀ name ∈ config.generator.transient, Path.Descends name)
    (known : ∀ name, settled name → comes name) {stage : Stage} (later : stage ≠ .prepare)
    (generates : stage = .generateBaseData ∨ stage = .generateIncrementalData →
      ∀ name, comes name) (progress : Progress) :
    Maintains (Altered home comes start) (perform config runner now progress stage) := by
  have data {invocation : Invocation} (all : ∀ name, comes name)
      (member : invocation ∈ config.dataCommands) :
      Maintains (Altered home comes start) (Run.checkedCommand runner invocation) :=
    maintains_altered_command leads writes fun call same led location =>
      admits_of_dataCommand (same ▸ member) led fun artifact _ => all artifact.name
  have artifact {artifact : Artifact} (other : ∀ table, artifact ≠ .tableData table) :
      comes artifact.name := known _ (settled_name other)
  have jobs {some : List Job} (among : ∀ job ∈ some, job ∈ config.jobs) :
      Maintains (Altered home comes start)
        (Run.files (Job.runAll config.output.dir some) : Run Memory Unit) := by
    refine maintains_altered_files leads (steady_runAll ?_ fun job member => ?_)
    · exact fun job member => proper_of_mem_jobs job (among job member)
    · have listed := among job member
      simp only [Config.jobs, Config.updateJobs, List.mem_append, List.mem_map, List.mem_cons,
        List.not_mem_nil, or_false] at listed
      rcases listed with ⟨table, _, rfl⟩ | (rfl | rfl) | rfl <;>
        exact artifact fun _ => Artifact.noConfusion
  cases stage with
  | prepare => exact absurd rfl later
  | generateBaseData =>
    exact .bind (data (generates (.inl rfl)) List.mem_cons_self) fun _ => .pure _
  | generateIncrementalData =>
    have member : incrementalDataCommand config ∈ config.dataCommands :=
      List.mem_cons_of_mem _ List.mem_cons_self
    exact .bind (data (generates (.inr rfl)) member) fun _ => .pure _
  | convertTables =>
    have row := jobs fun job member => List.mem_append_left _ member
    rw [← convertTables_eq] at row
    exact .bind row fun _ => .pure _
  | convertIncremental =>
    have row := jobs fun job member => List.mem_append_right _ (List.mem_append_left _ member)
    exact .bind row fun _ => .pure _
  | convertDeletes =>
    have row := jobs fun job member => List.mem_append_right _ (List.mem_append_right _ member)
    exact .bind row fun _ => .pure _
  | generateQueries =>
    exact .bind (maintains_altered_generateQueries leads writes (fun _ => artifact fun _ =>
      Artifact.noConfusion) _) fun _ => .pure _
  | cleanupTransient =>
    exact .bind (maintains_altered_files leads (steady_removeFiles transient)) fun _ => .pure _
  | splitRefreshQuery =>
    have pieces (text : String) : Steady config.output.dir comes (writeFragments config.output.dir
        (Artifact.queryStem refreshQuery) 1 (fragments text)) :=
      steady_writeFragments (fun number => (Artifact.fragment number).isPlain_name)
        (fun number => @artifact (.fragment number) fun _ => Artifact.noConfusion) 1
    have split : Steady config.output.dir comes (splitRefreshQuery config.output.dir) :=
      .bind (.bind .inspect pieces) fun _ =>
        steady_remove (Artifact.query refreshQuery).isPlain_name.descends
    exact .bind (maintains_altered_files leads split) fun _ => .pure _
  | runClient =>
    exact .bind (maintains_altered_runClient leads writes log fun _ => artifact fun _ =>
      Artifact.noConfusion) fun _ => .pure _
  | computeMetric =>
    have looks : Steady config.output.dir comes (computeMetric config progress) :=
      .of_same (endState_computeMetric progress)
    exact .bind (maintains_altered_files leads looks) fun _ => .pure _

/-- Stages after the preparation of the directory alter it. -/
theorem maintains_altered_performAll (log : Path.IsPlain config.client.logFileName)
    (transient : ∀ name ∈ config.generator.transient, Path.Descends name)
    (known : ∀ name, settled name → comes name) {stages : List Stage}
    (later : ∀ stage ∈ stages, stage ≠ .prepare)
    (generates : ∀ stage ∈ stages, stage = .generateBaseData ∨ stage = .generateIncrementalData →
      ∀ name, comes name) (progress : Progress) :
    Maintains (Altered home comes start) (performAll config runner now progress stages) :=
  .performAll (fun stage member => maintains_altered_perform leads writes log transient known
    (later stage member) (generates stage member)) progress

end Stages

end Pipeline

end PowerTest
