import PowerTest.Proofs.Pipeline.Preparation

/-!
# What a full run delivers

After the preparation the client runs in a directory of its own, and its log is scored. A full run
that has all it needs succeeds and leaves the files that it delivers: `run_delivers`.
-/

namespace PowerTest

open Steps Store

variable {Memory : Type} {config : Config} {runner : Runner Memory} {now : Int} {output : Output}
  {known : List Call} {home : Location} {store : Store}

namespace Pipeline

/-- A store in which the run directory was made after the preparation. -/
structure Opened (config : Config) (now : Int) (output : Output) (home : Location)
    (store opened : Store) : Prop where
  made : ∃ ready, Prepared config output home store ready ∧
    opened = ready.put (home ++ [(Artifact.runDirectory now.toNat).name]) .directory
  found : opened.find (config.runDirectory now) =
    .ok (home ++ [(Artifact.runDirectory now.toNat).name], .directory)

theorem Opened.empty {opened : Store} (made : Opened config now output home store opened)
    (name : String) (rest : List String) :
    opened.node? (home ++ (Artifact.runDirectory now.toNat).name :: name :: rest) = none := by
  obtain ⟨⟨ready, fills, rfl⟩, _⟩ := made
  rw [node?_put_concat, if_neg (Drawer.ne_deep home _ name _ rest)]
  exact fills.flat _ name rest

/-- A store after a full run with a client, and the score of the client's log in it. -/
structure Scored (config : Config) (now : Int) (output : Output) (home : Location)
    (store : Store) (report : Timing.Report) (after : Store) : Prop where
  score : Timing.Report.ofLog after (clientLog config now) config.generator.scaleFactor =
    .ok report
  delivers : Delivers config now output home store after

namespace Setting

variable {memory : Memory} (setting : Setting config runner now store memory output home)

include setting

/-- Without a client the run ends with the preparation. -/
theorem delivers_of_not_configured {after : Store} (none : config.client.isConfigured = false)
    (fills : Prepared config output home store after) :
    Delivers config now output home store after where
  artifacts artifact _ := setting.prepared_artifacts artifact ▸ fills.artifacts artifact
  resources name other := by
    rw [fills.others name other, prepared_others other]
    split <;> rfl
  runDirectory configured := absurd (none.symm.trans configured) Bool.false_ne_true
  deeper name next rest _ := fills.flat name next rest
  outside := fills.outside

/-- The client adds a directory with its log. -/
theorem delivers_of_client {call : Call} (opened : Opened config now output home store call.before)
    (writes : call.WritesFile
      (home ++ [(Artifact.runDirectory now.toNat).name, config.client.logFileName]) output.log)
    (configured : config.client.isConfigured = true) :
    Delivers config now output home store call.after := by
  obtain ⟨⟨ready, fills, made⟩, _⟩ := opened
  generalize run : (Artifact.runDirectory now.toNat).name = directory at made writes
  have left (location : Location)
      (apart : location ≠ home ++ [directory, config.client.logFileName]) :
      call.after.node? location =
        if location = home ++ [directory] then some .directory else ready.node? location := by
    rw [writes.other _ apart, made, node?_put_concat]
  have shallow (name : String) : home ++ [name] ≠ home ++ [directory, config.client.logFileName] :=
    (Drawer.ne_deep home directory config.client.logFileName name []).symm
  refine ⟨?artifacts, ?resources, ?runDirectory, ?deeper, ?outside⟩
  case artifacts =>
    intro artifact different
    have other : artifact.name ≠ directory := by
      rw [← run]
      exact mt Artifact.eq_of_name_eq (different configured)
    rw [left _ (shallow _), if_neg (mt concat_inj.mp other), ← setting.prepared_artifacts]
    exact fills.artifacts artifact
  case resources =>
    intro name none
    have other : name ≠ directory := fun same => none _ (run.trans same.symm)
    rw [left _ (shallow _), if_neg (mt concat_inj.mp other), fills.others name none,
      prepared_others none]
    split <;> rfl
  case runDirectory =>
    intro _
    rw [run, left _ (shallow _), if_pos rfl]
    exact ⟨rfl, writes.written⟩
  case deeper =>
    intro name next rest different
    have other := different configured
    rw [run] at other
    rw [left _ (mt List.append_cancel_left other), if_neg (Drawer.ne_deep home name next _ rest)]
    exact fills.flat name next rest
  case outside =>
    intro location out
    rw [left _ (out _ _), if_neg (out _ _)]
    exact fills.outside location out

/-- The run directory is made. -/
theorem succeeds_createRunDirectory :
    Succeeds known (Prepared config output home store)
      (Run.files (createRunDirectory now config.output.dir) : Run (Memory × List Call) String)
      fun directory opened =>
        directory = config.runDirectory now ∧ Opened config now output home store opened := by
  refine .files fun ready fills => ?_
  have small : (Artifact.runDirectory now.toNat).number < 10 ^ 200 := by
    have clock := setting.clock
    simp only [Artifact.number]
    omega
  have missing : ready.node? (home ++ [(Artifact.runDirectory now.toNat).name]) = none := by
    have held := fills.artifacts (.runDirectory now.toNat)
    rw [setting.prepared_artifacts] at held
    exact held
  have plain := (Artifact.runDirectory now.toNat).isPlain_name
  have fits := setting.directory.fits_artifact small
  have leads := setting.directory.leads fills
  have made := makeDirectory_join leads plain fits missing
  have leadsAfter : (ready.put (home ++ [(Artifact.runDirectory now.toNat).name]) .directory).Leads
      config.output.dir home := leads.put home (.inl rfl)
  have found := find_join leadsAfter plain fits
  rw [node?_put_concat, if_pos rfl] at found
  refine ⟨_, _, ?_, rfl, ⟨ready, fills, rfl⟩, found⟩
  simp only [createRunDirectory, Files.change, bind_eq]
  rw [show ready.makeDirectory (Path.join config.output.dir (runDirectoryName now)) = _ from made]
  rfl

theorem succeeds_runClient (configured : config.client.isConfigured = true) :
    Succeeds (calls config runner now .full store memory)
      (Prepared config output home store)
      (runClient config (recorded runner) now)
      fun path after => path = clientLog config now ∧
        ∃ report, Scored config now output home store report after := by
  unfold runClient
  cases command : config.client.command with
  | nil =>
    rw [ClientConfig.isConfigured, command] at configured
    cases configured
  | cons program arguments =>
    refine setting.succeeds_createRunDirectory.bind fun directory => ?_
    have client : Succeeds (calls config runner now .full store memory)
        (fun opened =>
          directory = config.runDirectory now ∧ Opened config now output home store opened)
        (Run.checkedCommand (recorded runner)
          (clientCommand config program arguments directory))
        fun _ after => directory = config.runDirectory now ∧
          ∃ report, Scored config now output home store report after := by
      refine .checkedCommand ?_
      rintro call member same ⟨rfl, opened⟩
      obtain ⟨writes, report, score⟩ :=
        setting.client program arguments command call member same opened.found opened.empty
      exact ⟨writes.answer, rfl, report, score,
        setting.delivers_of_client opened writes configured⟩
    refine client.bind fun _ => .pure fun _ reached => ?_
    obtain ⟨rfl, scored⟩ := reached
    exact ⟨rfl, scored⟩

omit setting in
theorem succeeds_computeMetric (progress : Progress) :
    Succeeds known
      (fun after => progress.logPath = some (clientLog config now) ∧
        ∃ report, Scored config now output home store report after)
      (perform config (recorded runner) now progress .computeMetric)
      fun next after =>
        ∃ report, next.report = some report ∧
          Scored config now output home store report after := by
  have scores : Succeeds known
      (fun after => progress.logPath = some (clientLog config now) ∧
        ∃ report, Scored config now output home store report after)
      (Run.files (computeMetric config progress) : Run (Memory × List Call) Timing.Report)
      (Scored config now output home store) := by
    refine .files fun after start => ?_
    obtain ⟨path, report, scored⟩ := start
    refine ⟨report, after, ?_, scored⟩
    simp only [computeMetric, path, scored.score]
  exact scores.bind fun report => .pure fun _ scored => ⟨report, rfl, scored⟩

/-- The benchmark succeeds with a report. -/
theorem succeeds_benchmark (configured : config.client.isConfigured = true)
    (progress : Progress) :
    Succeeds (calls config runner now .full store memory)
      (Prepared config output home store)
      (performAll config (recorded runner) now progress Stage.benchmark)
      fun next after => ∃ report, next.report = some report ∧
        Scored config now output home store report after := by
  have client : Succeeds (calls config runner now .full store memory)
      (Prepared config output home store)
      (perform config (recorded runner) now progress .runClient)
      fun next after => next.logPath = some (clientLog config now) ∧
        ∃ report, Scored config now output home store report after := by
    refine (setting.succeeds_runClient configured).bind fun path => .pure fun _ reached => ?_
    obtain ⟨rfl, scored⟩ := reached
    exact ⟨rfl, scored⟩
  refine succeeds_performAll_cons client fun next => succeeds_performAll_cons
    (succeeds_computeMetric next) fun last => (succeeds_performAll_nil last).imp
      (fun _ start => start) fun _ _ reached => ?_
  obtain ⟨rfl, scored⟩ := reached
  exact scored

/-! ### The whole run -/

/-- A run with all it needs succeeds. -/
theorem succeeds_run :
    Succeeds (calls config runner now .full store memory) (· = store)
      (run config (recorded runner) now .full)
      fun result after => Delivers config now output home store after ∧
        (config.client.isConfigured = true → ∃ report, result = some report ∧
          Timing.Report.ofLog after (clientLog config now) config.generator.scaleFactor =
            .ok report) := by
  have stages : Succeeds (calls config runner now .full store memory) (· = store)
      (performAll config (recorded runner) now .none (config.plan .full))
      fun progress after => Delivers config now output home store after ∧
        (config.client.isConfigured = true → ∃ report, progress.report = some report ∧
          Timing.Report.ofLog after (clientLog config now) config.generator.scaleFactor =
            .ok report) := by
    by_cases configured : config.client.isConfigured = true
    · rw [Config.plan, if_pos configured, performAll_append]
      refine (setting.succeeds_preparation .none).bind fun progress => ?_
      refine (setting.succeeds_benchmark configured progress).imp (fun _ start => start) ?_
      rintro last after ⟨report, reported, scored⟩
      exact ⟨scored.delivers, fun _ => ⟨report, reported, scored.score⟩⟩
    · rw [Config.plan, if_neg configured]
      refine (setting.succeeds_preparation .none).imp (fun _ start => start) fun _ after fills => ?_
      have none : config.client.isConfigured = false := Bool.not_eq_true _ ▸ configured
      exact ⟨setting.delivers_of_not_configured none fills, fun some => absurd some configured⟩
  exact stages.bind fun progress => .pure fun _ reached => reached

end Setting

/-- A full run that has all it needs, and whose commands write what they should, succeeds. It
leaves the delivered files and no others, and it scores the client's log if there is a client. -/
theorem run_delivers {memory : Memory}
    (setting : Setting config runner now store memory output home) :
    ∃ report machine,
      run config runner now .full ⟨store, memory, []⟩ = .ok report machine ∧
        Delivers config now output home store machine.store ∧
        report.isSome = config.client.isConfigured ∧
        ∀ score, report = some score →
          Timing.Report.ofLog machine.store (clientLog config now)
            config.generator.scaleFactor = .ok score := by
  obtain ⟨report, machine, ran, delivers, scored⟩ :=
    setting.succeeds_run.reaches ⟨store, (memory, []), []⟩ rfl List.prefix_rfl
  have observed := recorded_run config runner now .full ⟨store, (memory, []), []⟩
  rw [ran] at observed
  have reported := run_report ran
  refine ⟨report, machine.forget, observed, delivers, reported, ?_⟩
  rintro score rfl
  obtain ⟨_, same, score⟩ := scored reported.symm
  exact Option.some.inj same ▸ score

/-! ### A small run -/

/-- A store with files added to a directory. -/
def deliver (home : Location) (store : Store) : List (Artifact × Bytes) → Store
  | [] => store
  | (artifact, content) :: rest =>
    (deliver home store rest).put (home ++ [artifact.name]) (.file false content)

theorem node?_deliver {home : Location} {store : Store} {files : List (Artifact × Bytes)}
    {location : Location} (other : ∀ artifact content, files.lookup artifact = some content →
      location ≠ home ++ [artifact.name]) :
    (deliver home store files).node? location = store.node? location := by
  induction files with
  | nil => rfl
  | cons file rest ih =>
    obtain ⟨artifact, content⟩ := file
    rw [deliver, node?_put_concat, if_neg]
    · refine ih fun another bytes found => ?_
      by_cases same : another = artifact
      · subst same
        refine other another content ?_
        simp
      · refine other another bytes ?_
        rw [List.lookup_cons, beq_false_of_ne same]
        exact found
    · refine other artifact content ?_
      simp

theorem node?_deliver_of_lookup {home : Location} {store : Store}
    {files : List (Artifact × Bytes)} {artifact : Artifact} {content : Bytes}
    (found : files.lookup artifact = some content) :
    (deliver home store files).node? (home ++ [artifact.name]) = some (.file false content) := by
  induction files with
  | nil => cases found
  | cons file rest ih =>
    obtain ⟨other, bytes⟩ := file
    rw [deliver, node?_put_concat]
    by_cases same : artifact = other
    · subst same
      rw [List.lookup_cons, beq_self_eq_true] at found
      obtain rfl := Option.some.inj found
      rw [if_pos rfl]
    · rw [List.lookup_cons, beq_false_of_ne same] at found
      rw [if_neg]
      · exact ih found
      · rwa [concat_inj, Artifact.name_inj]

theorem workingDirectory_deliver (home : Location) (store : Store)
    (files : List (Artifact × Bytes)) :
    (deliver home store files).workingDirectory = store.workingDirectory := by
  induction files with
  | nil => rfl
  | cons file rest ih => exact ih

/-- One table, one refresh set and a client. -/
def smallConfig : Config where
  generator :=
    { dir := "gen", tables := [.region], resources := ["dss.ddl", "dists.dss"],
      transient := ["dists.dss"] }
  output := { dir := "out" }
  client := { command := ["client"] }

/-- A generator's directory. -/
def smallStore : Store where
  workingDirectory := []
  entries := [(["gen"], .directory), (["gen", "dss.ddl"], .file false []),
      (["gen", "dists.dss"], .file true []), (["gen", "queries"], .directory)] ++
    queryNumbers.map fun number =>
      (["gen", "queries", Artifact.templateName number], .file false [])

/-- What the commands of the small run write. -/
def smallOutput : Output where
  rows table := if table = .region then some "0|AFRICA|\n" else none
  updates _ _ := ""
  keys _ := "1|\n"
  queries _ := "select 1;\nselect 2;\n"
  log := Text.encode "log\nq1: 1.5\n"

/-- The files that a command of the small run writes, unless it runs the client. -/
def smallFiles (invocation : Invocation) : Option (List (Artifact × Bytes)) :=
  if invocation = baseDataCommand smallConfig then
    some [(.tableData .region, Text.encode "0|AFRICA|\n")]
  else if invocation = incrementalDataCommand smallConfig then
    some [(.updateData .orders 1, Text.encode ""), (.updateData .lineitem 1, Text.encode ""),
      (.deleteKeys 1, Text.encode "1|\n")]
  else
    (queryNumbers.find? fun number => invocation = queryCommand smallConfig number).map
      fun number => [(.query number, Text.encode (smallOutput.queries number))]

/-- A runner of the small run. -/
def smallRunner : Runner Unit := fun invocation _ store =>
  match smallFiles invocation with
  | some files => (.ok 0, (), deliver ["out"] store files)
  | none =>
    (.ok 0, (), store.put (["out", (Artifact.runDirectory 1000).name] ++ ["client_stdout.txt"])
      (.file false smallOutput.log))

theorem writes_of_smallFiles {store : Store} {call : Call} {files : List (Artifact × Bytes)}
    {contents : Artifact → Option Bytes}
    (member : call ∈ calls smallConfig smallRunner 1000 .full store ())
    (known : smallFiles call.invocation = some files)
    (written : ∀ artifact, files.lookup artifact = contents artifact) :
    call.Writes ["out"] contents := by
  obtain ⟨memory, next, came⟩ := obeys_of_mem_calls member
  simp only [smallRunner, known, Prod.mk.injEq] at came
  obtain ⟨answer, _, after⟩ := came
  refine ⟨answer.symm, ?_, fun artifact content found => ?_, fun location other => ?_⟩
  · rw [← after]
    exact workingDirectory_deliver _ _ _
  · rw [← after]
    exact ⟨false, node?_deliver_of_lookup ((written artifact).trans found)⟩
  · rw [← after]
    exact node?_deliver fun artifact content found =>
      other artifact content ((written artifact).symm.trans found)

theorem smallFiles_baseData : smallFiles (baseDataCommand smallConfig) =
    some [(.tableData .region, Text.encode "0|AFRICA|\n")] := by
  decide +kernel

theorem smallFiles_incrementalData : smallFiles (incrementalDataCommand smallConfig) =
    some [(.updateData .orders 1, Text.encode ""), (.updateData .lineitem 1, Text.encode ""),
      (.deleteKeys 1, Text.encode "1|\n")] := by
  decide +kernel

theorem smallFiles_query : ∀ number ∈ queryNumbers,
    smallFiles (queryCommand smallConfig number) =
      some [(.query number, Text.encode (smallOutput.queries number))] := by
  decide +kernel

theorem smallFiles_client :
    smallFiles (clientCommand smallConfig "client" [] (smallConfig.runDirectory 1000)) = none := by
  decide +kernel

theorem smallStore_lacks_output : smallStore.locate "out" = .ok (.absent ["out"]) := by
  rfl

theorem smallLog_scored : ∃ samples mean,
    Timing.samplesOfText "log\nq1: 1.5\n" = .ok samples ∧
      Timing.geometricMean samples = .ok mean := by
  have checked : (Timing.samplesOfText "log\nq1: 1.5\n").toOption.any
      (fun samples => (Timing.geometricMean samples).toOption.isSome) = true := by decide +kernel
  cases read : Timing.samplesOfText "log\nq1: 1.5\n" with
  | error fault => rw [read] at checked; cases checked
  | ok samples =>
    rw [read] at checked
    cases scored : Timing.geometricMean samples with
    | error failure =>
      simp [scored, Except.toOption] at checked
    | ok mean => exact ⟨samples, mean, rfl, scored⟩

theorem smallSetting : Setting smallConfig smallRunner 1000 smallStore () smallOutput ["out"] where
  valid := by
    have none : smallConfig.rejection? = none := by decide +kernel
    rw [Config.validate, none]
  tables := by decide
  resources := by
    have plain : ∀ name ∈ smallConfig.generator.resources, name ≠ "" ∧ '/' ∉ name.toList ∧
        '\x00' ∉ name.toList ∧ name ≠ "." ∧ name ≠ ".." := by decide +kernel
    have apart : ∀ name ∈ smallConfig.generator.resources, ∀ kind ∈ Artifact.kinds,
        Text.letters kind.name ≠ Text.letters name := by decide +kernel
    intro name member
    obtain ⟨some, slash, null, notHere, notAbove⟩ := plain name member
    refine ⟨⟨some, slash, null, notHere, notAbove⟩, fun artifact same => ?_⟩
    exact apart name member _ artifact.unnumbered_mem_kinds
      (by rw [← Artifact.letters_name, same])
  transient := by decide
  transientStaged := by decide
  made := .inr (congrArg Prod.snd (makeDirectories_of_absent smallStore_lacks_output))
  directory := emptyDirectory_of_absent (isTree_of_entries (by decide +kernel))
    smallStore_lacks_output (by decide)
  generator := by decide +kernel
  resourceFiles := by decide +kernel
  templateFiles := by decide +kernel
  clock := by decide
  pieces := by decide +kernel
  complete := by decide
  baseData := by
    intro call member same
    refine writes_of_smallFiles member (same ▸ smallFiles_baseData) fun artifact => ?_
    cases artifact with
    | tableData table => cases table <;> rfl
    | _ => rfl
  incrementalData := by
    intro call member same
    refine writes_of_smallFiles member (same ▸ smallFiles_incrementalData) fun artifact => ?_
    have range (set : Nat) (other : set ≠ 1) :
        ¬(1 ≤ set ∧ set ≤ smallConfig.generator.updateFactor.toNat) := by
      have one : smallConfig.generator.updateFactor.toNat = 1 := rfl
      omega
    cases artifact with
    | updateData table set =>
      by_cases first : set = 1
      · subst first
        cases table <;> rfl
      · have none : smallOutput.refresh smallConfig (.updateData table set) = none :=
          if_neg fun holds => range set first holds.2
        rw [none, List.lookup_eq_none_iff]
        simp [first]
    | deleteKeys set =>
      by_cases first : set = 1
      · subst first
        rfl
      · have none : smallOutput.refresh smallConfig (.deleteKeys set) = none :=
          if_neg (range set first)
        rw [none, List.lookup_eq_none_iff]
        simp [first]
    | _ => rfl
  queries := by
    intro number listed call member same
    refine writes_of_smallFiles member (same ▸ smallFiles_query number listed) fun artifact => ?_
    cases artifact with
    | query other =>
      by_cases same : other = number
      · subst same
        simp [Output.query]
      · rw [Output.query, if_neg same, List.lookup_eq_none_iff]
        simpa using same
    | _ => rfl
  client := by
    rintro program arguments ⟨⟩ call member same found empty
    obtain ⟨memory, next, came⟩ := obeys_of_mem_calls member
    simp only [smallRunner, same, smallFiles_client, Prod.mk.injEq] at came
    obtain ⟨answer, _, after⟩ := came
    have left (location : Location) : call.after.node? location =
        if location = ["out", (Artifact.runDirectory 1000).name] ++ ["client_stdout.txt"] then
          some (.file false smallOutput.log)
        else call.before.node? location := by
      rw [← after, node?_put_concat]
    refine ⟨⟨answer.symm, after ▸ rfl, ⟨false, ?_⟩, fun other apart => ?_⟩, ?_⟩
    · exact (left _).trans (if_pos rfl)
    · exact (left other).trans (if_neg apart)
    · have leads : call.after.Leads (smallConfig.runDirectory 1000)
          ["out", (Artifact.runDirectory 1000).name] := by
        rw [← after]
        refine (leads_of_find found).put _ (.inr fun directory => ?_)
        cases (empty "client_stdout.txt" []).symm.trans directory
      have plain : Path.IsPlain "client_stdout.txt" := by
        constructor <;> decide
      have fits : Fits (smallConfig.runDirectory 1000) "client_stdout.txt" := by
        constructor <;> decide +kernel
      have read : call.after.read (clientLog smallConfig 1000) = .ok smallOutput.log := by
        refine (read_join leads plain fits).trans ?_
        rw [left, if_pos rfl]
      obtain ⟨samples, mean, sampled, scored⟩ := smallLog_scored
      have text : call.after.readText (clientLog smallConfig 1000) = .ok "log\nq1: 1.5\n" := by
        rw [readText, read, smallOutput]
        simp only [Text.decode?_encode]
      simp only [Timing.Report.ofLog, Timing.readLog, text, sampled, Timing.Report.ofSamples,
        scored]
      exact ⟨_, rfl⟩

/-- The small run succeeds with a report. -/
theorem run_delivers_small :
    Setting smallConfig smallRunner 1000 smallStore () smallOutput ["out"] ∧
      ∃ report machine,
        run smallConfig smallRunner 1000 .full ⟨smallStore, (), []⟩ = .ok (some report) machine ∧
          Delivers smallConfig 1000 smallOutput ["out"] smallStore machine.store := by
  obtain ⟨report, machine, ran, delivers, reported, _⟩ := run_delivers smallSetting
  obtain ⟨report, rfl⟩ := Option.isSome_iff_exists.mp reported
  exact ⟨smallSetting, report, machine, ran, delivers⟩

end Pipeline

end PowerTest
