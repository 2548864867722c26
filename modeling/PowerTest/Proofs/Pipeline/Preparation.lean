import PowerTest.Proofs.Pipeline.Setting

/-!
# The preparation of a run

A stage of the preparation has an `effect` on the contents of the output directory and succeeds if
it is `Ready`. Stages in a row have their effects in a row, and the preparation is ready from the
start: `succeeds_preparation`.
-/

namespace PowerTest

open Steps Store

variable {Memory : Type} {config : Config} {runner : Runner Memory} {now : Int} {output : Output}
  {known : List Call} {drawer : Drawer} {home : Location} {base store : Store}

namespace Pipeline

/-! ## Stages that run commands -/

theorem succeeds_command {invocation : Invocation} {files : Artifact → Option Bytes}
    (writes : ∀ call ∈ known, call.invocation = invocation → call.Writes home files) :
    Succeeds known (drawer.Fills home base) (Run.checkedCommand (recorded runner) invocation)
      fun _ => (drawer.update files).Fills home base :=
  .checkedCommand fun call member same fills =>
    ⟨(writes call member same).answer, fills.update (writes call member same)⟩

/-- The template of a query is removed. -/
theorem succeeds_removeTemplate (room : EmptyDirectory base config.output.dir home) {number : Nat}
    (small : number < 10 ^ 200) (template : (drawer.artifacts (.template number)).isSome) :
    Succeeds known (drawer.Fills home base)
      (Run.files (removeFiles config.output.dir [(Artifact.template number).name]) :
        Run (Memory × List Call) Unit)
      fun _ => (drawer.without [(Artifact.template number).name]).Fills home base := by
  obtain ⟨content, stands⟩ := Option.isSome_iff_exists.mp template
  have short := @Artifact.size_name_le (.template number) small
  refine .files fun store fills => ?_
  obtain ⟨after, removal, filled⟩ := room.removeFiles_fills fills
    (List.forall_mem_singleton.mpr ⟨(Artifact.template number).isPlain_name, short⟩)
    (List.pairwise_singleton _ _) (List.forall_mem_singleton.mpr (Drawer.has_artifact stands))
  exact ⟨(), after, removal, filled⟩

theorem succeeds_generateQueries (room : EmptyDirectory base config.output.dir home)
    {numbers : List Nat} (different : numbers.Nodup)
    (small : ∀ number ∈ numbers, number < 10 ^ 200)
    (templates : ∀ number ∈ numbers, (drawer.artifacts (.template number)).isSome)
    (writes : ∀ number ∈ numbers, ∀ call ∈ known,
      call.invocation = queryCommand config number → call.Writes home (output.query number)) :
    Succeeds known (drawer.Fills home base) (generateQueries config (recorded runner) numbers)
      fun _ => (drawer.queried output.queries numbers).Fills home base := by
  induction numbers generalizing drawer with
  | nil =>
    refine .pure fun _ fills => fills.congr (fun artifact => ?_) fun _ _ => rfl
    cases artifact <;> simp [Drawer.queried]
  | cons number rest ih =>
    obtain ⟨fresh, others⟩ := List.nodup_cons.mp different
    rw [List.forall_mem_cons] at small templates writes
    have template : ((drawer.update (output.query number)).artifacts (.template number)).isSome :=
      templates.1
    refine (succeeds_command writes.1).bind fun _ =>
      (succeeds_removeTemplate room small.1 template).bind fun _ =>
        (ih others small.2 (fun other member => ?_) writes.2).imp (fun _ start => start)
          fun _ final done => done.congr (fun artifact => ?_) fun name none => ?_
    · have apart : other ≠ number := fun same => fresh (same ▸ member)
      simpa [Drawer.without, Drawer.update, Output.query, apart] using templates.2 other member
    · cases artifact with
      | template other =>
        by_cases same : other = number <;>
          simp [Drawer.queried, Drawer.without, Drawer.update, Output.query, same]
      | query other =>
        by_cases same : other = number <;>
          simp [Drawer.queried, Drawer.without, Drawer.update, Output.query, same, fresh]
      | _ => simp [Drawer.queried, Drawer.without, Drawer.update, Output.query]
    · have apart := (none (.template number)).symm
      simp only [Drawer.queried, Drawer.without, Drawer.update, List.mem_singleton, if_neg apart]

/-! ## The effects of stages -/

/-- The generator's files in a drawer. -/
def staged (config : Config) (store : Store) (drawer : Drawer) : Drawer :=
  let generator := config.generator
  (drawer.copied (fun name => store.fileAt (Path.join generator.dir name))
    generator.resources).copied
      (fun name => store.fileAt (Path.join (Path.join generator.dir generator.queryDir) name))
      Artifact.templateNames

/-- What a stage does to the contents of the output directory. -/
def effect (config : Config) (output : Output) (store : Store) : Stage → Drawer → Drawer
  | .prepare => staged config store
  | .generateBaseData => (·.update output.base)
  | .generateIncrementalData => (·.update (output.refresh config))
  | .convertTables =>
    Drawer.loaded (fun table => (output.rows table).getD "") config.generator.tables
  | .convertIncremental =>
    Drawer.converted [.updateData .orders config.set, .updateData .lineitem config.set]
      .firstRefresh
      (Drawer.script (insertion .orders) (output.updates .orders config.set) ++
        Drawer.script (insertion .lineitem) (output.updates .lineitem config.set))
  | .convertDeletes =>
    Drawer.converted [.deleteKeys config.set] .secondRefresh
      (Drawer.script (deleteStatements (keyFormat config)) (output.keys config.set))
  | .generateQueries => Drawer.queried output.queries queryNumbers
  | .cleanupTransient => Drawer.without config.generator.transient
  | .splitRefreshQuery => fun drawer =>
    (drawer.fragmented 1 (fragments (output.queries refreshQuery))).remove
      (Artifact.query refreshQuery).name
  | .runClient | .computeMetric => id

/-- Contents with which a stage of the preparation succeeds once the directory is there. -/
def Ready (config : Config) (output : Output) : Stage → Drawer → Prop
  | .generateBaseData, _ | .generateIncrementalData, _ => True
  | .convertTables, drawer => ∀ table ∈ config.generator.tables,
    drawer.artifacts (.tableData table) = some (Text.encode ((output.rows table).getD ""))
  | .convertIncremental, drawer => ∀ table ∈ Table.refreshed,
    drawer.artifacts (.updateData table config.set) =
      some (Text.encode (output.updates table config.set))
  | .convertDeletes, drawer =>
    drawer.artifacts (.deleteKeys config.set) = some (Text.encode (output.keys config.set))
  | .generateQueries, drawer =>
    ∀ number ∈ queryNumbers, (drawer.artifacts (.template number)).isSome
  | .cleanupTransient, drawer => ∀ name ∈ config.generator.transient, drawer.Has name
  | .splitRefreshQuery, drawer =>
    drawer.artifacts (.query refreshQuery) = some (Text.encode (output.queries refreshQuery))
  | .prepare, _ | .runClient, _ | .computeMetric, _ => False

/-- Contents with which stages in a row succeed. -/
def ReadyAll (config : Config) (output : Output) (store : Store) : List Stage → Drawer → Prop
  | [], _ => True
  | stage :: rest, drawer =>
    Ready config output stage drawer ∧
      ReadyAll config output store rest (effect config output store stage drawer)

/-- The contents after stages in a row. -/
def effects (config : Config) (output : Output) (store : Store) (stages : List Stage)
    (drawer : Drawer) : Drawer :=
  stages.foldl (fun contents stage => effect config output store stage contents) drawer

/-- A store after the preparation. -/
def Prepared (config : Config) (output : Output) (home : Location) (store after : Store) : Prop :=
  (effects config output store Stage.preparation .empty).Fills home
    (store.withDirectory config.output.dir) after

/-- Preparation of an empty directory succeeds when all files are there. -/
theorem prepare_fills_of_files
    (room : EmptyDirectory (store.withDirectory config.output.dir) config.output.dir home)
    (made : store.hasNode config.output.dir = true ∨
      (store.makeDirectories config.output.dir).2 = none)
    (plain : ∀ name ∈ config.generator.resources, Path.IsPlain name)
    (generator : store.isDirectory config.generator.dir = true)
    (resources : ∀ name ∈ config.generator.resources,
      store.isFile (Path.join config.generator.dir name) = true)
    (templates : ∀ name ∈ Artifact.templateNames,
      store.isFile (Path.join (Path.join config.generator.dir config.generator.queryDir) name) =
        true) :
    ∃ after, prepare config store = .ok () after ∧
      (staged config store .empty).Fills home (store.withDirectory config.output.dir) after := by
  obtain ⟨middle, copies, copied⟩ := room.copyFiles_fills room.fills_empty plain
    fun name member => find_withDirectory _ (resources name member)
  obtain ⟨after, last, filled⟩ := room.copyFiles_fills copied
    (fun _ => Artifact.isPlain_of_mem_templateNames)
    fun name member => find_withDirectory _ (templates name member)
  refine ⟨after, ?_, filled⟩
  have isDirectory := (grows_withDirectory store config.output.dir).isDirectory generator
  simp only [prepare, bind_eq, ensureDirectory_eq made, Files.inspect, isDirectory, if_true, copies]
  exact last

namespace Setting

variable {memory : Memory} (setting : Setting config runner now store memory output home)

include setting

/-- The preparation of the directory succeeds. -/
theorem prepare_fills :
    ∃ after, prepare config store = .ok () after ∧
      (staged config store .empty).Fills home (store.withDirectory config.output.dir) after :=
  prepare_fills_of_files setting.directory setting.made
    (fun name member => (setting.resources name member).1) setting.generator setting.resourceFiles
    setting.templateFiles

/-- A stage that is ready succeeds and has its effect. -/
theorem succeeds_perform {stage : Stage} (ready : Ready config output stage drawer)
    (progress : Progress) :
    Succeeds (calls config runner now .full store memory)
      (drawer.Fills home (store.withDirectory config.output.dir))
      (perform config (recorded runner) now progress stage)
      fun _ => (effect config output store stage drawer).Fills home
        (store.withDirectory config.output.dir) := by
  have room := setting.directory
  cases stage with
  | prepare | runClient | computeMetric => exact ready.elim
  | generateBaseData => exact .keep (succeeds_command setting.baseData) _
  | generateIncrementalData => exact .keep (succeeds_command setting.incrementalData) _
  | convertTables =>
    exact .filesStage (fun _ fills => room.convertTables_fills fills setting.tables ready) _
  | convertIncremental =>
    refine .filesStage (fun _ fills => ?_) _
    exact room.convertIncremental_fills fills config.set_small (ready .orders (by decide))
      (ready .lineitem (by decide))
  | convertDeletes =>
    refine .filesStage (fun _ fills => ?_) _
    obtain ⟨count, after, conversion, filled⟩ :=
      room.convertDeletes_fills (keyFormat config) fills config.set_small ready
    exact ⟨after, bind_eq_of_ok conversion _, filled⟩
  | generateQueries =>
    have small : ∀ number ∈ queryNumbers, number < 10 ^ 200 := by
      intro number member
      have most := (mem_queryNumbers.mp member).2
      exact Nat.lt_of_le_of_lt most (by decide)
    exact .keep (succeeds_generateQueries room (by decide) small ready setting.queries) _
  | cleanupTransient =>
    refine .filesStage (fun _ fills => ?_) _
    refine room.removeFiles_fills fills (fun name member => ?_) setting.transient ready
    have resource := setting.transientStaged name member
    have plain := (setting.resources name resource).1
    obtain ⟨location, found⟩ :=
      find_withDirectory config.output.dir (setting.resourceFiles name resource)
    exact ⟨plain, (fits_of_find plain found).name⟩
  | splitRefreshQuery =>
    exact .filesStage (fun _ fills => room.splitRefreshQuery_fills fills ready setting.pieces) _

/-- Stages in a row that are ready succeed and have their effects. -/
theorem succeeds_performAll {stages : List Stage}
    (ready : ReadyAll config output store stages drawer) (progress : Progress) :
    Succeeds (calls config runner now .full store memory)
      (drawer.Fills home (store.withDirectory config.output.dir))
      (performAll config (recorded runner) now progress stages)
      fun _ => (effects config output store stages drawer).Fills home
        (store.withDirectory config.output.dir) := by
  induction stages generalizing drawer progress with
  | nil => exact (succeeds_performAll_nil progress).imp (fun _ start => start) fun _ _ => And.right
  | cons stage rest ih =>
    exact succeeds_performAll_cons (setting.succeeds_perform ready.1 progress) fun next =>
      ih ready.2 next

/-! ### The preparation -/

theorem not_mem_resources (artifact : Artifact) :
    artifact.name ∉ config.generator.resources :=
  fun member => (setting.resources _ member).2 artifact rfl

theorem not_mem_transient (artifact : Artifact) :
    artifact.name ∉ config.generator.transient :=
  fun member => setting.not_mem_resources artifact (setting.transientStaged _ member)

/-- Among the generator's files only the templates are artifacts. -/
theorem staged_artifacts (artifact : Artifact)
    (different : ∀ number ∈ queryNumbers, artifact ≠ .template number) :
    (staged config store .empty).artifacts artifact = none := by
  have apart : artifact.name ∉ Artifact.templateNames := by
    rw [Artifact.name_mem_templateNames]
    rintro ⟨number, member, same⟩
    exact different number member same
  simp only [staged, Drawer.copied, Drawer.empty, if_neg apart,
    if_neg (setting.not_mem_resources artifact)]

omit setting in
theorem staged_others {name : String} (none : ∀ artifact : Artifact, artifact.name ≠ name) :
    (staged config store .empty).others name =
      if name ∈ config.generator.resources then
        some (store.fileAt (Path.join config.generator.dir name))
      else Option.none := by
  have apart : name ∉ Artifact.templateNames := by
    intro member
    obtain ⟨number, _, same⟩ := List.mem_map.mp member
    exact none (.template number) same
  simp only [staged, Drawer.copied, Drawer.empty, if_neg apart]

theorem refresh_updateData {table : Table} (refreshed : table ∈ Table.refreshed) :
    output.refresh config (.updateData table config.set) =
      some (Text.encode (output.updates table config.set)) := by
  have bounds := Config.set_bounds setting.valid
  simp only [Output.refresh, refreshed, bounds, and_self, if_true]

theorem refresh_deleteKeys :
    output.refresh config (.deleteKeys config.set) =
      some (Text.encode (output.keys config.set)) := by
  have bounds := Config.set_bounds setting.valid
  simp only [Output.refresh, bounds, and_self, if_true]

/-- Each stage of the preparation finds what it needs. -/
theorem readyAll_preparation :
    ReadyAll config output store Stage.preparation.tail (staged config store .empty) := by
  refine ⟨trivial, trivial, ?tables, ?updates, ?keys, ?templates, ?transient, ?query, trivial⟩
  case tables =>
    intro table member
    obtain ⟨rows, present⟩ := Option.isSome_iff_exists.mp (setting.complete table member)
    simp [effect, Drawer.update, Output.refresh, Output.base, present]
  case updates =>
    intro table refreshed
    simp [effect, Drawer.loaded, Drawer.update, setting.refresh_updateData refreshed]
  case keys =>
    simp [Ready, effect, Drawer.converted, Drawer.loaded, Drawer.update,
      setting.refresh_deleteKeys]
  case templates =>
    intro number member
    have copied : (Artifact.template number).name ∈ Artifact.templateNames :=
      List.mem_map_of_mem member
    simp [effect, Drawer.converted, Drawer.loaded, Drawer.update, Output.refresh, Output.base,
      staged, Drawer.copied, copied]
  case transient =>
    intro name member
    refine ⟨fun artifact same => ?_, fun none => ?_⟩
    · exact absurd (same ▸ member) (setting.not_mem_transient artifact)
    · change ((staged config store .empty).others name).isSome
      rw [staged_others none, if_pos (setting.transientStaged name member)]
      rfl
  case query =>
    have generated : refreshQuery ∈ queryNumbers := by decide
    simp [Ready, effect, Drawer.without, Drawer.queried, setting.not_mem_transient, generated]

/-- After the preparation artifacts are as delivered. -/
theorem prepared_artifacts (artifact : Artifact) :
    (effects config output store Stage.preparation .empty).artifacts artifact =
      output.delivered config artifact := by
  have before := setting.staged_artifacts artifact
  simp only [effects, Stage.preparation, List.foldl, effect, Drawer.remove, Drawer.fragmented,
    Drawer.without, setting.not_mem_transient, if_false, Drawer.queried, Drawer.converted,
    Artifact.name_inj]
  cases artifact with
  | tableData | deleteKeys | runDirectory =>
    simp [Drawer.loaded, Drawer.update, before (by simp), Output.refresh, Output.base,
      Output.delivered]
  | loadScript table =>
    by_cases member : table ∈ config.generator.tables
    · obtain ⟨rows, present⟩ := Option.isSome_iff_exists.mp (setting.complete table member)
      simp [Drawer.loaded, member, present, Output.delivered]
    · simp [Drawer.loaded, Drawer.update, member, before (by simp), Output.refresh, Output.base,
        Output.delivered]
  | updateData table set =>
    cases table <;>
      simp [Drawer.loaded, Drawer.update, before (by simp), Output.refresh, Output.base,
        Output.delivered, Table.refreshed]
  | firstRefresh | secondRefresh =>
    simp [Output.delivered]
  | template number =>
    by_cases member : number ∈ queryNumbers
    · simp [member, Output.delivered]
    · have other : ∀ another ∈ queryNumbers, Artifact.template number ≠ .template another := by
        rintro another present ⟨⟩
        exact member present
      simp [member, Drawer.loaded, Drawer.update, before other, Output.refresh, Output.base,
        Output.delivered]
  | query number =>
    by_cases same : number = refreshQuery <;>
      simp [same, Drawer.loaded, Drawer.update, before (by simp), Output.refresh, Output.base,
        Output.delivered]
  | fragment number =>
    cases number <;>
      simp [Drawer.loaded, Drawer.update, before (by simp), Output.refresh, Output.base,
        Output.delivered]

omit setting in
/-- After the preparation the other files are the generator's that are not transient. -/
theorem prepared_others {name : String} (none : ∀ artifact : Artifact, artifact.name ≠ name) :
    (effects config output store Stage.preparation .empty).others name =
      if name ∈ config.generator.resources ∧ name ∉ config.generator.transient then
        some (store.fileAt (Path.join config.generator.dir name))
      else Option.none := by
  have query : name ≠ (Artifact.query refreshQuery).name := (none _).symm
  have before : (staged config store .empty).others name = _ := staged_others none
  simp only [effects, Stage.preparation, List.foldl, effect, Drawer.remove, Drawer.fragmented,
    Drawer.without, Drawer.queried, Drawer.converted, Drawer.loaded, Drawer.update, if_neg query,
    before]
  by_cases transient : name ∈ config.generator.transient <;>
    simp only [transient, if_true, if_false, not_true_eq_false, not_false_eq_true, and_false,
      and_true]

/-- The preparation succeeds and leaves what is delivered. -/
theorem succeeds_preparation (progress : Progress) :
    Succeeds (calls config runner now .full store memory) (· = store)
      (performAll config (recorded runner) now progress Stage.preparation)
      fun _ => Prepared config output home store := by
  have prepared : Succeeds (calls config runner now .full store memory) (· = store)
      (perform config (recorded runner) now progress .prepare)
      fun _ => (staged config store .empty).Fills home (store.withDirectory config.output.dir) :=
    .filesStage (fun first same => same ▸ setting.prepare_fills) progress
  exact succeeds_performAll_cons prepared fun next =>
    setting.succeeds_performAll setting.readyAll_preparation next

end Setting

end Pipeline

end PowerTest
