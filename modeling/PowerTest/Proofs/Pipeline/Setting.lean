import PowerTest.Proofs.Pipeline.Contents
import PowerTest.Proofs.Pipeline.Success
import PowerTest.Proofs.Pipeline.Trace

/-!
# The setting of a full run

An `Output` is what the commands of a run write. `Setting` says what a full run needs: a valid
configuration, the generator's files, an empty output directory, and commands that write their
output and nothing else. `Delivers` says what is left in the end.
-/

namespace PowerTest

open Steps Store

/-- What the commands of a run write. -/
structure Output where
  /-- The rows of a table, if they are generated. -/
  rows : Table → Option String
  /-- The rows that a refresh set adds to a table. -/
  updates : Table → Nat → String
  /-- The keys that a refresh set deletes. -/
  keys : Nat → String
  queries : Nat → String
  log : Bytes

namespace Output

variable (output : Output) (config : Config)

/-- The files of base tables. -/
def base : Artifact → Option Bytes
  | .tableData table => (output.rows table).map Text.encode
  | _ => none

/-- The files of refresh sets. -/
def refresh : Artifact → Option Bytes
  | .updateData table set =>
    if table ∈ Table.refreshed ∧ 1 ≤ set ∧ set ≤ config.generator.updateFactor.toNat then
      some (Text.encode (output.updates table set))
    else none
  | .deleteKeys set =>
    if 1 ≤ set ∧ set ≤ config.generator.updateFactor.toNat then
      some (Text.encode (output.keys set))
    else none
  | _ => none

/-- The file of a query. -/
def query (number : Nat) : Artifact → Option Bytes
  | .query other => if other = number then some (Text.encode (output.queries number)) else none
  | _ => none

/-- The contents of artifacts after a full run. -/
def delivered : Artifact → Option Bytes
  | .tableData table =>
    if table ∈ config.generator.tables then none else (output.rows table).map Text.encode
  | .loadScript table =>
    if table ∈ config.generator.tables then
      (output.rows table).map (Drawer.script (insertion table))
    else none
  | .updateData table set =>
    if set = config.set then none else output.refresh config (.updateData table set)
  | .deleteKeys set => if set = config.set then none else output.refresh config (.deleteKeys set)
  | .firstRefresh =>
    some (Drawer.script (insertion .orders) (output.updates .orders config.set) ++
      Drawer.script (insertion .lineitem) (output.updates .lineitem config.set))
  | .secondRefresh =>
    some (Drawer.script (deleteStatements (Pipeline.keyFormat config)) (output.keys config.set))
  | .query number =>
    if number ∈ queryNumbers ∧ number ≠ refreshQuery then
      some (Text.encode (output.queries number))
    else none
  | .fragment number =>
    if number = 0 then none
    else (fragments (output.queries refreshQuery))[number - 1]?.map Text.encode
  | .template _ | .runDirectory _ => none

end Output

/-- A call that succeeds and writes files of a directory and nothing else. -/
structure Call.Writes (call : Call) (home : Location) (files : Artifact → Option Bytes) :
    Prop where
  answer : call.answer = .ok 0
  workingDirectory : call.after.workingDirectory = call.before.workingDirectory
  written : ∀ artifact content, files artifact = some content →
    ∃ executable, call.after.node? (home ++ [artifact.name]) = some (.file executable content)
  other : ∀ location,
    (∀ artifact content, files artifact = some content → location ≠ home ++ [artifact.name]) →
      call.after.node? location = call.before.node? location

/-- A call that succeeds and writes one file and nothing else. -/
structure Call.WritesFile (call : Call) (location : Location) (content : Bytes) : Prop where
  answer : call.answer = .ok 0
  workingDirectory : call.after.workingDirectory = call.before.workingDirectory
  written : ∃ executable, call.after.node? location = some (.file executable content)
  other : ∀ another, another ≠ location →
    call.after.node? another = call.before.node? another

variable {drawer : Drawer} {home : Location} {base store : Store}

/-- A call changes the contents of a directory by the files that it writes. -/
theorem Drawer.Fills.update {call : Call} {files : Artifact → Option Bytes}
    (fills : drawer.Fills home base call.before) (writes : call.Writes home files) :
    (drawer.update files).Fills home base call.after where
  workingDirectory := writes.workingDirectory.trans fills.workingDirectory
  artifacts artifact := by
    simp only [Drawer.update]
    cases written : files artifact with
    | some content => exact writes.written artifact content written
    | none =>
      rw [Option.none_or, writes.other]
      · exact fills.artifacts artifact
      · intro another _ present same
        obtain rfl := Artifact.name_inj.mp (concat_inj.mp same)
        cases written.symm.trans present
  others name none := by
    rw [writes.other _ fun artifact _ _ same => none artifact (concat_inj.mp same).symm]
    exact fills.others name none
  flat name next rest := by
    rw [writes.other _ fun artifact _ _ => Drawer.ne_deep home name next artifact.name rest]
    exact fills.flat name next rest
  outside location out := by
    rw [writes.other _ fun artifact _ _ => out artifact.name []]
    exact fills.outside location out

/-- The store with a directory, made unless it is there. -/
def Store.withDirectory (store : Store) (path : String) : Store :=
  if store.hasNode path then store else (store.makeDirectories path).1

theorem Store.grows_withDirectory (store : Store) (path : String) :
    Grows store (store.withDirectory path) := by
  rw [withDirectory]
  split
  · exact grows_refl store
  · exact (madeAlong_makeDirectories store path).grows

/-- A directory that is there or can be made is there afterwards. -/
theorem ensureDirectory_eq {store : Store} {path : String}
    (made : store.hasNode path = true ∨ (store.makeDirectories path).2 = none) :
    ensureDirectory path store = .ok () (store.withDirectory path) := by
  unfold ensureDirectory withDirectory
  by_cases there : store.hasNode path = true
  · rw [if_pos there, if_pos there]
  · rw [if_neg there, if_neg there]
    have done := made.resolve_left there
    generalize store.makeDirectories path = outcome at done ⊢
    obtain ⟨after, fault⟩ := outcome
    obtain rfl := done
    rfl

/-- In a tree a directory that is missing in another is empty once it is made. -/
theorem Store.emptyDirectory_of_absent {path : String} {location : Location}
    (tree : store.IsTree) (lost : store.locate path = .ok (.absent location))
    (short : path.utf8ByteSize + 256 < tooLongPath) :
    EmptyDirectory (store.withDirectory path) path location := by
  have absent : store.hasNode path = false := by
    rw [hasNode, find, lost]
    rfl
  have made : store.withDirectory path = store.put location .directory := by
    rw [withDirectory, absent, makeDirectories_of_absent lost]
    rfl
  obtain ⟨_, _, _, parent, name, rfl, missing⟩ := locate_eq_absent lost
  rw [made]
  refine ⟨find_put_of_absent lost, fun other rest => ?_, short⟩
  have below := tree.node?_below missing.nothing (other :: rest)
  rw [node?_put_concat, if_neg]
  · exact below
  · exact fun same => List.cons_ne_nil _ _ (List.append_right_eq_self.mp same)

/-- The mark and the content of the file that a path leads to. -/
def Store.fileAt (store : Store) (path : String) : Bool × Bytes :=
  match store.find path with
  | .ok (_, .file executable content) => (executable, content)
  | _ => (false, [])

/-- A file is found still when a directory has been made. -/
theorem Store.find_withDirectory {path : String} (directory : String)
    (file : store.isFile path = true) :
    ∃ location, (store.withDirectory directory).find path =
      .ok (location, .file (store.fileAt path).1 (store.fileAt path).2) := by
  obtain ⟨location, executable, content, found⟩ := find_of_isFile file
  have stays := (grows_withDirectory store directory).find found
  refine ⟨location, ?_⟩
  simp only [fileAt, found]
  exact stays

namespace Pipeline

variable {Memory : Type}

/-- The path of the client's log. -/
def clientLog (config : Config) (now : Int) : String :=
  Path.join (config.runDirectory now) config.client.logFileName

/-- A full run that has all it needs, and whose commands write what they should. -/
structure Setting (config : Config) (runner : Runner Memory) (now : Int) (store : Store)
    (memory : Memory) (output : Output) (home : Location) : Prop where
  valid : config.validate = .ok ()
  tables : config.generator.tables.Nodup
  /-- The generator's files have names of their own. -/
  resources : ∀ name ∈ config.generator.resources,
    Path.IsPlain name ∧ ∀ artifact : Artifact, artifact.name ≠ name
  transient : config.generator.transient.Nodup
  transientStaged : ∀ name ∈ config.generator.transient, name ∈ config.generator.resources
  /-- The output directory is there or can be made, and then there is nothing in it. -/
  made : store.hasNode config.output.dir = true ∨
    (store.makeDirectories config.output.dir).2 = none
  directory : EmptyDirectory (store.withDirectory config.output.dir) config.output.dir home
  generator : store.isDirectory config.generator.dir = true
  resourceFiles : ∀ name ∈ config.generator.resources,
    store.isFile (Path.join config.generator.dir name) = true
  templateFiles : ∀ name ∈ Artifact.templateNames,
    store.isFile (Path.join (Path.join config.generator.dir config.generator.queryDir) name) = true
  /-- Times and counts fit the numbers of the machine, so names with them are short. -/
  clock : now.toNat < 2 ^ 128
  pieces : (fragments (output.queries refreshQuery)).length < 2 ^ 64
  /-- The rows of each table that is to be loaded are generated. -/
  complete : ∀ table ∈ config.generator.tables, (output.rows table).isSome
  baseData : ∀ call ∈ calls config runner now .full store memory,
    call.invocation = baseDataCommand config → call.Writes home output.base
  incrementalData : ∀ call ∈ calls config runner now .full store memory,
    call.invocation = incrementalDataCommand config → call.Writes home (output.refresh config)
  queries : ∀ number ∈ queryNumbers, ∀ call ∈ calls config runner now .full store memory,
    call.invocation = queryCommand config number → call.Writes home (output.query number)
  /-- The client writes a log that has a score, given that its directory is there and empty. -/
  client : ∀ program arguments, config.client.command = program :: arguments →
    ∀ call ∈ calls config runner now .full store memory,
      call.invocation = clientCommand config program arguments (config.runDirectory now) →
      call.before.find (config.runDirectory now) =
          .ok (home ++ [(Artifact.runDirectory now.toNat).name], .directory) →
      (∀ name rest, call.before.node?
        (home ++ (Artifact.runDirectory now.toNat).name :: name :: rest) = none) →
        call.WritesFile
          (home ++ [(Artifact.runDirectory now.toNat).name, config.client.logFileName])
          output.log ∧
        ∃ report, Timing.Report.ofLog call.after (clientLog config now)
          config.generator.scaleFactor = .ok report

/-- The store after a full run. -/
structure Delivers (config : Config) (now : Int) (output : Output) (home : Location)
    (store after : Store) : Prop where
  artifacts : ∀ artifact,
    (config.client.isConfigured = true → artifact ≠ .runDirectory now.toNat) →
      Holds (after.node? (home ++ [artifact.name])) (output.delivered config artifact)
  /-- The generator's files are there unless they were transient. -/
  resources : ∀ name, (∀ artifact : Artifact, artifact.name ≠ name) →
    after.node? (home ++ [name]) =
      if name ∈ config.generator.resources ∧ name ∉ config.generator.transient then
        some (.file (store.fileAt (Path.join config.generator.dir name)).1
          (store.fileAt (Path.join config.generator.dir name)).2)
      else none
  runDirectory : config.client.isConfigured = true →
    after.node? (home ++ [(Artifact.runDirectory now.toNat).name]) = some .directory ∧
      ∃ executable, after.node?
        (home ++ [(Artifact.runDirectory now.toNat).name, config.client.logFileName]) =
          some (.file executable output.log)
  deeper : ∀ name next rest,
    (config.client.isConfigured = true →
      name :: next :: rest ≠ [(Artifact.runDirectory now.toNat).name, config.client.logFileName]) →
    after.node? (home ++ name :: next :: rest) = none
  /-- Elsewhere only the output directory was made. -/
  outside : ∀ location, (∀ name rest, location ≠ home ++ name :: rest) →
    after.node? location = (store.withDirectory config.output.dir).node? location

end Pipeline

end PowerTest
