import PowerTest.Proofs.Pipeline.Preparation
import PowerTest.Proofs.Store.Confinement

/-!
# What staging copies

Copying plain names from one directory to another puts a file under each name and changes nothing
else (`Copied`), and each file is copied whole unless the two directories are one: then it is
emptied. `prepare_staged` says what this makes of the generator's files and the query templates when
preparation succeeds, wherever the three directories lie: all are copied and kept if the output
directory is neither of the other two, and otherwise the files of that one are lost.
-/

namespace PowerTest

open Steps Store

namespace Store

variable {store middle after : Store} {directory origin target path name : String}
  {source home location : Location} {node : Node}

/-- Two stores that differ in files only. -/
structure SameDirectories (store after : Store) : Prop where
  workingDirectory : after.workingDirectory = store.workingDirectory
  directories : ∀ location,
    after.node? location = some .directory ↔ store.node? location = some .directory

theorem sameDirectories_refl (store : Store) : SameDirectories store store :=
  ⟨rfl, fun _ => Iff.rfl⟩

theorem SameDirectories.trans (first : SameDirectories store middle)
    (second : SameDirectories middle after) : SameDirectories store after :=
  ⟨second.workingDirectory.trans first.workingDirectory, fun location =>
    (second.directories location).trans (first.directories location)⟩

theorem SameDirectories.leads_iff (same : SameDirectories store after) :
    after.Leads path home ↔ store.Leads path home := by
  constructor
  · exact fun leads => leads.of_directories same.workingDirectory.symm
      fun location => (same.directories location).mp
  · exact fun leads => leads.of_directories same.workingDirectory
      fun location => (same.directories location).mpr

/-- A change of one place where there is a directory neither before nor after. -/
theorem sameDirectories_of_frame {place : Location}
    (workingDirectory : after.workingDirectory = store.workingDirectory)
    (free : store.node? place ≠ some .directory) (freed : after.node? place ≠ some .directory)
    (frame : ∀ location, location ≠ place → after.node? location = store.node? location) :
    SameDirectories store after := by
  refine ⟨workingDirectory, fun location => ?_⟩
  by_cases here : location = place
  · rw [here, iff_false_intro free, iff_false_intro freed]
  · rw [frame location here]

theorem sameDirectories_put {executable : Bool} {content : Bytes}
    (free : store.node? (home ++ [name]) ≠ some .directory) :
    SameDirectories store (store.put (home ++ [name]) (.file executable content)) :=
  sameDirectories_of_frame rfl free (by simp) fun location apart => by
    rw [node?_put_concat, if_neg apart]

theorem sameDirectories_erase (free : store.node? (home ++ [name]) ≠ some .directory) :
    SameDirectories store (store.erase (home ++ [name])) :=
  sameDirectories_of_frame rfl free (by simp) fun location apart => by
    rw [node?_erase_concat, if_neg apart]

/-- A file that was copied from one directory to another under the same name. -/
structure CopiedFile (source home : Location) (name : String) (store after : Store) : Prop where
  free : store.node? (home ++ [name]) ≠ some .directory
  copied : ∃ executable content,
    store.node? (source ++ [name]) = some (.file executable content) ∧
      after = store.put (home ++ [name]) (.file executable (if home = source then [] else content))

theorem copiedFile_of_copy (plain : Path.IsPlain name)
    (done : store.copy (Path.join origin name) (Path.join target name) = .ok after) :
    ∃ source home, store.Leads origin source ∧ store.Leads target home ∧ Fits target name ∧
      CopiedFile source home name store after := by
  obtain ⟨_, executable, content, _, _, _, found, opens, rfl⟩ := copy_eq_ok_iff.mp done
  obtain ⟨source, leadsSource, _, rfl⟩ := place_of_find_join plain found
  obtain ⟨home, leadsHome, fits, rfl, free⟩ := opened_of_destination plain opens
  have same : home ++ [name] = source ++ [name] ↔ home = source := List.append_left_inj [name]
  simp only [same]
  exact ⟨source, home, leadsSource, leadsHome, fits, free, executable, content,
    node?_of_find found, rfl⟩

/-- Files that were copied from one directory to another under the same names. -/
structure Copied (source home : Location) (names : List String) (store after : Store) : Prop where
  copies : ∀ name ∈ names, ∃ executable content,
    store.node? (source ++ [name]) = some (.file executable content) ∧
      after.node? (home ++ [name]) =
        some (.file executable (if home = source then [] else content))
  kept : ∀ location, (∀ name ∈ names, location ≠ home ++ [name]) →
    after.node? location = store.node? location

theorem Copied.cons {names : List String} (fresh : name ∉ names)
    (first : CopiedFile source home name store middle) (rest : Copied source home names middle after) :
    Copied source home (name :: names) store after := by
  obtain ⟨executable, content, stands, rfl⟩ := first.copied
  constructor
  · intro other member
    rcases List.mem_cons.mp member with rfl | later
    · refine ⟨executable, content, stands, ?_⟩
      have untouched := rest.kept (home ++ [other]) fun another among same =>
        fresh (concat_inj.mp same ▸ among)
      rw [untouched, node?_put_concat, if_pos rfl]
    · obtain ⟨executable, content, before, copied⟩ := rest.copies other later
      refine ⟨executable, content, ?_, copied⟩
      have apart : source ++ [other] ≠ home ++ [name] := by
        intro same
        obtain ⟨_, last⟩ := List.append_inj' same rfl
        exact fresh ((List.cons.inj last).1 ▸ later)
      rwa [node?_put_concat, if_neg apart] at before
  · intro location apart
    obtain ⟨here, others⟩ := List.forall_mem_cons.mp apart
    rw [rest.kept location others, node?_put_concat, if_neg here]

/-! Two copies into one directory, under different names -/

section

variable {other : Location} {names more : List String}

theorem Copied.kept_append (first : Copied source home names store middle)
    (second : Copied other home more middle after)
    (apart : ∀ name ∈ names ++ more, location ≠ home ++ [name]) :
    after.node? location = store.node? location := by
  obtain ⟨before, later⟩ := List.forall_mem_append.mp apart
  rw [second.kept location later, first.kept location before]

theorem Copied.copies_of_earlier (first : Copied source home names store middle)
    (second : Copied other home more middle after) (apart : ∀ name ∈ names, name ∉ more)
    (member : name ∈ names) :
    ∃ executable content, store.node? (source ++ [name]) = some (.file executable content) ∧
      after.node? (home ++ [name]) =
        some (.file executable (if home = source then [] else content)) := by
  obtain ⟨executable, content, stands, placed⟩ := first.copies name member
  refine ⟨executable, content, stands, ?_⟩
  have untouched := second.kept (home ++ [name]) fun later listed here =>
    apart name member (concat_inj.mp here ▸ listed)
  rw [untouched, placed]

theorem Copied.copies_of_later (first : Copied source home names store middle)
    (second : Copied other home more middle after) (apart : ∀ name ∈ names, name ∉ more)
    (member : name ∈ more) :
    ∃ executable content, store.node? (other ++ [name]) = some (.file executable content) ∧
      after.node? (home ++ [name]) =
        some (.file executable (if home = other then [] else content)) := by
  obtain ⟨executable, content, stands, placed⟩ := second.copies name member
  refine ⟨executable, content, ?_, placed⟩
  -- The first copies may lie where the second ones come from, but under other names.
  rwa [first.kept] at stands
  intro earlier listed here
  obtain ⟨_, last⟩ := List.append_inj' here rfl
  exact apart earlier listed ((List.cons.inj last).1 ▸ member)

end

end Store

/-! ## Copying files one after another -/

variable {store after : Store} {origin target name : String} {names : List String}
  {source home : Location}

theorem copiedFile_of_copyFile (plain : Path.IsPlain name)
    (done : copyFile origin target name store = .ok () after) :
    ∃ source home, store.Leads origin source ∧ store.Leads target home ∧ Fits target name ∧
      CopiedFile source home name store after := by
  simp only [copyFile] at done
  split at done
  · exact copiedFile_of_copy plain (Files.change_eq_ok_iff.mp done)
  · cases done

theorem sameDirectories_copyFiles (plain : ∀ name ∈ names, Path.IsPlain name)
    (done : copyFiles origin target names store = .ok () after) :
    SameDirectories store after ∧ ∀ name ∈ names, Fits target name := by
  induction names generalizing store with
  | nil =>
    obtain ⟨_, rfl⟩ := EStateM.Result.ok.inj done
    exact ⟨sameDirectories_refl store, List.forall_mem_nil _⟩
  | cons name rest ih =>
    obtain ⟨plainName, plainRest⟩ := List.forall_mem_cons.mp plain
    obtain ⟨_, middle, first, later⟩ := bind_eq_ok_iff.mp done
    obtain ⟨_, _, _, _, fits, copied⟩ := copiedFile_of_copyFile plainName first
    obtain ⟨executable, content, _, rfl⟩ := copied.copied
    obtain ⟨same, others⟩ := ih plainRest later
    exact ⟨(sameDirectories_put copied.free).trans same, List.forall_mem_cons.mpr ⟨fits, others⟩⟩

/-- Something can only be copied between directories. -/
theorem leads_of_copyFiles (plain : ∀ name ∈ names, Path.IsPlain name) (some : names ≠ [])
    (done : copyFiles origin target names store = .ok () after) :
    ∃ source home, store.Leads origin source ∧ store.Leads target home := by
  cases names with
  | nil => exact absurd rfl some
  | cons name rest =>
    obtain ⟨_, middle, first, _⟩ := bind_eq_ok_iff.mp done
    obtain ⟨source, home, leadsSource, leadsHome, _⟩ :=
      copiedFile_of_copyFile (plain name List.mem_cons_self) first
    exact ⟨source, home, leadsSource, leadsHome⟩

theorem copied_of_copyFiles (distinct : names.Nodup) (plain : ∀ name ∈ names, Path.IsPlain name)
    (leadsSource : store.Leads origin source) (leadsHome : store.Leads target home)
    (done : copyFiles origin target names store = .ok () after) :
    Copied source home names store after := by
  induction names generalizing store with
  | nil =>
    obtain ⟨_, rfl⟩ := EStateM.Result.ok.inj done
    exact ⟨List.forall_mem_nil _, fun _ _ => rfl⟩
  | cons name rest ih =>
    obtain ⟨fresh, distinctRest⟩ := List.nodup_cons.mp distinct
    obtain ⟨plainName, plainRest⟩ := List.forall_mem_cons.mp plain
    obtain ⟨_, middle, first, later⟩ := bind_eq_ok_iff.mp done
    obtain ⟨place, goal, ledSource, ledHome, _, copied⟩ := copiedFile_of_copyFile plainName first
    obtain rfl := ledSource.unique leadsSource
    obtain rfl := ledHome.unique leadsHome
    have same : SameDirectories store middle := by
      obtain ⟨executable, content, _, rfl⟩ := copied.copied
      exact sameDirectories_put copied.free
    have others := ih distinctRest plainRest (same.leads_iff.mpr leadsSource)
      (same.leads_iff.mpr leadsHome) later
    exact others.cons fresh copied

theorem madeAlong_ensureDirectory {directory : String}
    (done : ensureDirectory directory store = .ok () after) :
    MadeAlong (along directory) store after := by
  have made := madeAlong_makeDirectories store directory
  rw [ensureDirectory] at done
  split at done
  · obtain ⟨_, rfl⟩ := EStateM.Result.ok.inj done
    exact madeAlong_refl _ store
  · split at done
    · rename_i last came
      obtain ⟨_, rfl⟩ := EStateM.Result.ok.inj done
      rwa [came] at made
    · cases done

namespace Pipeline

/-- What stands after the output directory was prepared, given where the three paths lead. -/
structure Staged (config : Config) (generator queries home : Location) (store after : Store) :
    Prop where
  leadsGenerator : after.Leads config.generator.dir generator
  leadsQueries : after.Leads (Path.join config.generator.dir config.generator.queryDir) queries
  leadsHome : after.Leads config.output.dir home
  /-- Paths lead where they led before. -/
  stay : ∀ path place, store.Leads path place → after.Leads path place
  /-- A file that is copied onto itself is emptied. -/
  resources : ∀ name ∈ config.generator.resources, ∃ executable content,
    store.node? (generator ++ [name]) = some (.file executable content) ∧
      after.find (Path.join config.output.dir name) =
        .ok (home ++ [name], .file executable (if home = generator then [] else content))
  templates : ∀ name ∈ Artifact.templateNames, ∃ executable content,
    store.node? (queries ++ [name]) = some (.file executable content) ∧
      after.find (Path.join config.output.dir name) =
        .ok (home ++ [name], .file executable (if home = queries then [] else content))
  /-- Only what is copied is written. -/
  kept : ∀ location node, store.node? location = some node →
    (∀ name ∈ config.generator.resources ++ Artifact.templateNames, location ≠ home ++ [name]) →
      after.node? location = some node
  /-- Nothing in the two directories changes if neither is the output directory. -/
  sources : home ≠ generator → home ≠ queries → ∀ name node,
    (store.node? (generator ++ [name]) = some node →
        after.node? (generator ++ [name]) = some node) ∧
      (store.node? (queries ++ [name]) = some node → after.node? (queries ++ [name]) = some node)

theorem found_of_inspected {directory : String} {blame : Fault → Failure} {looked : Store}
    (inspected : Files.inspect blame
      (fun store => if store.isDirectory directory then .ok () else .error .notFound) store =
        .ok () looked) :
    looked = store ∧ ∃ home, store.find directory = .ok (home, .directory) := by
  obtain ⟨present, same⟩ := Files.inspect_eq_ok_iff.mp inspected
  refine ⟨same, ?_⟩
  split at present
  · rename_i found
    exact find_of_isDirectory found
  · cases present

theorem leads_of_inspected {directory : String} {blame : Fault → Failure} {looked : Store}
    (inspected : Files.inspect blame
      (fun store => if store.isDirectory directory then .ok () else .error .notFound) store =
        .ok () looked) :
    looked = store ∧ ∃ home, store.Leads directory home := by
  obtain ⟨same, home, found⟩ := found_of_inspected inspected
  exact ⟨same, home, leads_of_find found⟩

/-- Preparation that succeeds has copied every file, and emptied what it copied onto itself. -/
theorem prepare_staged {config : Config}
    (plain : ∀ name ∈ config.generator.resources, Path.IsPlain name)
    (distinct : config.generator.resources.Nodup)
    (apart : ∀ name ∈ config.generator.resources, name ∉ Artifact.templateNames)
    (done : prepare config store = .ok () after) :
    ∃ generator queries home, Staged config generator queries home store after := by
  obtain ⟨_, opened, ensured, done⟩ := bind_eq_ok_iff.mp done
  obtain ⟨_, looked, inspected, done⟩ := bind_eq_ok_iff.mp done
  obtain ⟨_, middle, first, second⟩ := bind_eq_ok_iff.mp done
  have made := madeAlong_ensureDirectory ensured
  obtain ⟨rfl, generator, leadsGenerator⟩ := leads_of_inspected inspected
  have plainTemplates : ∀ name ∈ Artifact.templateNames, Path.IsPlain name :=
    fun _ => Artifact.isPlain_of_mem_templateNames
  obtain ⟨same, fits⟩ := sameDirectories_copyFiles plain first
  obtain ⟨sameNext, fitsNext⟩ := sameDirectories_copyFiles plainTemplates second
  have many : Artifact.templateNames ≠ [] := by decide
  obtain ⟨queries, home, leadsQueries, leadsHome⟩ :=
    leads_of_copyFiles plainTemplates many second
  have copied := copied_of_copyFiles distinct plain leadsGenerator (same.leads_iff.mp leadsHome) first
  have copiedNext := copied_of_copyFiles Artifact.nodup_templateNames plainTemplates leadsQueries
    leadsHome second
  have stays (location : Location) (node : Node) (stands : store.node? location = some node)
      (other : ∀ name ∈ config.generator.resources ++ Artifact.templateNames,
        location ≠ home ++ [name]) : after.node? location = some node := by
    rw [copied.kept_append copiedNext other]
    exact made.grows.stay location node stands
  have leadsAfter := sameNext.leads_iff.mpr leadsHome
  refine ⟨generator, queries, home, (same.trans sameNext).leads_iff.mpr leadsGenerator,
    sameNext.leads_iff.mpr leadsQueries, leadsAfter, ?_, ?_, ?_, stays, ?_⟩
  · exact fun path place leads => (same.trans sameNext).leads_iff.mpr (made.grows.leads leads)
  · intro name member
    obtain ⟨executable, content, stands, placed⟩ := copied.copies_of_earlier copiedNext apart member
    refine ⟨executable, content, made.file stands, ?_⟩
    rw [find_join leadsAfter (plain name member) (fits name member), placed]
  · intro name member
    obtain ⟨executable, content, stands, placed⟩ := copied.copies_of_later copiedNext apart member
    refine ⟨executable, content, made.file stands, ?_⟩
    rw [find_join leadsAfter (plainTemplates name member) (fitsNext name member), placed]
  · intro notGenerator notQueries name node
    have elsewhere (place : Location) (other : home ≠ place)
        (stands : store.node? (place ++ [name]) = some node) :
        after.node? (place ++ [name]) = some node := by
      refine stays (place ++ [name]) node stands fun copied _ here => ?_
      obtain ⟨same, _⟩ := List.append_inj' here rfl
      exact other same.symm
    exact ⟨elsewhere generator notGenerator, elsewhere queries notQueries⟩

/-- A configuration with one resource. -/
def stagedTo (directory : String) : Config where
  generator := { dir := "gen", resources := ["dss.ddl"], transient := [] }
  output := { dir := directory }

/-- A store with the generator's files. -/
def generatorFiles : Store where
  entries := [(["w"], .directory), (["w", "gen"], .directory),
      (["w", "gen", "dss.ddl"], .file false [100]), (["w", "gen", "queries"], .directory)] ++
    Artifact.templateNames.map fun name => (["w", "gen", "queries", name], .file false [113])
  workingDirectory := ["w"]

theorem isPlain_of_mem_stagedTo {directory : String} :
    ∀ name ∈ (stagedTo directory).generator.resources, Path.IsPlain name := by
  have plain : Path.IsPlain "dss.ddl" := by constructor <;> decide
  exact List.forall_mem_singleton.mpr plain

/-- Into a directory of its own the generator's files can be staged. -/
theorem prepare_stagedTo_out :
    ∃ after, prepare (stagedTo "out") generatorFiles = .ok () after := by
  have lost : generatorFiles.locate "out" = .ok (.absent ["w", "out"]) := rfl
  have tree : generatorFiles.IsTree := isTree_of_entries (by decide +kernel)
  have room := emptyDirectory_of_absent tree lost (by decide)
  have made := congrArg Prod.snd (makeDirectories_of_absent lost)
  obtain ⟨after, prepared, _⟩ : ∃ after, prepare (stagedTo "out") generatorFiles = .ok () after ∧ _ :=
    prepare_fills_of_files room (.inr made) isPlain_of_mem_stagedTo (by decide +kernel)
      (by decide +kernel) (by decide +kernel)
  exact ⟨after, prepared⟩

theorem prepare_staged_out :
    ∃ after, prepare (stagedTo "out") generatorFiles = .ok () after ∧
      ∃ generator queries home,
        Staged (stagedTo "out") generator queries home generatorFiles after := by
  obtain ⟨after, prepared⟩ := prepare_stagedTo_out
  exact ⟨after, prepared, prepare_staged isPlain_of_mem_stagedTo (by decide) (by decide +kernel)
    prepared⟩

/-- Whether steps succeed and leave a node. -/
def leaves (location : Location) (node : Node) : EStateM.Result Failure Store Unit → Bool
  | .ok _ after => after.node? location = some node
  | .error _ _ => false

theorem exists_of_leaves {location : Location} {node : Node}
    {result : EStateM.Result Failure Store Unit} (done : leaves location node result = true) :
    ∃ after, result = .ok () after ∧ after.node? location = some node := by
  cases result with
  | ok value after => exact ⟨after, rfl, of_decide_eq_true done⟩
  | error failure after => cases done

/-- The configuration is accepted, and preparing the generator's own directory empties its file. -/
theorem prepare_empties_resource :
    (stagedTo "gen").rejection? = none ∧
      generatorFiles.node? ["w", "gen", "dss.ddl"] = some (.file false [100]) ∧
      ∃ after, prepare (stagedTo "gen") generatorFiles = .ok () after ∧
        after.node? ["w", "gen", "dss.ddl"] = some (.file false []) := by
  have accepted : (stagedTo "gen").rejection? = none := by decide +kernel
  have before : generatorFiles.node? ["w", "gen", "dss.ddl"] = some (.file false [100]) := by
    decide +kernel
  have emptied : leaves ["w", "gen", "dss.ddl"] (.file false [])
      (prepare (stagedTo "gen") generatorFiles) = true := by decide +kernel
  exact ⟨accepted, before, exists_of_leaves emptied⟩

end Pipeline

end PowerTest
