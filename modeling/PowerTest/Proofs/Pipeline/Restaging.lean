import PowerTest.Proofs.Pipeline.FirstFault
import PowerTest.Proofs.Store.Alteration

/-!
# Preparing a directory again

A directory that was prepared once can be prepared again if it is not one of the generator's: what
was staged is `Stageable` still, whatever a run has altered in the directory. Preparing it again
changes nothing but what is staged (`prepare_of_restageable`).
-/

namespace PowerTest

open Steps Store

namespace Store

variable {store middle after : Store} {origin target name : String}
  {source home : Location} {names more : List String} {comes : String → Prop}

/-- A file that can be copied from one directory to another. -/
structure Stageable (store : Store) (origin target : String) (source home : Location)
    (name : String) : Prop where
  stands : ∃ executable content, store.node? (source ++ [name]) = some (.file executable content)
  free : store.node? (home ++ [name]) ≠ some .directory
  fitsOrigin : Fits origin name
  fitsTarget : Fits target name

theorem Stageable.of_kept (stageable : store.Stageable origin target source home name)
    (kept : after.node? (source ++ [name]) = store.node? (source ++ [name]))
    (made : after.node? (home ++ [name]) = some .directory →
      store.node? (home ++ [name]) = some .directory) :
    after.Stageable origin target source home name :=
  { stageable with
    stands := kept ▸ stageable.stands
    free := fun directory => stageable.free (made directory) }

/-- What a run alters in the one directory does not keep a file from being copied there. -/
theorem Stageable.alters (stageable : store.Stageable origin target source home name)
    (alters : Alters home comes store after) (apart : ¬home <+: source)
    (other : ∀ milliseconds, name ≠ (Artifact.runDirectory milliseconds).name) :
    after.Stageable origin target source home name := by
  refine stageable.of_kept (alters.kept fun next rest here => apart ?_) fun directory => ?_
  · have below : home <+: source ++ [name] := ⟨next :: rest, here.symm⟩
    rcases List.prefix_concat_iff.mp below with whole | inside
    · cases List.append_right_eq_self.mp (here.symm.trans whole.symm)
    · exact inside
  · rcases alters.made name directory with earlier | ⟨milliseconds, same⟩
    · exact earlier
    · exact absurd same (other milliseconds)

theorem CopiedFile.restaged (copied : CopiedFile source home name store after) :
    Restaged home [name] store after := by
  obtain ⟨executable, content, _, rfl⟩ := copied.copied
  exact restaged_put copied.free

theorem Restaged.stageable_iff (restaged : Restaged home names store after)
    (apart : home ≠ source) :
    after.Stageable origin target source home name ↔
      store.Stageable origin target source home name := by
  have same := restaged.elsewhere apart name
  have directory := restaged.directories.directories (home ++ [name])
  exact ⟨fun stageable => stageable.of_kept same.symm directory.mpr,
    fun stageable => stageable.of_kept same directory.mp⟩

end Store

variable {store after : Store} {origin target directory name : String} {names : List String}
  {source home : Location}

/-! ## Copying files again -/

theorem fits_of_copyFile (plain : Path.IsPlain name)
    (done : copyFile origin target name store = .ok () after) : Fits origin name := by
  simp only [copyFile] at done
  split at done
  · rename_i present
    obtain ⟨_, _, _, found⟩ := find_of_isFile present
    exact fits_of_find plain found
  · cases done

theorem copyFiles_of_stageable (plain : ∀ name ∈ names, Path.IsPlain name)
    (leadsSource : store.Leads origin source) (leadsHome : store.Leads target home)
    (apart : home ≠ source)
    (stageable : ∀ name ∈ names, store.Stageable origin target source home name) :
    ∃ after, copyFiles origin target names store = .ok () after ∧
      Restaged home names store after := by
  have ends := loopEnds_copyFiles leadsSource leadsHome apart plain fun name member =>
    ⟨(stageable name member).fitsOrigin, (stageable name member).fitsTarget⟩
  obtain ⟨after, done⟩ := ends.ok_iff.mpr (unobstructed_copy_iff.mpr fun name member =>
    ⟨(stageable name member).stands, (stageable name member).free⟩)
  rw [done] at ends
  cases ends with
  | completed clear whole => exact ⟨after, done, whole.toRestaged⟩

/-- Files that were copied from another directory could be, and can be again. -/
theorem stageable_of_copyFiles (plain : ∀ name ∈ names, Path.IsPlain name)
    (leadsSource : store.Leads origin source) (leadsHome : store.Leads target home)
    (apart : home ≠ source) (done : copyFiles origin target names store = .ok () after) :
    Restaged home names store after ∧
      ∀ name ∈ names, store.Stageable origin target source home name := by
  induction names generalizing store with
  | nil =>
    obtain ⟨_, rfl⟩ := EStateM.Result.ok.inj done
    exact ⟨restaged_nil home store, List.forall_mem_nil _⟩
  | cons name rest ih =>
    obtain ⟨plainName, plainRest⟩ := List.forall_mem_cons.mp plain
    obtain ⟨_, middle, first, later⟩ := bind_eq_ok_iff.mp done
    obtain ⟨place, goal, ledSource, ledHome, fitsTarget, copied⟩ :=
      copiedFile_of_copyFile plainName first
    obtain rfl := ledSource.unique leadsSource
    obtain rfl := ledHome.unique leadsHome
    have fitsOrigin := fits_of_copyFile plainName first
    obtain ⟨executable, content, stands, _⟩ := copied.copied
    have one := copied.restaged
    obtain ⟨more, others⟩ := ih plainRest (one.directories.leads_iff.mpr leadsSource)
      (one.directories.leads_iff.mpr leadsHome) later
    refine ⟨one.append more, List.forall_mem_cons.mpr ⟨?_, fun other member => ?_⟩⟩
    · exact ⟨⟨executable, content, stands⟩, copied.free, fitsOrigin, fitsTarget⟩
    · exact (one.stageable_iff apart).mp (others other member)

/-! ## Preparation again -/

/-- Nothing is made where a directory stands. -/
theorem ensureDirectory_of_leads (leads : store.Leads directory home) (fits : Fits directory name)
    (plain : Path.IsPlain name) : ensureDirectory directory store = .ok () store := by
  cases empty : directory.isEmpty with
  | true =>
    have nowhere : store.hasNode directory = false := by
      simp only [hasNode, find, locate, empty, if_true]
      rfl
    have nothing : store.makeDirectories directory = (store, none) := by
      rw [makeDirectories, empty, if_pos rfl]
    simp only [ensureDirectory, nowhere, nothing, Bool.false_eq_true, if_false]
  | false =>
    have short : directory.utf8ByteSize < tooLongPath := by
      have long := fits.path
      rw [Path.join, plain.not_isAbsolute, if_neg Bool.false_ne_true] at long
      split at long <;> simp only [String.utf8ByteSize_append] at long <;> omega
    have there : store.hasNode directory = true := by
      have led := locate_eq_ok_iff.mpr ⟨empty, fits.clean, short, leads⟩
      simp only [hasNode, find, led]
      rfl
    simp only [ensureDirectory, there, if_true]

namespace Pipeline

variable {config : Config} {generator queries : Location} {comes : String → Prop}

/-- A store in which the output directory can be prepared. -/
structure Restageable (config : Config) (generator queries home : Location) (store : Store) :
    Prop where
  found : store.find config.generator.dir = .ok (generator, .directory)
  leadsQueries : store.Leads (Path.join config.generator.dir config.generator.queryDir) queries
  leadsHome : store.Leads config.output.dir home
  resources : ∀ name ∈ config.generator.resources,
    store.Stageable config.generator.dir config.output.dir generator home name
  templates : ∀ name ∈ Artifact.templateNames,
    store.Stageable (Path.join config.generator.dir config.generator.queryDir) config.output.dir
      queries home name

theorem restageable_of_prepare (plain : ∀ name ∈ config.generator.resources, Path.IsPlain name)
    (done : prepare config store = .ok () after) :
    ∃ generator queries home, after.Leads config.generator.dir generator ∧
      after.Leads (Path.join config.generator.dir config.generator.queryDir) queries ∧
      after.Leads config.output.dir home ∧
      (home ≠ generator → home ≠ queries → Restageable config generator queries home after) := by
  obtain ⟨_, _, _, done⟩ := bind_eq_ok_iff.mp done
  obtain ⟨_, looked, inspected, done⟩ := bind_eq_ok_iff.mp done
  obtain ⟨_, middle, first, second⟩ := bind_eq_ok_iff.mp done
  obtain ⟨rfl, generator, found⟩ := found_of_inspected inspected
  have plainTemplates : ∀ name ∈ Artifact.templateNames, Path.IsPlain name :=
    fun _ => Artifact.isPlain_of_mem_templateNames
  have some : Artifact.templateNames ≠ [] := by decide
  obtain ⟨queries, home, leadsQueries, leadsHome⟩ := leads_of_copyFiles plainTemplates some second
  obtain ⟨same, _⟩ := sameDirectories_copyFiles plain first
  obtain ⟨sameNext, _⟩ := sameDirectories_copyFiles plainTemplates second
  have whole := same.trans sameNext
  have leads : looked.Leads config.generator.dir generator := leads_of_find found
  refine ⟨generator, queries, home, whole.leads_iff.mpr leads, sameNext.leads_iff.mpr leadsQueries,
    sameNext.leads_iff.mpr leadsHome, fun notGenerator notQueries => ?_⟩
  obtain ⟨one, resources⟩ := stageable_of_copyFiles plain leads (same.leads_iff.mp leadsHome)
    notGenerator first
  obtain ⟨two, templates⟩ := stageable_of_copyFiles plainTemplates leadsQueries leadsHome notQueries
    second
  constructor
  · exact find_of_directories whole.workingDirectory (fun place => (whole.directories place).mpr)
      ((whole.directories _).mpr leads.node?) found
  · exact sameNext.leads_iff.mpr leadsQueries
  · exact sameNext.leads_iff.mpr leadsHome
  · exact fun name member =>
      ((one.append two).stageable_iff notGenerator).mpr (resources name member)
  · exact fun name member => (two.stageable_iff notQueries).mpr (templates name member)

theorem Restageable.alters (restageable : Restageable config generator queries home store)
    (alters : Alters home comes store after) (notGenerator : ¬home <+: generator)
    (notQueries : ¬home <+: queries)
    (others : ∀ name ∈ config.generator.resources, ∀ artifact : Artifact, artifact.name ≠ name) :
    Restageable config generator queries home after where
  found := find_of_directories alters.workingDirectory alters.directories
    (alters.directories _ (node?_of_find restageable.found)) restageable.found
  leadsQueries := alters.leads restageable.leadsQueries
  leadsHome := alters.leads restageable.leadsHome
  resources name member := (restageable.resources name member).alters alters notGenerator
    fun milliseconds same => others name member (.runDirectory milliseconds) same.symm
  templates name member := by
    refine (restageable.templates name member).alters alters notQueries fun milliseconds same => ?_
    obtain ⟨number, _, template⟩ := Artifact.name_mem_templateNames.mp (same ▸ member)
    cases template

/-- Preparation that is possible succeeds, and changes nothing but what it stages. -/
theorem prepare_of_restageable (plain : ∀ name ∈ config.generator.resources, Path.IsPlain name)
    (restageable : Restageable config generator queries home store)
    (notGenerator : home ≠ generator) (notQueries : home ≠ queries) :
    ∃ after, prepare config store = .ok () after ∧
      Restaged home (config.generator.resources ++ Artifact.templateNames) store after := by
  have plainTemplates : ∀ name ∈ Artifact.templateNames, Path.IsPlain name :=
    fun _ => Artifact.isPlain_of_mem_templateNames
  have some : Artifact.templateName 1 ∈ Artifact.templateNames := by decide
  have ensured : ensureDirectory config.output.dir store = .ok () store :=
    ensureDirectory_of_leads restageable.leadsHome (restageable.templates _ some).fitsTarget
      (plainTemplates _ some)
  obtain ⟨middle, first, one⟩ := copyFiles_of_stageable plain (leads_of_find restageable.found)
    restageable.leadsHome notGenerator restageable.resources
  obtain ⟨after, second, two⟩ := copyFiles_of_stageable plainTemplates
    (one.directories.leads_iff.mpr restageable.leadsQueries)
    (one.directories.leads_iff.mpr restageable.leadsHome) notQueries
    fun name member => (one.stageable_iff notQueries).mpr (restageable.templates name member)
  refine ⟨after, ?_, one.append two⟩
  simp only [prepare, bind_eq, ensured, Files.inspect, isDirectory, restageable.found, if_true,
    first]
  exact second

end Pipeline

end PowerTest
