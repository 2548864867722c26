import Mathlib.Logic.Function.Defs
import PowerTest.Config.Basic
import PowerTest.Proofs.Names
import PowerTest.Proofs.Store.Confinement

/-!
# Artifacts of one directory

The path of an artifact in a directory ends in the artifact's name (`getLast?_components_join`), so
the paths of different artifacts differ, however they are compared. A `Change` under a path concerns
what stands there only: `paths_separate` says that no run of writes, copies, removals and new
directories under the paths of some artifacts reaches another artifact or a default resource.
-/

namespace PowerTest

/-- The path of a name in a directory ends in the name. -/
theorem Path.getLast?_components_join {directory name : String} (plain : IsPlain name) :
    (components (join directory name)).getLast? = some name := by
  have kept : (name != ".") = true := bne_iff_ne.mpr plain.notHere
  rw [components, names_join plain]
  cases names directory with
  | nil =>
    have named : (name == ".") = false := beq_false_of_ne plain.notHere
    simp [named]
  | cons first rest =>
    have filtered : (rest ++ [name]).filter (· != ".") = rest.filter (· != ".") ++ [name] := by
      rw [List.filter_append, List.filter_cons, if_pos kept, List.filter_nil]
    simp only [List.cons_append, filtered]
    split
    · exact List.getLast?_concat
    · rw [← List.cons_append, List.getLast?_concat]

namespace Store

variable {store middle after : Store} {directory name other path : String} {home : Location}

/-- A change of what stands under a path: it is written or written on, a file is copied to it, it is
removed, or it is made as a directory. -/
inductive Change (path : String) (store after : Store) : Prop
  | write (content : Bytes) (done : store.write path content = .ok after)
  | append (more : Bytes) (done : store.append path more = .ok after)
  | copy (source : String) (done : store.copy source path = .ok after)
  | remove (done : store.remove path = .ok after)
  | makeDirectory (done : store.makeDirectory path = .ok after)

/-- A directory stays where it is, and so does everything in it but what has the given name. -/
def Spares (directory name : String) (store after : Store) : Prop :=
  ∃ home, store.Leads directory home ∧ after.Leads directory home ∧
    ∀ other, other ≠ name → after.node? (home ++ [other]) = store.node? (home ++ [other])

theorem spares_put {node : Node} (leads : store.Leads directory home)
    (free : node = .directory ∨ store.node? (home ++ [name]) ≠ some .directory) :
    Spares directory name store (store.put (home ++ [name]) node) := by
  refine ⟨home, leads, leads.put home free, fun other different => ?_⟩
  rw [node?_put_concat, if_neg fun same => different (concat_inj.mp same)]

theorem spares_erase (leads : store.Leads directory home)
    (free : store.node? (home ++ [name]) ≠ some .directory) :
    Spares directory name store (store.erase (home ++ [name])) := by
  refine ⟨home, leads, leads.erase home free, fun other different => ?_⟩
  rw [node?_erase_concat, if_neg fun same => different (concat_inj.mp same)]

theorem spares_of_destination {location : Location} {mark : Bool} {content : Bytes} {node : Node}
    (plain : Path.IsPlain name)
    (opens : store.destination (Path.join directory name) = .ok (location, mark, content)) :
    Spares directory name store (store.put location node) := by
  obtain ⟨home, leads, _, rfl, free⟩ := opened_of_destination plain opens
  exact spares_put leads (.inr free)

/-- A change under the path of a name in a directory concerns that name only. -/
theorem Change.spares (plain : Path.IsPlain name)
    (change : Change (Path.join directory name) store after) :
    Spares directory name store after := by
  cases change with
  | write content done =>
    obtain ⟨_, _, _, opens, rfl⟩ := write_eq_ok_iff.mp done
    exact spares_of_destination plain opens
  | append more done =>
    obtain ⟨_, _, _, opens, rfl⟩ := append_eq_ok_iff.mp done
    exact spares_of_destination plain opens
  | copy source done =>
    obtain ⟨_, _, _, _, _, _, _, opens, rfl⟩ := copy_eq_ok_iff.mp done
    exact spares_of_destination plain opens
  | remove done =>
    obtain ⟨_, _, _, found, rfl⟩ := remove_eq_ok_iff.mp done
    obtain ⟨home, leads, _, rfl⟩ := place_of_find_join plain found
    exact spares_erase leads (by simp [node?_of_find found])
  | makeDirectory done =>
    obtain ⟨home, leads, _, rfl, _⟩ := made_of_makeDirectory_join plain done
    exact spares_put leads (.inl rfl)

/-- A change under the path of one name leaves what the path of another name leads to. -/
theorem Change.locate_eq (plain : Path.IsPlain name) (plainOther : Path.IsPlain other)
    (different : other ≠ name) (change : Change (Path.join directory name) store after) :
    after.locate (Path.join directory other) = store.locate (Path.join directory other) := by
  obtain ⟨home, leads, leadsAfter, same⟩ := change.spares plain
  exact locate_join_congr plainOther leads leadsAfter (same other different)

end Store

namespace Artifact

open Text

variable {directory : String} {touched : Artifact → Prop} {before after : Store}

/-- The files that are copied into an output directory when nothing is said about it. -/
abbrev defaultResources : List String := Config.standard.generator.resources

/-- A run of changes under the paths of some artifacts in a directory. -/
inductive Changes (directory : String) (touched : Artifact → Prop) : Store → Store → Prop
  | none (store : Store) : Changes directory touched store store
  | change {store middle after : Store} (artifact : Artifact) (known : touched artifact)
    (first : Store.Change (artifact.path directory) store middle)
    (later : Changes directory touched middle after) : Changes directory touched store after

/-- What has another name than all artifacts that are changed stays what it is. -/
theorem Changes.locate_eq {name : String} (plain : Path.IsPlain name)
    (different : ∀ artifact, touched artifact → name ≠ artifact.name)
    (changes : Changes directory touched before after) :
    after.locate (Path.join directory name) = before.locate (Path.join directory name) := by
  induction changes with
  | none => rfl
  | change artifact known first _ ih =>
    exact ih.trans (first.locate_eq artifact.isPlain_name plain (different artifact known))

theorem isPlain_of_mem_defaultResources : ∀ name ∈ defaultResources, Path.IsPlain name := by
  intro name member
  have facts : ∀ name ∈ defaultResources, name ≠ "" ∧ '/' ∉ name.toList ∧ '\x00' ∉ name.toList ∧
      name ≠ "." ∧ name ≠ ".." := by decide +kernel
  obtain ⟨some, slash, null, notHere, notAbove⟩ := facts name member
  exact ⟨some, slash, null, notHere, notAbove⟩

/-- No artifact has the name of a default resource. -/
theorem name_ne_of_mem_defaultResources (artifact : Artifact) :
    ∀ name ∈ defaultResources, name ≠ artifact.name := by
  have apart : ∀ name ∈ defaultResources, ∀ kind ∈ kinds, letters name ≠ letters kind.name := by
    decide +kernel
  intro name member same
  refine apart name member _ artifact.unnumbered_mem_kinds ?_
  rw [same, letters_name]

/-- **No two artifacts of one directory share a path**, and none has the path of a default resource,
also where paths are compared by the names in them. So a run of changes under the paths of some
artifacts leaves every other artifact and every default resource what it is. -/
theorem paths_separate (directory : String) :
    Function.Injective (fun artifact : Artifact => Path.components (artifact.path directory)) ∧
    (∀ (artifact : Artifact), ∀ resource ∈ defaultResources,
      Path.components (artifact.path directory) ≠
        Path.components (Path.join directory resource)) ∧
    ∀ (touched : Artifact → Prop) (before after : Store), Changes directory touched before after →
      (∀ other, ¬ touched other →
        after.locate (other.path directory) = before.locate (other.path directory)) ∧
      ∀ resource ∈ defaultResources, after.locate (Path.join directory resource) =
        before.locate (Path.join directory resource) := by
  have ends (artifact : Artifact) :
      (Path.components (artifact.path directory)).getLast? = some artifact.name :=
    Path.getLast?_components_join artifact.isPlain_name
  refine ⟨fun first second same => ?_, fun artifact resource member same => ?_,
    fun touched before after changes => ⟨fun other untouched => ?_, fun resource member => ?_⟩⟩
  · refine eq_of_name_eq (Option.some.inj ?_)
    rw [← ends, ← ends]
    exact congrArg List.getLast? same
  · refine artifact.name_ne_of_mem_defaultResources resource member (Option.some.inj ?_)
    rw [← ends, same, Path.getLast?_components_join (isPlain_of_mem_defaultResources _ member)]
  · refine changes.locate_eq other.isPlain_name fun artifact known same => untouched ?_
    rwa [eq_of_name_eq same]
  · exact changes.locate_eq (isPlain_of_mem_defaultResources _ member)
      fun artifact _ => artifact.name_ne_of_mem_defaultResources _ member

/-- A directory with the refresh query and its first fragment. -/
def splitRefresh : Store where
  entries := [(["data"], .directory), (["data", "q15.sql"], .file false [59]),
    (["data", "q15.1.sql"], .file false [59])]
  workingDirectory := []

/-- The refresh query is removed, and its fragment stays. -/
theorem paths_separate_refresh :
    Path.components ((query 15).path "data") ≠ Path.components (Path.join "data" "dbgen") ∧
    Changes "data" (· = query 15) splitRefresh (splitRefresh.erase ["data", "q15.sql"]) ∧
    (splitRefresh.erase ["data", "q15.sql"]).locate ((fragment 1).path "data") =
      splitRefresh.locate ((fragment 1).path "data") := by
  have spelled : (query 15).path "data" = "data/q15.sql" := by decide +kernel
  have removed : splitRefresh.remove ((query 15).path "data") =
      .ok (splitRefresh.erase ["data", "q15.sql"]) := by
    rw [spelled]
    rfl
  have changes : Changes "data" (· = query 15) splitRefresh
      (splitRefresh.erase ["data", "q15.sql"]) :=
    .change (query 15) rfl (.remove removed) (.none _)
  obtain ⟨_, resources, unchanged⟩ := paths_separate "data"
  exact ⟨resources (query 15) "dbgen" (by decide), changes,
    (unchanged _ _ _ changes).1 (fragment 1) (by decide)⟩

end Artifact

end PowerTest
