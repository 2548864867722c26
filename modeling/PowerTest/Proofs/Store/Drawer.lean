import PowerTest.Proofs.Conversion.Effect
import PowerTest.Proofs.Names
import PowerTest.Proofs.Store.Growth

/-!
# The contents of a directory

A drawer says what a directory holds: the content of each artifact, and what stands under other
names. Operations on files of the directory change the drawer at one name, and nothing outside.
-/

namespace PowerTest

open Steps Store

/-- What a directory holds. -/
structure Drawer where
  artifacts : Artifact → Option Bytes
  /-- The mark and the content of the file under another name. -/
  others : String → Option (Bool × Bytes)

/-- A file with a content, or nothing. -/
def Holds (node : Option Node) : Option Bytes → Prop
  | none => node = none
  | some content => ∃ executable, node = some (.file executable content)

namespace Drawer

/-- A drawer with nothing in it. -/
def empty : Drawer := ⟨fun _ => none, fun _ => none⟩

/-- A drawer with a file under a name. -/
def place (drawer : Drawer) (name : String) (executable : Bool) (content : Bytes) : Drawer where
  artifacts artifact := if artifact.name = name then some content else drawer.artifacts artifact
  others other := if other = name then some (executable, content) else drawer.others other

/-- A drawer with nothing under a name. -/
def remove (drawer : Drawer) (name : String) : Drawer where
  artifacts artifact := if artifact.name = name then none else drawer.artifacts artifact
  others other := if other = name then none else drawer.others other

/-- A drawer with other contents of artifacts. -/
def update (drawer : Drawer) (contents : Artifact → Option Bytes) : Drawer where
  artifacts artifact := (contents artifact).or (drawer.artifacts artifact)
  others := drawer.others

/-- A store in which a directory that was empty holds what a drawer says. -/
structure Fills (drawer : Drawer) (home : Location) (base store : Store) : Prop where
  workingDirectory : store.workingDirectory = base.workingDirectory
  artifacts : ∀ artifact : Artifact,
    Holds (store.node? (home ++ [artifact.name])) (drawer.artifacts artifact)
  others : ∀ name, (∀ artifact : Artifact, artifact.name ≠ name) →
    store.node? (home ++ [name]) = (drawer.others name).map fun file => .file file.1 file.2
  flat : ∀ name next rest, store.node? (home ++ name :: next :: rest) = none
  outside : ∀ location, (∀ name rest, location ≠ home ++ name :: rest) →
    store.node? location = base.node? location

variable {drawer other : Drawer} {directory name : String} {home location : Location}
  {base store after : Store} {artifact : Artifact} {executable mark : Bool} {content old : Bytes}

theorem ne_deep (home : Location) (name next other : String) (rest : List String) :
    home ++ name :: next :: rest ≠ home ++ [other] := by
  intro same
  have short := congrArg List.length same
  simp only [List.length_append, List.length_cons, List.length_nil] at short
  omega

/-- A change of one name changes the drawer at that name. -/
theorem Fills.change (fills : drawer.Fills home base store)
    (workingDirectory : after.workingDirectory = store.workingDirectory)
    (frame : ∀ location, location ≠ home ++ [name] → after.node? location = store.node? location)
    (here : ∀ artifact : Artifact, artifact.name = name →
      Holds (after.node? (home ++ [name])) (other.artifacts artifact))
    (elsewhere : ∀ artifact : Artifact, artifact.name ≠ name →
      other.artifacts artifact = drawer.artifacts artifact)
    (hereOther : (∀ artifact : Artifact, artifact.name ≠ name) →
      after.node? (home ++ [name]) = (other.others name).map fun file => .file file.1 file.2)
    (elsewhereOther : ∀ another, another ≠ name → other.others another = drawer.others another) :
    other.Fills home base after := by
  refine ⟨workingDirectory.trans fills.workingDirectory, ?_, ?_, ?_, ?_⟩
  · intro artifact
    by_cases same : artifact.name = name
    · rw [same]
      exact here artifact same
    · rw [frame _ (mt concat_inj.mp same), elsewhere artifact same]
      exact fills.artifacts artifact
  · intro another none
    by_cases same : another = name
    · subst same
      exact hereOther none
    · rw [frame _ (mt concat_inj.mp same), elsewhereOther another same]
      exact fills.others another none
  · intro first next rest
    rw [frame _ (ne_deep home first next name rest)]
    exact fills.flat first next rest
  · intro location out
    rw [frame location (out name [])]
    exact fills.outside location out

theorem Fills.place (fills : drawer.Fills home base store) (name : String) (executable : Bool)
    (content : Bytes) :
    (drawer.place name executable content).Fills home base
      (store.put (home ++ [name]) (.file executable content)) := by
  refine fills.change rfl (fun location different => ?_) (fun artifact same => ?_)
    (fun artifact different => if_neg different) (fun _ => ?_)
    (fun another different => if_neg different)
  · rw [node?_put_concat, if_neg different]
  · simp only [node?_put_concat, if_true, Drawer.place, if_pos same]
    exact ⟨executable, rfl⟩
  · simp only [node?_put_concat, if_true, Drawer.place, Option.map_some]

theorem Fills.remove (fills : drawer.Fills home base store) (name : String) :
    (drawer.remove name).Fills home base (store.erase (home ++ [name])) := by
  refine fills.change rfl (fun location different => ?_) (fun artifact same => ?_)
    (fun artifact different => if_neg different) (fun _ => ?_)
    (fun another different => if_neg different)
  · rw [node?_erase_concat, if_neg different]
  · simp only [node?_erase_concat, if_true, Drawer.remove, if_pos same]
    rfl
  · simp only [node?_erase_concat, if_true, Drawer.remove, Option.map_none]

theorem Fills.opened_artifact (fills : drawer.Fills home base store) (artifact : Artifact) :
    ∃ mark, store.opened (home ++ [artifact.name]) =
      some (mark, (drawer.artifacts artifact).getD []) := by
  have held := fills.artifacts artifact
  rw [Store.opened]
  cases written : drawer.artifacts artifact with
  | none =>
    rw [written] at held
    rw [show store.node? _ = none from held]
    exact ⟨_, rfl⟩
  | some content =>
    rw [written] at held
    obtain ⟨executable, stands⟩ := held
    rw [stands]
    exact ⟨_, rfl⟩

/-- A directory holds files and nothing else. -/
theorem Fills.opened (fills : drawer.Fills home base store) (name : String) :
    ∃ mark old, store.opened (home ++ [name]) = some (mark, old) := by
  by_cases named : ∃ artifact : Artifact, artifact.name = name
  · obtain ⟨artifact, rfl⟩ := named
    obtain ⟨mark, free⟩ := fills.opened_artifact artifact
    exact ⟨mark, _, free⟩
  · rw [Store.opened, fills.others name fun artifact same => named ⟨artifact, same⟩]
    cases drawer.others name with
    | none => exact ⟨_, _, rfl⟩
    | some file => exact ⟨_, _, rfl⟩

theorem Fills.node?_artifact (fills : drawer.Fills home base store)
    (content : drawer.artifacts artifact = some old) :
    ∃ executable, store.node? (home ++ [artifact.name]) = some (.file executable old) := by
  have held := fills.artifacts artifact
  rw [content] at held
  exact held

/-- A name under which a drawer has a file. -/
structure Has (drawer : Drawer) (name : String) : Prop where
  artifact : ∀ artifact : Artifact, artifact.name = name → (drawer.artifacts artifact).isSome
  other : (∀ artifact : Artifact, artifact.name ≠ name) → (drawer.others name).isSome

theorem Fills.node?_of_has (fills : drawer.Fills home base store) (has : drawer.Has name) :
    ∃ executable content,
      store.node? (home ++ [name]) = some (.file executable content) := by
  by_cases artifact : ∃ artifact : Artifact, artifact.name = name
  · obtain ⟨artifact, rfl⟩ := artifact
    obtain ⟨content, present⟩ := Option.isSome_iff_exists.mp (has.artifact artifact rfl)
    obtain ⟨executable, stands⟩ := fills.node?_artifact present
    exact ⟨executable, content, stands⟩
  · have none (other : Artifact) : other.name ≠ name := fun same => artifact ⟨other, same⟩
    obtain ⟨file, present⟩ := Option.isSome_iff_exists.mp (has.other none)
    exact ⟨file.1, file.2, by rw [fills.others name none, present]; rfl⟩

theorem has_artifact (present : drawer.artifacts artifact = some content) :
    drawer.Has artifact.name where
  artifact other same := by rw [Artifact.name_inj.mp same, present]; rfl
  other none := absurd rfl (none artifact)

theorem Has.remove (has : drawer.Has name) {removed : String} (different : name ≠ removed) :
    (drawer.remove removed).Has name where
  artifact other same := by
    simp only [Drawer.remove, if_neg (same ▸ different)]
    exact has.artifact other same
  other none := by
    simp only [Drawer.remove, if_neg different]
    exact has.other none

end Drawer

/-- A path to an empty directory that is short enough for names in the directory. -/
structure EmptyDirectory (base : Store) (directory : String) (home : Location) : Prop where
  found : base.find directory = .ok (home, .directory)
  empty : ∀ name rest, base.node? (home ++ name :: rest) = none
  short : directory.utf8ByteSize + 256 < tooLongPath

variable {drawer : Drawer} {directory name origin path : String} {home location : Location}
  {base store : Store} {node : Node} {executable : Bool} {content script : Bytes}

namespace EmptyDirectory

theorem fits (room : EmptyDirectory base directory home) (plain : Path.IsPlain name)
    (short : name.utf8ByteSize ≤ longestName) : Fits directory name := by
  refine ⟨(locate_eq_ok_iff.mp (locate_of_find room.found)).2.1, ?_, short⟩
  have roomy := room.short
  rw [Path.join, plain.not_isAbsolute, if_neg Bool.false_ne_true]
  have slash : "/".utf8ByteSize = 1 := by decide
  split <;> simp only [String.utf8ByteSize_append, longestName] at short ⊢ <;> omega

theorem fits_artifact (room : EmptyDirectory base directory home) {artifact : Artifact}
    (small : artifact.number < 10 ^ 200) : Fits directory artifact.name :=
  room.fits artifact.isPlain_name (Artifact.size_name_le small)

theorem fills_empty (room : EmptyDirectory base directory home) :
    Drawer.empty.Fills home base base :=
  ⟨rfl, fun artifact => room.empty artifact.name [], fun name _ => room.empty name [],
    fun name next rest => room.empty name (next :: rest), fun _ _ => rfl⟩

variable (room : EmptyDirectory base directory home) (fills : drawer.Fills home base store)

include room

/-- What stood somewhere before did not stand in the directory. -/
theorem outside_of_node? (stands : base.node? location = some node) :
    ∀ name rest, location ≠ home ++ name :: rest := by
  rintro name rest rfl
  cases (room.empty name rest).symm.trans stands

include fills

/-- What was found before is found still. -/
theorem find_of_base (found : base.find path = .ok (location, node)) :
    store.find path = .ok (location, node) :=
  find_of_directories fills.workingDirectory
    (fun _ stands => (fills.outside _ (room.outside_of_node? stands)).trans stands)
    ((fills.outside _ (room.outside_of_node? (node?_of_find found))).trans (node?_of_find found))
    found

theorem leads : store.Leads directory home :=
  leads_of_find (room.find_of_base fills room.found)

theorem copyFile_fills (plain : Path.IsPlain name)
    (found : base.find (Path.join origin name) = .ok (location, .file executable content)) :
    ∃ after, copyFile origin directory name store = .ok () after ∧
      (drawer.place name executable content).Fills home base after := by
  have sees := room.find_of_base fills found
  have fit := room.fits plain (fits_of_find plain found).name
  have apart := Ne.symm (room.outside_of_node? (node?_of_find found) name [])
  obtain ⟨mark, old, free⟩ := fills.opened name
  refine ⟨_, ?_, fills.place name executable content⟩
  simp only [copyFile, isFile, sees, Files.change,
    copy_join (room.leads fills) plain fit sees apart free, if_true]

/-- A file that is there is removed. -/
theorem remove_fills (plain : Path.IsPlain name) (short : name.utf8ByteSize ≤ longestName)
    (has : drawer.Has name) :
    ∃ after, store.remove (Path.join directory name) = .ok after ∧
      (drawer.remove name).Fills home base after := by
  obtain ⟨executable, content, stands⟩ := fills.node?_of_has has
  refine ⟨_, ?_, fills.remove name⟩
  rw [remove_join (room.leads fills) plain (room.fits plain short), stands]

theorem write_fills (plain : Path.IsPlain name) (short : name.utf8ByteSize ≤ longestName)
    (content : Bytes) :
    ∃ mark after, store.write (Path.join directory name) content = .ok after ∧
      (drawer.place name mark content).Fills home base after := by
  obtain ⟨mark, old, free⟩ := fills.opened name
  refine ⟨mark, _, ?_, fills.place name mark content⟩
  rw [write_join (room.leads fills) plain (room.fits plain short), free]

/-- A conversion puts the script in place of the source. -/
theorem convert_fills {source destination : Artifact} {render : Record → List String}
    (mode : WriteMode) (different : source ≠ destination) (smallSource : source.number < 10 ^ 200)
    (smallDestination : destination.number < 10 ^ 200)
    (present : drawer.artifacts source = some content) (whole : Converts render content script) :
    ∃ mark count after,
      convert render (source.path directory) (destination.path directory) mode store =
          .ok count after ∧
        ((drawer.place destination.name mark
          (mode.base ((drawer.artifacts destination).getD []) ++ script)).remove
            source.name).Fills home base after := by
  obtain ⟨executable, stands⟩ := fills.node?_artifact present
  obtain ⟨mark, free⟩ := fills.opened_artifact destination
  obtain ⟨count, done⟩ := convert_completes (room.leads fills) source.isPlain_name
    destination.isPlain_name (room.fits_artifact smallSource) (room.fits_artifact smallDestination)
    (fun same => different (Artifact.eq_of_name_eq same)) stands free whole
  exact ⟨mark, count, _, done, (fills.place _ _ _).remove _⟩

end EmptyDirectory

end PowerTest
