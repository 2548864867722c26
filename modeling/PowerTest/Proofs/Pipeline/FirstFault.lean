import PowerTest.Proofs.Pipeline.Staging

/-!
# Where copying and removing stop

Files are copied and removed one after another, and each step sees what the steps before it have
changed. What stands in the way of a step can nevertheless be told from the store before the first
one: a file is copied unless it is missing or a directory has its name, and it is removed unless it
is a repeat or no file. Such a loop `LoopEnds` behind its last item or at the first one with an
obstacle, with the items before it done and nothing else changed. `staging_stopsAtFirstFault` says
so of both loops, for all names that are legal (`Fits`) in the directories.
-/

namespace PowerTest

/-! ## Loops that stop at an obstacle -/

namespace Steps

variable {ε σ α : Type} {obstacle : List α → α → ε → Prop} {reached : List α → σ → Prop}
  {item : α} {earlier items : List α} {state : σ}

/-- No item of a list has an obstacle, given the items before it. -/
def Unobstructed (obstacle : List α → α → ε → Prop) (items : List α) : Prop :=
  ∀ earlier item later failure, items = earlier ++ item :: later → ¬obstacle earlier item failure

/-- The ways in which a step for an item ends when the items before it are done: the item is done,
or it has an obstacle and nothing happens. -/
inductive StepEnds (obstacle : List α → α → ε → Prop) (reached : List α → σ → Prop)
    (earlier : List α) (item : α) (state : σ) : EStateM.Result ε σ Unit → Prop
  | done {after : σ} (clear : ∀ failure, ¬obstacle earlier item failure)
    (next : reached (earlier ++ [item]) after) :
    StepEnds obstacle reached earlier item state (.ok () after)
  | refused {failure : ε} (blocked : obstacle earlier item failure) :
    StepEnds obstacle reached earlier item state (.error failure state)

/-- The ways in which steps for the items of a list end: all items are done, or the first one that
has an obstacle stops them and exactly those before it are done. -/
inductive LoopEnds (obstacle : List α → α → ε → Prop) (reached : List α → σ → Prop)
    (items : List α) : EStateM.Result ε σ Unit → Prop
  | completed {state : σ} (clear : Unobstructed obstacle items) (whole : reached items state) :
    LoopEnds obstacle reached items (.ok () state)
  | stopped {earlier later : List α} {item : α} {failure : ε} {state : σ}
    (position : items = earlier ++ item :: later) (clear : Unobstructed obstacle earlier)
    (first : obstacle earlier item failure) (part : reached earlier state) :
    LoopEnds obstacle reached items (.error failure state)

theorem unobstructed_nil (obstacle : List α → α → ε → Prop) : Unobstructed obstacle [] := by
  intro earlier item later failure same
  cases earlier <;> cases same

theorem unobstructed_cons (clear : ∀ failure, ¬obstacle [] item failure)
    (rest : Unobstructed (fun front => obstacle (item :: front)) items) :
    Unobstructed obstacle (item :: items) := by
  intro earlier other later failure same
  cases earlier with
  | nil =>
    obtain ⟨rfl, _⟩ := List.cons.inj same
    exact clear failure
  | cons first front =>
    obtain ⟨rfl, others⟩ := List.cons.inj same
    exact rest front other later failure others

/-- Obstacles that do not depend on the items before can be looked for in any order. -/
theorem unobstructed_const_iff {obstacle : α → ε → Prop} :
    Unobstructed (fun _ => obstacle) items ↔ ∀ item ∈ items, ∀ failure, ¬obstacle item failure := by
  constructor
  · intro clear item member failure
    obtain ⟨earlier, later, same⟩ := List.append_of_mem member
    exact clear earlier item later failure same
  · rintro clear earlier item later failure rfl
    exact clear item (List.mem_append_right earlier List.mem_cons_self) failure

/-- A loop succeeds if and only if no item has an obstacle. -/
theorem LoopEnds.ok_iff {result : EStateM.Result ε σ Unit}
    (ends : LoopEnds obstacle reached items result) :
    (∃ state, result = .ok () state) ↔ Unobstructed obstacle items := by
  cases ends with
  | completed clear whole => exact iff_of_true ⟨_, rfl⟩ clear
  | stopped position clear first part =>
    refine iff_of_false (fun ⟨_, done⟩ => nomatch done) fun all => ?_
    exact all _ _ _ _ position first

/-- An item is done before the steps for the others end. -/
theorem LoopEnds.cons {result : EStateM.Result ε σ Unit}
    (clear : ∀ failure, ¬obstacle [] item failure)
    (rest : LoopEnds (fun front => obstacle (item :: front)) (fun front => reached (item :: front))
      items result) :
    LoopEnds obstacle reached (item :: items) result := by
  cases rest with
  | completed others whole => exact .completed (unobstructed_cons clear others) whole
  | stopped position others first part =>
    exact .stopped (congrArg (item :: ·) position) (unobstructed_cons clear others) first part

/-- The first of the items done may be left out of the account. -/
theorem StepEnds.tail {first : α} {result : EStateM.Result ε σ Unit}
    (ends : StepEnds obstacle reached (first :: earlier) item state result) :
    StepEnds (fun front => obstacle (first :: front)) (fun front => reached (first :: front))
      earlier item state result := by
  cases ends with
  | done clear next => exact .done clear next
  | refused blocked => exact .refused blocked

/-- A loop ends as its steps do. -/
theorem loopEnds_forM {step : α → EStateM ε σ Unit} (start : reached [] state)
    (each : ∀ earlier, ∀ item ∈ items, ∀ state, reached earlier state →
      StepEnds obstacle reached earlier item state (step item state)) :
    LoopEnds obstacle reached items (items.forM step state) := by
  -- Behind its first item the list is a loop of its own, whose account leaves that item out.
  induction items generalizing obstacle reached state with
  | nil => exact .completed (unobstructed_nil obstacle) start
  | cons item rest ih =>
    have first := each [] item List.mem_cons_self state start
    show LoopEnds _ _ _ ((step item >>= fun _ => rest.forM step) state)
    rw [bind_eq]
    generalize step item state = result at first ⊢
    cases first with
    | refused blocked =>
      have position : item :: rest = [] ++ item :: rest := (List.nil_append _).symm
      exact .stopped position (unobstructed_nil obstacle) blocked start
    | done clear next =>
      apply LoopEnds.cons clear
      apply ih next
      intro earlier other member state done
      exact (each (item :: earlier) other (List.mem_cons_of_mem item member) state done).tail

end Steps

open Steps

namespace Store

variable {store middle after : Store} {origin target directory name : String}
  {names more earlier : List String} {source home : Location} {executable : Bool} {content : Bytes}

/-- A regular file at a location. -/
def FileAt (store : Store) (location : Location) : Prop :=
  ∃ executable content, store.node? location = some (.file executable content)

theorem opened_eq_none_iff {location : Location} :
    store.opened location = none ↔ store.node? location = some .directory := by
  rw [opened]
  cases store.node? location with
  | none => simp only [reduceCtorEq]
  | some node => cases node <;> simp only [reduceCtorEq, Option.some.injEq]

/-! ## Changes of files in one directory -/

/-- Two stores that differ in files only, and in these only under names of a directory. -/
structure Restaged (home : Location) (names : List String) (store after : Store) : Prop where
  directories : SameDirectories store after
  kept : ∀ location, (∀ name ∈ names, location ≠ home ++ [name]) →
    after.node? location = store.node? location

theorem restaged_nil (home : Location) (store : Store) : Restaged home [] store store :=
  ⟨sameDirectories_refl store, fun _ _ => rfl⟩

theorem restaged_put (free : store.node? (home ++ [name]) ≠ some .directory) :
    Restaged home [name] store (store.put (home ++ [name]) (.file executable content)) := by
  refine ⟨sameDirectories_put free, fun location apart => ?_⟩
  rw [node?_put_concat, if_neg (apart name List.mem_cons_self)]

theorem restaged_erase (free : store.node? (home ++ [name]) ≠ some .directory) :
    Restaged home [name] store (store.erase (home ++ [name])) := by
  refine ⟨sameDirectories_erase free, fun location apart => ?_⟩
  rw [node?_erase_concat, if_neg (apart name List.mem_cons_self)]

theorem Restaged.append (first : Restaged home names store middle)
    (second : Restaged home more middle after) : Restaged home (names ++ more) store after := by
  refine ⟨first.directories.trans second.directories, fun location apart => ?_⟩
  obtain ⟨early, late⟩ := List.forall_mem_append.mp apart
  rw [second.kept location late, first.kept location early]

/-- Staging does not touch the files of another directory. -/
theorem Restaged.elsewhere (restaged : Restaged home names store after) (apart : home ≠ source)
    (name : String) : after.node? (source ++ [name]) = store.node? (source ++ [name]) :=
  restaged.kept _ fun _ _ here => apart (List.append_inj' here rfl).1.symm

/-- A store in which given things stand under names of a directory, with nothing else changed. -/
structure Refilled (home : Location) (contents : String → Option Node) (names : List String)
    (before after : Store) : Prop extends Restaged home names before after where
  stands : ∀ name ∈ names, after.node? (home ++ [name]) = contents name

theorem refilled_nil (home : Location) (contents : String → Option Node) (store : Store) :
    Refilled home contents [] store store :=
  ⟨restaged_nil home store, List.forall_mem_nil _⟩

/-- One more name is dealt with, maybe one that was dealt with before. -/
theorem Refilled.concat {contents : String → Option Node}
    (refilled : Refilled home contents earlier store middle)
    (change : Restaged home [name] middle after)
    (stands : after.node? (home ++ [name]) = contents name) :
    Refilled home contents (earlier ++ [name]) store after := by
  refine ⟨refilled.append change, fun other member => ?_⟩
  by_cases same : other = name
  · rw [same, stands]
  · have before : other ∈ earlier :=
      (List.mem_append.mp member).resolve_right (mt List.mem_singleton.mp same)
    have apart : ∀ last ∈ [name], home ++ [other] ≠ home ++ [last] :=
      List.forall_mem_singleton.mpr (mt concat_inj.mp same)
    rw [change.kept _ apart, refilled.stands other before]

/-! ## Copying -/

/-- What keeps a file from being copied between two directories, and the failure to copy it. -/
inductive CopyObstacle (store : Store) (origin target : String) (source home : Location)
    (name : String) : Failure → Prop
  | missing (absent : ¬store.FileAt (source ++ [name])) :
    CopyObstacle store origin target source home name (.sourceNotFound (Path.join origin name))
  | occupied (there : store.FileAt (source ++ [name]))
    (taken : store.node? (home ++ [name]) = some .directory) :
    CopyObstacle store origin target source home name
      (.destinationWrite (Path.join target name) .isADirectory)

theorem not_copyObstacle_iff :
    (∀ failure, ¬CopyObstacle store origin target source home name failure) ↔
      store.FileAt (source ++ [name]) ∧ store.node? (home ++ [name]) ≠ some .directory := by
  constructor
  · intro clear
    have there : store.FileAt (source ++ [name]) :=
      Classical.byContradiction fun absent => clear _ (.missing absent)
    exact ⟨there, fun taken => clear _ (.occupied there taken)⟩
  · rintro ⟨there, free⟩ failure obstacle
    cases obstacle with
    | missing absent => exact absent there
    | occupied _ taken => exact free taken

/-- Files that are in one directory what they were in another before, with nothing else changed. -/
abbrev Duplicated (source home : Location) (names : List String) (before after : Store) : Prop :=
  Refilled home (fun name => before.node? (source ++ [name])) names before after

/-! ## Removing -/

/-- What keeps a file from being removed behind others, and the failure to remove it. -/
inductive RemovalObstacle (store : Store) (directory : String) (home : Location)
    (earlier : List String) (name : String) : Failure → Prop
  | repeated (again : name ∈ earlier) :
    RemovalObstacle store directory home earlier name
      (.sourceNotFound (Path.join directory name))
  | missing (fresh : name ∉ earlier) (absent : store.node? (home ++ [name]) = none) :
    RemovalObstacle store directory home earlier name
      (.sourceNotFound (Path.join directory name))
  | directory (fresh : name ∉ earlier) (stands : store.node? (home ++ [name]) = some .directory) :
    RemovalObstacle store directory home earlier name
      (.inputOutput (Path.join directory name) .isADirectory)

theorem not_removalObstacle_iff :
    (∀ failure, ¬RemovalObstacle store directory home earlier name failure) ↔
      name ∉ earlier ∧ store.FileAt (home ++ [name]) := by
  constructor
  · intro clear
    have fresh : name ∉ earlier := fun again => clear _ (.repeated again)
    refine ⟨fresh, ?_⟩
    cases stands : store.node? (home ++ [name]) with
    | none => exact absurd (.missing fresh stands) (clear _)
    | some node =>
      cases node with
      | directory => exact absurd (.directory fresh stands) (clear _)
      | file executable content => exact ⟨executable, content, stands⟩
  · rintro ⟨fresh, executable, content, there⟩ failure obstacle
    cases obstacle with
    | repeated again => exact fresh again
    | missing _ absent => cases absent.symm.trans there
    | directory _ stands => cases stands.symm.trans there

/-- Files that are gone from a directory, with nothing else changed. -/
abbrev Cleared (home : Location) (names : List String) (before after : Store) : Prop :=
  Refilled home (fun _ => none) names before after

end Store

open Store

variable {store middle : Store} {origin target directory name : String}
  {names earlier : List String} {source home : Location}

/-! ## One step -/

/-- Copying a file between two directories depends on what stands under its name in each. -/
theorem copyFile_join (leadsSource : store.Leads origin source)
    (leadsHome : store.Leads target home) (apart : home ≠ source) (plain : Path.IsPlain name)
    (fitsOrigin : Fits origin name) (fitsTarget : Fits target name) :
    copyFile origin target name store =
      match store.node? (source ++ [name]), store.opened (home ++ [name]) with
      | some (.file executable content), some _ =>
        .ok () (store.put (home ++ [name]) (.file executable content))
      | some (.file _ _), none =>
        .error (.destinationWrite (Path.join target name) .isADirectory) store
      | _, _ => .error (.sourceNotFound (Path.join origin name)) store := by
  have other : home ++ [name] ≠ source ++ [name] := fun same =>
    apart (List.append_left_inj [name] |>.mp same)
  have found := find_join leadsSource plain fitsOrigin
  rw [copyFile, isFile, found]
  cases stands : store.node? (source ++ [name]) with
  | none => rfl
  | some node =>
    cases node with
    | directory => rfl
    | file executable content =>
      rw [stands] at found
      cases free : store.opened (home ++ [name]) with
      | none =>
        simp only [Files.change, copy, found, destination_join leadsHome plain fitsTarget, free,
          if_true]
      | some old =>
        simp only [Files.change, copy_join leadsHome plain fitsTarget found other free, if_true]

/-- Remove one file from a directory. -/
def removeFile (directory name : String) : Files Unit :=
  Files.change (.ofSource (Path.join directory name)) (·.remove (Path.join directory name))

/-- Removing a file from a directory depends on what stands under its name. -/
theorem removeFile_join (leads : store.Leads directory home) (plain : Path.IsPlain name)
    (fits : Fits directory name) :
    removeFile directory name store =
      match store.node? (home ++ [name]) with
      | none => .error (.sourceNotFound (Path.join directory name)) store
      | some .directory => .error (.inputOutput (Path.join directory name) .isADirectory) store
      | some (.file _ _) => .ok () (store.erase (home ++ [name])) := by
  rw [removeFile, Files.change, remove_join leads plain fits]
  cases store.node? (home ++ [name]) with
  | none => rfl
  | some node => cases node <;> rfl

/-- Copying a file behind others ends as the store before all of them foretells. -/
theorem stepEnds_copyFile (leadsSource : store.Leads origin source)
    (leadsHome : store.Leads target home) (apart : home ≠ source) (plain : Path.IsPlain name)
    (fitsOrigin : Fits origin name) (fitsTarget : Fits target name)
    (duplicated : Duplicated source home earlier store middle) :
    StepEnds (fun _ => CopyObstacle store origin target source home)
      (Duplicated source home · store) earlier name middle
      (copyFile origin target name middle) := by
  -- The copies made so far are in the other directory, and none of them is a directory.
  have sees := duplicated.elsewhere apart name
  have same := duplicated.directories
  have taken := same.directories (home ++ [name])
  rw [copyFile_join (same.leads_iff.mpr leadsSource) (same.leads_iff.mpr leadsHome) apart plain
    fitsOrigin fitsTarget, sees]
  cases stands : store.node? (source ++ [name]) with
  | none => exact .refused (.missing fun ⟨_, _, there⟩ => nomatch stands.symm.trans there)
  | some node =>
    cases node with
    | directory => exact .refused (.missing fun ⟨_, _, there⟩ => nomatch stands.symm.trans there)
    | file executable content =>
      have there : store.FileAt (source ++ [name]) := ⟨executable, content, stands⟩
      cases opens : middle.opened (home ++ [name]) with
      | none => exact .refused (.occupied there (taken.mp (opened_eq_none_iff.mp opens)))
      | some file =>
        have free : middle.node? (home ++ [name]) ≠ some .directory := opened_ne_directory opens
        refine .done (not_copyObstacle_iff.mpr ⟨there, mt taken.mpr free⟩)
          (duplicated.concat (restaged_put free) ?_)
        rw [node?_put_concat, if_pos rfl, stands]

/-- Removing a file behind others ends as the store before all of them foretells, unless the file
is one of them. -/
theorem stepEnds_removeFile (leads : store.Leads directory home) (plain : Path.IsPlain name)
    (fits : Fits directory name) (cleared : Cleared home earlier store middle) :
    StepEnds (RemovalObstacle store directory home) (Cleared home · store) earlier name middle
      (removeFile directory name middle) := by
  rw [removeFile_join (cleared.directories.leads_iff.mpr leads) plain fits]
  by_cases again : name ∈ earlier
  · rw [cleared.stands name again]
    exact .refused (.repeated again)
  have kept : middle.node? (home ++ [name]) = store.node? (home ++ [name]) :=
    cleared.kept _ fun other member here => again (concat_inj.mp here ▸ member)
  cases stands : middle.node? (home ++ [name]) with
  | none => exact .refused (.missing again (kept ▸ stands))
  | some node =>
    cases node with
    | directory => exact .refused (.directory again (kept ▸ stands))
    | file executable content =>
      have free : middle.node? (home ++ [name]) ≠ some .directory := by simp [stands]
      refine .done (not_removalObstacle_iff.mpr ⟨again, executable, content, kept ▸ stands⟩)
        (cleared.concat (restaged_erase free) ?_)
      rw [node?_erase_concat, if_pos rfl]

/-! ## The loops -/

theorem copyFiles_eq_forM (origin target : String) (names : List String) :
    copyFiles origin target names = names.forM (copyFile origin target) := by
  induction names with
  | nil => rfl
  | cons name rest ih =>
    rw [copyFiles, ih]
    rfl

theorem unobstructed_copy_iff :
    Unobstructed (fun _ => CopyObstacle store origin target source home) names ↔
      ∀ name ∈ names, store.FileAt (source ++ [name]) ∧
        store.node? (home ++ [name]) ≠ some .directory := by
  simp only [unobstructed_const_iff, not_copyObstacle_iff]

theorem loopEnds_copyFiles (leadsSource : store.Leads origin source)
    (leadsHome : store.Leads target home) (apart : home ≠ source)
    (plain : ∀ name ∈ names, Path.IsPlain name)
    (fits : ∀ name ∈ names, Fits origin name ∧ Fits target name) :
    LoopEnds (fun _ => CopyObstacle store origin target source home)
      (Duplicated source home · store) names (copyFiles origin target names store) := by
  rw [copyFiles_eq_forM]
  apply loopEnds_forM (refilled_nil home _ store)
  intro earlier name member middle done
  obtain ⟨fitsOrigin, fitsTarget⟩ := fits name member
  exact stepEnds_copyFile leadsSource leadsHome apart (plain name member) fitsOrigin fitsTarget done

theorem removeFiles_eq_forM (directory : String) (names : List String) :
    removeFiles directory names = names.forM (removeFile directory) := by
  induction names with
  | nil => rfl
  | cons name rest ih =>
    rw [removeFiles, ih]
    rfl

/-- Names are distinct if none is a repeat of one before it. -/
theorem nodup_iff_forall_split :
    names.Nodup ↔ ∀ earlier name later, names = earlier ++ name :: later → name ∉ earlier := by
  constructor
  · rintro distinct earlier name later rfl again
    exact (List.nodup_cons.mp (List.nodup_middle.mp distinct)).1 (List.mem_append_left later again)
  · intro fresh
    induction names with
    | nil => exact List.nodup_nil
    | cons first rest ih =>
      refine List.nodup_cons.mpr ⟨fun again => ?_, ih fun earlier name later split member => ?_⟩
      · obtain ⟨earlier, later, split⟩ := List.append_of_mem again
        exact fresh (first :: earlier) first later (congrArg (first :: ·) split)
          List.mem_cons_self
      · exact fresh (first :: earlier) name later (congrArg (first :: ·) split)
          (List.mem_cons_of_mem first member)

theorem unobstructed_removal_iff :
    Unobstructed (RemovalObstacle store directory home) names ↔
      names.Nodup ∧ ∀ name ∈ names, store.FileAt (home ++ [name]) := by
  constructor
  · intro clear
    have each (earlier : List String) (name : String) (later : List String)
        (split : names = earlier ++ name :: later) :
        name ∉ earlier ∧ store.FileAt (home ++ [name]) :=
      not_removalObstacle_iff.mp fun failure => clear earlier name later failure split
    refine ⟨nodup_iff_forall_split.mpr fun earlier name later split =>
      (each earlier name later split).1, fun name member => ?_⟩
    obtain ⟨earlier, later, split⟩ := List.append_of_mem member
    exact (each earlier name later split).2
  · rintro ⟨distinct, files⟩ earlier name later failure split
    have fresh := nodup_iff_forall_split.mp distinct earlier name later split
    exact not_removalObstacle_iff.mpr ⟨fresh, files name (by simp [split])⟩ failure

theorem loopEnds_removeFiles (leads : store.Leads directory home)
    (plain : ∀ name ∈ names, Path.IsPlain name) (fits : ∀ name ∈ names, Fits directory name) :
    LoopEnds (RemovalObstacle store directory home) (Cleared home · store) names
      (removeFiles directory names store) := by
  rw [removeFiles_eq_forM]
  apply loopEnds_forM (refilled_nil home _ store)
  intro earlier name member middle done
  exact stepEnds_removeFile leads (plain name member) (fits name member) done

/-- Copying between two directories stops at the first file that is missing or whose name a
directory has, and removing at the first that is a repeat or no file; the files before it are copied
or removed, and nothing else is changed. -/
theorem staging_stopsAtFirstFault (plain : ∀ name ∈ names, Path.IsPlain name) :
    (∀ origin target source home, store.Leads origin source → store.Leads target home →
      home ≠ source → (∀ name ∈ names, Fits origin name ∧ Fits target name) →
        ((∃ after, copyFiles origin target names store = .ok () after) ↔
          ∀ name ∈ names, store.FileAt (source ++ [name]) ∧
            store.node? (home ++ [name]) ≠ some .directory) ∧
        LoopEnds (fun _ => CopyObstacle store origin target source home)
          (Duplicated source home · store) names (copyFiles origin target names store)) ∧
    ∀ directory home, store.Leads directory home → (∀ name ∈ names, Fits directory name) →
      ((∃ after, removeFiles directory names store = .ok () after) ↔
        names.Nodup ∧ ∀ name ∈ names, store.FileAt (home ++ [name])) ∧
      LoopEnds (RemovalObstacle store directory home) (Cleared home · store) names
        (removeFiles directory names store) := by
  constructor
  · intro origin target source home leadsSource leadsHome apart fits
    have ends := loopEnds_copyFiles leadsSource leadsHome apart plain fits
    exact ⟨ends.ok_iff.trans unobstructed_copy_iff, ends⟩
  · intro directory home leads fits
    have ends := loopEnds_removeFiles leads plain fits
    exact ⟨ends.ok_iff.trans unobstructed_removal_iff, ends⟩

/-- A store with two directories that have files of the same names, and a directory among them. -/
def twoShelves : Store where
  entries := [(["w"], .directory), (["w", "gen"], .directory), (["w", "out"], .directory),
    (["w", "gen", "a"], .file true [97]), (["w", "gen", "b"], .file false [98]),
    (["w", "gen", "c"], .file false [99]), (["w", "out", "b"], .file false []),
    (["w", "out", "c"], .directory)]
  workingDirectory := ["w"]

theorem staging_stopsAtFirstFault_shelves :
    (∀ name ∈ ["b", "a", "b", "c"], Path.IsPlain name) ∧
      twoShelves.Leads "gen" ["w", "gen"] ∧ twoShelves.Leads "./out" ["w", "out"] ∧
      (∀ name ∈ ["b", "a", "b", "c"], Fits "gen" name ∧ Fits "./out" name) ∧
      LoopEnds (fun _ => CopyObstacle twoShelves "gen" "./out" ["w", "gen"] ["w", "out"])
        (Duplicated ["w", "gen"] ["w", "out"] · twoShelves) ["b", "a", "b", "c"]
        (copyFiles "gen" "./out" ["b", "a", "b", "c"] twoShelves) ∧
      LoopEnds (RemovalObstacle twoShelves "gen" ["w", "gen"])
        (Cleared ["w", "gen"] · twoShelves) ["b", "a", "b", "c"]
        (removeFiles "gen" ["b", "a", "b", "c"] twoShelves) := by
  have plain : ∀ name ∈ ["b", "a", "b", "c"], Path.IsPlain name := by
    simp only [List.forall_mem_cons]
    refine ⟨?_, ?_, ?_, ?_, List.forall_mem_nil _⟩ <;> constructor <;> decide
  have fits : ∀ name ∈ ["b", "a", "b", "c"], Fits "gen" name ∧ Fits "./out" name := by
    simp only [List.forall_mem_cons]
    refine ⟨⟨?_, ?_⟩, ⟨?_, ?_⟩, ⟨?_, ?_⟩, ⟨?_, ?_⟩, List.forall_mem_nil _⟩ <;>
      constructor <;> decide
  have source : twoShelves.Leads "gen" ["w", "gen"] := rfl
  have home : twoShelves.Leads "./out" ["w", "out"] := rfl
  obtain ⟨copying, removing⟩ := staging_stopsAtFirstFault plain
  exact ⟨plain, source, home, fits,
    (copying "gen" "./out" ["w", "gen"] ["w", "out"] source home (by decide) fits).2,
    (removing "gen" ["w", "gen"] source fun name member => (fits name member).1).2⟩

end PowerTest
