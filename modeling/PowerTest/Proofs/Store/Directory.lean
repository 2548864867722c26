import PowerTest.Proofs.Store.Operations
import PowerTest.Proofs.Text.Lines

/-!
# Files in a directory

The path of a name in a directory is followed as far as the directory and then one step more. Once
a path `Leads` to a directory, what can be done with the files in it depends only on what stands
there under their names, and the path keeps leading there whatever becomes of the files.
-/

namespace PowerTest

namespace Path

/-- A name that leads from a directory to something in it. -/
structure IsPlain (name : String) : Prop where
  nonempty : name ≠ ""
  single : '/' ∉ name.toList
  clean : '\x00' ∉ name.toList
  notHere : name ≠ "."
  notAbove : name ≠ ".."

variable {directory name : String}

theorem IsPlain.toList_ne_nil (plain : IsPlain name) : name.toList ≠ [] :=
  fun none => plain.nonempty (String.toList_eq_nil_iff.mp none)

theorem IsPlain.not_isAbsolute (plain : IsPlain name) : isAbsolute name = false := by
  rw [isAbsolute]
  refine beq_false_of_ne fun slash => plain.single ?_
  exact List.mem_of_head? slash

/-- What a relative path is from a directory is spelled by the two with at most a slash between
them. -/
theorem join_toList (relative : isAbsolute name = false) :
    (join directory name).toList =
      if directory.isEmpty || endsInSlash directory then directory.toList ++ name.toList
      else directory.toList ++ '/' :: name.toList := by
  rw [join, relative, if_neg Bool.false_ne_true]
  split
  · exact String.toList_append
  · simp only [String.toList_append, List.append_assoc]
    rfl

theorem isAbsolute_join (relative : isAbsolute name = false) :
    isAbsolute (join directory name) = isAbsolute directory := by
  rw [isAbsolute, join_toList relative]
  cases spelled : directory.toList with
  | nil =>
    have empty : directory.isEmpty = true := by
      rw [String.isEmpty_iff, ← String.toList_eq_nil_iff, spelled]
    rw [empty, Bool.true_or, if_pos rfl, List.nil_append, isAbsolute, spelled]
    exact relative
  | cons first rest =>
    rw [isAbsolute, spelled]
    split <;> rfl

theorem not_endsInSlash_join (plain : IsPlain name) :
    endsInSlash (join directory name) = false := by
  have last (front : List Char) : (front ++ name.toList).getLast? ≠ some '/' := by
    rw [List.getLast?_append, Option.or_of_isSome (List.getLast?_isSome.mpr plain.toList_ne_nil)]
    exact fun slash => plain.single (List.mem_of_getLast? slash)
  rw [endsInSlash, join_toList plain.not_isAbsolute]
  refine beq_false_of_ne ?_
  split
  · exact last _
  · exact List.append_cons .. ▸ last _

theorem join_ne_empty (plain : IsPlain name) : (join directory name).isEmpty = false := by
  refine Bool.eq_false_iff.mpr fun empty => ?_
  rw [String.isEmpty_iff, ← String.toList_eq_nil_iff, join_toList plain.not_isAbsolute] at empty
  split at empty
  · exact plain.toList_ne_nil (List.append_eq_nil_iff.mp empty).2
  · exact List.cons_ne_nil _ _ (List.append_eq_nil_iff.mp empty).2

theorem null_mem_join (plain : IsPlain name) :
    (join directory name).toList.contains '\x00' = directory.toList.contains '\x00' := by
  have clean := plain.clean
  rw [join_toList plain.not_isAbsolute]
  split <;> simp [clean]

theorem names_of_single (plain : IsPlain name) : names name = [name] := by
  rw [names, Text.cut_of_not_mem plain.single]
  simp [plain.nonempty]

/-- The names on the way along a relative path from a directory are those to the directory and
those of the path. -/
theorem names_join_of_relative (relative : isAbsolute name = false) :
    names (join directory name) = names directory ++ names name := by
  have pieces (before : List Char) :
      ((Text.cut (· == '/') (before ++ '/' :: name.toList)).filter (!·.isEmpty)).map String.ofList =
        ((Text.cut (· == '/') before).filter (!·.isEmpty)).map String.ofList ++ names name := by
    rw [Text.cut_append_mark, List.filter_append, List.map_append]
    rfl
  rw [names, join_toList relative]
  split
  · rename_i open_
    rcases Bool.or_eq_true_iff.mp open_ with empty | slash
    · have spelled : directory.toList = [] :=
        String.toList_eq_nil_iff.mpr (String.isEmpty_iff.mp empty)
      have nothing : names directory = [] := by
        rw [names, spelled]
        rfl
      rw [spelled, nothing, List.nil_append, List.nil_append]
      rfl
    · obtain ⟨before, spelled⟩ := List.getLast?_eq_some_iff.mp (beq_iff_eq.mp slash)
      have kept : names directory =
          ((Text.cut (· == '/') before).filter (!·.isEmpty)).map String.ofList := by
        rw [names, spelled, Text.cut_append_mark, List.filter_append, List.map_append]
        simp [Text.cut, Text.cutFrom]
      rw [kept, spelled, List.append_assoc, List.singleton_append]
      exact pieces before
  · exact pieces _

/-- The names on the way to a name in a directory are those to the directory and the name. -/
theorem names_join (plain : IsPlain name) :
    names (join directory name) = names directory ++ [name] := by
  rw [names_join_of_relative plain.not_isAbsolute, names_of_single plain]

end Path

/-- The location that a path leads to. -/
def Target.location : Target → Location
  | present location _ => location
  | absent location => location

/-- What stands at the location that a path leads to. -/
def Target.node? : Target → Option Node
  | present _ node => some node
  | absent _ => none

namespace Store

variable {store after : Store} {directory name : String} {home location : Location}

/-- Where a path starts. -/
def origin (store : Store) (path : String) : Location :=
  if Path.isAbsolute path then [] else store.workingDirectory

/-- A path that leads to a directory. -/
def Leads (store : Store) (path : String) (home : Location) : Prop :=
  store.walk (store.origin path) (Path.names path) = .ok (.present home .directory)

/-- A name whose path is no longer than paths and names can be. -/
structure Fits (directory name : String) : Prop where
  clean : directory.toList.contains '\x00' = false
  path : (Path.join directory name).utf8ByteSize < tooLongPath
  name : name.utf8ByteSize ≤ longestName

/-- One step from where a path leads. -/
def enter (store : Store) (name : String) : Except Fault Target → Except Fault Target
  | .error fault => .error fault
  | .ok (.absent _) => .error .notFound
  | .ok (.present _ (.file _ _)) => .error .notADirectory
  | .ok (.present location .directory) => store.walk location [name]

/-- Names that lead from a location to a target, one after another. -/
inductive Walks (store : Store) : Location → List String → Target → Prop
  | here {location : Location} {node : Node} (stands : store.node? location = some node) :
    Walks store location [] (.present location node)
  | stay {location : Location} {rest : List String} {target : Target}
    (inside : store.node? location = some .directory) (further : Walks store location rest target) :
    Walks store location ("." :: rest) target
  | up {location : Location} {rest : List String} {target : Target}
    (inside : store.node? location = some .directory)
    (further : Walks store location.dropLast rest target) :
    Walks store location (".." :: rest) target
  | down {location : Location} {name : String} {rest : List String} {target : Target}
    (inside : store.node? location = some .directory) (notHere : name ≠ ".") (notAbove : name ≠ "..")
    (short : name.utf8ByteSize ≤ longestName)
    (further : Walks store (location ++ [name]) rest target) :
    Walks store location (name :: rest) target
  /-- Only the last name may lead to nothing. -/
  | missing {location : Location} {name : String} (inside : store.node? location = some .directory)
    (notHere : name ≠ ".") (notAbove : name ≠ "..") (short : name.utf8ByteSize ≤ longestName)
    (nothing : store.node? (location ++ [name]) = none) :
    Walks store location [name] (.absent (location ++ [name]))

theorem walk_eq_ok_iff {names : List String} {target : Target} :
    store.walk location names = .ok target ↔ store.Walks location names target := by
  induction names generalizing location with
  | nil =>
    rw [walk]
    constructor
    · intro reached
      split at reached
      · rename_i node stands
        obtain rfl := Except.ok.inj reached
        exact .here stands
      · cases reached
    · rintro ⟨stands⟩
      rw [stands]
  | cons name rest ih =>
    simp only [walk]
    constructor
    · intro reached
      split at reached
      · cases reached
      · cases reached
      rename_i inside
      split at reached
      · rename_i here
        exact here ▸ .stay inside (ih.mp reached)
      rename_i notHere
      split at reached
      · rename_i above
        exact above ▸ .up inside (ih.mp reached)
      rename_i notAbove
      split at reached
      · cases reached
      rename_i short
      split at reached
      · rename_i nothing
        obtain rfl := Except.ok.inj reached
        exact .missing inside notHere notAbove (Nat.le_of_not_lt short) nothing
      · exact .down inside notHere notAbove (Nat.le_of_not_lt short) (ih.mp reached)
    · intro walks
      cases walks with
      | stay inside further =>
        simp only [inside, if_true]
        exact ih.mpr further
      | up inside further =>
        simp only [inside, if_neg (show ".." ≠ "." by decide), if_true]
        exact ih.mpr further
      | down inside notHere notAbove short further =>
        simp only [inside, if_neg notHere, if_neg notAbove, if_neg (Nat.not_lt.mpr short)]
        split
        · rename_i nothing
          cases further with
          | here stands => cases nothing.symm.trans stands
        · exact ih.mpr further
      | missing inside notHere notAbove short nothing =>
        simp only [inside, if_neg notHere, if_neg notAbove, if_neg (Nat.not_lt.mpr short), nothing]

theorem walk_concat (store : Store) (location : Location) (names : List String) (name : String) :
    store.walk location (names ++ [name]) = store.enter name (store.walk location names) := by
  induction names generalizing location with
  | nil =>
    simp only [List.nil_append, walk]
    split
    · rename_i missing
      simp only [missing, enter]
    · rename_i executable content found
      simp only [found, enter]
    · rename_i found
      simp only [found, enter, walk]
  | cons first rest ih =>
    simp only [List.cons_append, walk]
    split
    · rfl
    · rfl
    · split
      · exact ih location
      split
      · exact ih location.dropLast
      split
      · rfl
      -- Only the last step of a path may lead to nothing.
      · cases rest with
        | cons second others => exact ih _
        | nil =>
          simp only [List.nil_append]
          cases found : store.node? (location ++ [first]) with
          | none => simp only [walk, found, enter]
          | some node => exact ih _

/-- The path of a name in a directory leads one step further than the directory's. -/
theorem locate_join (plain : Path.IsPlain name) :
    store.locate (Path.join directory name) =
      if directory.toList.contains '\x00' then .error .nullInPath
      else if tooLongPath ≤ (Path.join directory name).utf8ByteSize then .error .nameTooLong
      else store.enter name (store.walk (store.origin directory) (Path.names directory)) := by
  rw [locate, Path.join_ne_empty plain, if_neg Bool.false_ne_true, Path.null_mem_join plain,
    Path.isAbsolute_join plain.not_isAbsolute, Path.names_join plain, walk_concat, origin]

theorem walk_single (isDirectory : store.node? home = some .directory) (notHere : name ≠ ".")
    (notAbove : name ≠ "..") (short : name.utf8ByteSize ≤ longestName) :
    store.walk home [name] =
      match store.node? (home ++ [name]) with
      | none => .ok (.absent (home ++ [name]))
      | some node => .ok (.present (home ++ [name]) node) := by
  simp only [walk, isDirectory, notHere, notAbove, if_false, Nat.not_lt.mpr short]
  cases store.node? (home ++ [name]) with
  | none => rfl
  | some node => rfl

theorem enter_leads (plain : Path.IsPlain name) (short : name.utf8ByteSize ≤ longestName)
    (isDirectory : store.node? home = some .directory) :
    store.enter name (.ok (.present home .directory)) =
      match store.node? (home ++ [name]) with
      | none => .ok (.absent (home ++ [name]))
      | some node => .ok (.present (home ++ [name]) node) :=
  walk_single isDirectory plain.notHere plain.notAbove short

/-- What a walk leads to is what stands at its end. -/
theorem Walks.node?_eq {names : List String} {target : Target}
    (walks : store.Walks location names target) : store.node? target.location = target.node? := by
  induction walks with
  | here stands => exact stands
  | stay _ _ ih => exact ih
  | up _ _ ih => exact ih
  | down _ _ _ _ _ ih => exact ih
  | missing _ _ _ _ nothing => exact nothing

/-- A path leads to what stands at its location. -/
theorem walk_eq_present {names : List String} {node : Node}
    (found : store.walk location names = .ok (.present home node)) :
    store.node? home = some node :=
  (walk_eq_ok_iff.mp found).node?_eq

theorem Leads.node? (leads : store.Leads directory home) : store.node? home = some .directory :=
  walk_eq_present leads

theorem Leads.unique {other : Location} (leads : store.Leads directory home)
    (again : store.Leads directory other) : home = other :=
  (Target.present.inj (Except.ok.inj (leads.symm.trans again))).1

theorem locate_of_leads (leads : store.Leads directory home) (plain : Path.IsPlain name)
    (fits : Fits directory name) :
    store.locate (Path.join directory name) =
      match store.node? (home ++ [name]) with
      | none => .ok (.absent (home ++ [name]))
      | some node => .ok (.present (home ++ [name]) node) := by
  rw [locate_join plain, fits.clean, if_neg Bool.false_ne_true, if_neg (Nat.not_le.mpr fits.path),
    show store.walk _ _ = _ from leads, enter_leads plain fits.name leads.node?]

/-- A path that does not lead into a directory, or is too long, leads nowhere. -/
theorem locate_of_not_leads (plain : Path.IsPlain name)
    (nowhere : ∀ home, store.Leads directory home → ¬Fits directory name) :
    ∃ fault, store.locate (Path.join directory name) = .error fault := by
  rw [locate_join plain]
  by_cases clean : directory.toList.contains '\x00' = true
  · exact ⟨_, if_pos clean⟩
  by_cases path : tooLongPath ≤ (Path.join directory name).utf8ByteSize
  · exact ⟨_, by rw [if_neg clean, if_pos path]⟩
  rw [if_neg clean, if_neg path]
  cases reached : store.walk (store.origin directory) (Path.names directory) with
  | error fault => exact ⟨fault, rfl⟩
  | ok target =>
    cases target with
    | absent location => exact ⟨_, rfl⟩
    | present location node =>
      cases node with
      | file executable content => exact ⟨_, rfl⟩
      | directory =>
        have long : longestName < name.utf8ByteSize := by
          refine Nat.lt_of_not_le fun short => nowhere location reached ?_
          exact ⟨Bool.not_eq_true _ ▸ clean, Nat.lt_of_not_le path, short⟩
        refine ⟨.nameTooLong, ?_⟩
        simp only [enter, walk, walk_eq_present reached, plain.notHere, plain.notAbove, if_false,
          long, if_true]

/-- What a name in a directory leads to depends on the directory and on what stands there. -/
theorem locate_join_congr (plain : Path.IsPlain name) (leads : store.Leads directory home)
    (leadsAfter : after.Leads directory home)
    (same : after.node? (home ++ [name]) = store.node? (home ++ [name])) :
    after.locate (Path.join directory name) = store.locate (Path.join directory name) := by
  rw [locate_join plain, locate_join plain, show store.walk _ _ = _ from leads,
    show after.walk _ _ = _ from leadsAfter]
  simp only [enter, walk, leads.node?, leadsAfter.node?, same, plain.notHere, plain.notAbove,
    if_false]

/-- A name leads somewhere only from a directory that its path leads to. -/
theorem leads_of_locate_join {reached : Target} (plain : Path.IsPlain name)
    (led : store.locate (Path.join directory name) = .ok reached) :
    ∃ home, store.Leads directory home ∧ Fits directory name := by
  refine Classical.byContradiction fun nowhere => ?_
  obtain ⟨fault, lost⟩ := locate_of_not_leads plain
    fun home leads fits => nowhere ⟨home, leads, fits⟩
  cases lost.symm.trans led

/-- A name that leads somewhere leads to its place in the directory. -/
theorem place_of_locate_join {reached : Target} (plain : Path.IsPlain name)
    (led : store.locate (Path.join directory name) = .ok reached) :
    ∃ home, store.Leads directory home ∧ Fits directory name ∧
      reached.location = home ++ [name] := by
  obtain ⟨home, leads, fits⟩ := leads_of_locate_join plain led
  refine ⟨home, leads, fits, ?_⟩
  rw [locate_of_leads leads plain fits] at led
  split at led
  · rw [← Except.ok.inj led, Target.location]
  · rw [← Except.ok.inj led, Target.location]

/-- A path leads where it led as long as the directories stay and something stands there. -/
theorem walk_of_target {names : List String} {target : Target} {node : Node}
    (stay : ∀ location, store.node? location = some .directory →
      after.node? location = some .directory)
    (stands : after.node? target.location = some node)
    (reached : store.walk location names = .ok target) :
    after.walk location names = .ok (.present target.location node) := by
  refine walk_eq_ok_iff.mpr ?_
  induction walk_eq_ok_iff.mp reached with
  | here => exact .here stands
  | stay inside further ih => exact .stay (stay _ inside) (ih stands (walk_eq_ok_iff.mpr further))
  | up inside further ih => exact .up (stay _ inside) (ih stands (walk_eq_ok_iff.mpr further))
  | down inside notHere notAbove short further ih =>
    exact .down (stay _ inside) notHere notAbove short (ih stands (walk_eq_ok_iff.mpr further))
  | missing inside notHere notAbove short =>
    exact .down (stay _ inside) notHere notAbove short (.here stands)

/-- A path keeps leading to a node as long as the directories and the node stay. -/
theorem walk_of_directories {names : List String} {node : Node}
    (stay : ∀ location, store.node? location = some .directory →
      after.node? location = some .directory)
    (stands : after.node? home = some node)
    (leads : store.walk location names = .ok (.present home node)) :
    after.walk location names = .ok (.present home node) := by
  have same : after.node? (Target.present home node).location = some node := stands
  exact walk_of_target stay same leads

/-- A path keeps leading to a directory as long as the directories stay. -/
theorem Leads.of_directories (leads : store.Leads directory home)
    (same : after.workingDirectory = store.workingDirectory)
    (stay : ∀ location, store.node? location = some .directory →
      after.node? location = some .directory) : after.Leads directory home := by
  rw [Leads, origin, same]
  exact walk_of_directories stay (stay _ leads.node?) leads

/-- A path is followed by its names if it can be a path at all. -/
theorem locate_eq_ok_iff {path : String} {target : Target} :
    store.locate path = .ok target ↔
      path.isEmpty = false ∧ path.toList.contains '\x00' = false ∧
        path.utf8ByteSize < tooLongPath ∧
        store.walk (store.origin path) (Path.names path) = .ok target := by
  rw [locate, ← origin]
  cases path.isEmpty with
  | true => simp only [if_true, reduceCtorEq, false_and]
  | false =>
    cases path.toList.contains '\x00' with
    | true => simp only [Bool.false_eq_true, if_false, if_true, reduceCtorEq, false_and, and_false]
    | false =>
      by_cases long : tooLongPath ≤ path.utf8ByteSize
      · simp only [Bool.false_eq_true, if_false, if_pos long, reduceCtorEq, Nat.not_lt.mpr long,
          false_and, and_false]
      · simp only [Bool.false_eq_true, if_false, if_neg long, Nat.lt_of_not_le long, true_and]

/-- A path leads to what stands there. -/
theorem node?_of_locate {path : String} {target : Target}
    (reached : store.locate path = .ok target) : store.node? target.location = target.node? :=
  (walk_eq_ok_iff.mp (locate_eq_ok_iff.mp reached).2.2.2).node?_eq

theorem locate_of_find {path : String} {node : Node}
    (found : store.find path = .ok (location, node)) :
    store.locate path = .ok (.present location node) := by
  rw [find] at found
  split at found
  · cases found
  · cases found
  · rename_i place other led
    cases other with
    | directory =>
      obtain ⟨rfl, rfl⟩ := Prod.mk.inj (Except.ok.inj found)
      exact led
    | file executable content =>
      simp only at found
      split at found
      · cases found
      · obtain ⟨rfl, rfl⟩ := Prod.mk.inj (Except.ok.inj found)
        exact led

theorem node?_of_find {path : String} {node : Node}
    (found : store.find path = .ok (location, node)) : store.node? location = some node :=
  node?_of_locate (locate_of_find found)

theorem leads_of_find (found : store.find directory = .ok (home, .directory)) :
    store.Leads directory home :=
  (locate_eq_ok_iff.mp (locate_of_find found)).2.2.2

/-- What is found under a name stands in its place in the directory. -/
theorem place_of_find_join {node : Node} (plain : Path.IsPlain name)
    (found : store.find (Path.join directory name) = .ok (location, node)) :
    ∃ home, store.Leads directory home ∧ Fits directory name ∧ location = home ++ [name] :=
  place_of_locate_join plain (locate_of_find found)

/-- What is found in a directory has a name that fits. -/
theorem fits_of_find {node : Node} (plain : Path.IsPlain name)
    (found : store.find (Path.join directory name) = .ok (location, node)) :
    Fits directory name := by
  obtain ⟨_, _, fits, _⟩ := place_of_find_join plain found
  exact fits

/-- What is found under a path is found there as long as the directories and the node stay. -/
theorem find_of_directories {path : String} {node : Node}
    (same : after.workingDirectory = store.workingDirectory)
    (stay : ∀ location, store.node? location = some .directory →
      after.node? location = some .directory)
    (stands : after.node? location = some node)
    (found : store.find path = .ok (location, node)) : after.find path = .ok (location, node) := by
  have reached := locate_of_find found
  obtain ⟨some, clean, short, led⟩ := locate_eq_ok_iff.mp reached
  have again : after.locate path = .ok (.present location node) := by
    refine locate_eq_ok_iff.mpr ⟨some, clean, short, ?_⟩
    rw [origin, same]
    exact walk_of_directories stay stands led
  rw [find, reached] at found
  rw [find, again]
  exact found

/-! ## Operations on files in a directory -/

theorem concat_inj {home : Location} {first second : String} :
    home ++ [first] = home ++ [second] ↔ first = second := by
  rw [List.append_cancel_left_eq, List.cons.injEq, and_iff_left rfl]

theorem concat_ne_nil (home : Location) (name : String) : home ++ [name] ≠ [] :=
  List.append_ne_nil_of_right_ne_nil _ (List.cons_ne_nil _ _)

@[simp] theorem node?_put_concat (store : Store) (home location : Location) (name : String)
    (node : Node) :
    (store.put (home ++ [name]) node).node? location =
      if location = home ++ [name] then some node else store.node? location :=
  node?_put _ _ _ _ (concat_ne_nil home name)

@[simp] theorem node?_erase_concat (store : Store) (home location : Location) (name : String) :
    (store.erase (home ++ [name])).node? location =
      if location = home ++ [name] then none else store.node? location :=
  node?_erase _ _ _ (concat_ne_nil home name)

theorem Leads.put (leads : store.Leads directory home) (location : Location) {name : String}
    {node : Node} (free : node = .directory ∨ store.node? (location ++ [name]) ≠ some .directory) :
    (store.put (location ++ [name]) node).Leads directory home := by
  refine leads.of_directories rfl fun other stands => ?_
  rw [node?_put_concat]
  split
  · rename_i same
    rcases free with rfl | free
    · rfl
    · exact absurd (same ▸ stands) free
  · exact stands

theorem Leads.erase (leads : store.Leads directory home) (location : Location) {name : String}
    (free : store.node? (location ++ [name]) ≠ some .directory) :
    (store.erase (location ++ [name])).Leads directory home := by
  refine leads.of_directories rfl fun other stands => ?_
  rw [node?_erase_concat, if_neg fun same : other = location ++ [name] => free (same ▸ stands)]
  exact stands

/-- The mark and the content that writing a file starts from, if it can be written. -/
def opened (store : Store) (location : Location) : Option (Bool × Bytes) :=
  match store.node? location with
  | none => some (false, [])
  | some .directory => none
  | some (.file executable content) => some (executable, content)

/-- Of two nodes put at a location the second stays. -/
theorem put_put (store : Store) (location : Location) (first second : Node) :
    (store.put location first).put location second = store.put location second := by
  simp [put, List.filter_filter]

theorem opened_ne_directory {mark : Bool} {content : Bytes}
    (free : store.opened location = some (mark, content)) :
    store.node? location ≠ some .directory := by
  intro stands
  simp only [opened, stands, reduceCtorEq] at free

section Operations

variable (leads : store.Leads directory home) (plain : Path.IsPlain name)
  (fits : Fits directory name)

include leads plain fits

theorem find_join :
    store.find (Path.join directory name) =
      match store.node? (home ++ [name]) with
      | none => .error .notFound
      | some node => .ok (home ++ [name], node) := by
  rw [find, locate_of_leads leads plain fits]
  cases store.node? (home ++ [name]) with
  | none => rfl
  | some node =>
    cases node with
    | directory => rfl
    | file executable content =>
      simp only [Path.not_endsInSlash_join plain, Bool.false_eq_true, if_false]

theorem read_join :
    store.read (Path.join directory name) =
      match store.node? (home ++ [name]) with
      | none => .error .notFound
      | some .directory => .error .isADirectory
      | some (.file _ content) => .ok content := by
  rw [read, find_join leads plain fits]
  cases store.node? (home ++ [name]) with
  | none => rfl
  | some node => cases node <;> rfl

/-- A file can be written where there is a file or nothing. -/
theorem destination_join :
    store.destination (Path.join directory name) =
      match store.opened (home ++ [name]) with
      | none => .error .isADirectory
      | some (mark, content) => .ok (home ++ [name], mark, content) := by
  rw [destination, locate_of_leads leads plain fits, opened]
  cases store.node? (home ++ [name]) with
  | none => simp only [Path.not_endsInSlash_join plain, Bool.false_eq_true, if_false]
  | some node =>
    cases node with
    | directory => rfl
    | file executable content =>
      simp only [Path.not_endsInSlash_join plain, Bool.false_eq_true, if_false]

theorem write_join (bytes : Bytes) :
    store.write (Path.join directory name) bytes =
      match store.opened (home ++ [name]) with
      | none => .error .isADirectory
      | some (mark, _) => .ok (store.put (home ++ [name]) (.file mark bytes)) := by
  rw [write, destination_join leads plain fits]
  cases store.opened (home ++ [name]) with
  | none => rfl
  | some file => rfl

theorem remove_join :
    store.remove (Path.join directory name) =
      match store.node? (home ++ [name]) with
      | none => .error .notFound
      | some .directory => .error .isADirectory
      | some (.file _ _) => .ok (store.erase (home ++ [name])) := by
  rw [remove, find_join leads plain fits]
  cases store.node? (home ++ [name]) with
  | none => rfl
  | some node => cases node <;> rfl

/-- Copying a file into a directory puts it there with its mark. -/
theorem copy_join {source : String} {executable mark : Bool} {content old : Bytes}
    (found : store.find source = .ok (location, .file executable content))
    (apart : home ++ [name] ≠ location)
    (free : store.opened (home ++ [name]) = some (mark, old)) :
    store.copy source (Path.join directory name) =
      .ok (store.put (home ++ [name]) (.file executable content)) := by
  simp only [copy, found, destination_join leads plain fits, free, if_neg apart]

theorem makeDirectory_join (missing : store.node? (home ++ [name]) = none) :
    store.makeDirectory (Path.join directory name) =
      .ok (store.put (home ++ [name]) .directory) := by
  rw [makeDirectory, locate_of_leads leads plain fits, missing]

end Operations

theorem find_of_not_leads (plain : Path.IsPlain name)
    (nowhere : ∀ home, store.Leads directory home → ¬Fits directory name) :
    ∃ fault, store.find (Path.join directory name) = .error fault := by
  obtain ⟨fault, lost⟩ := locate_of_not_leads plain nowhere
  exact ⟨fault, by rw [find, lost]⟩

end Store

end PowerTest
