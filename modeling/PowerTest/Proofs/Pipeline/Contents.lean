import PowerTest.Pipeline.Run
import PowerTest.Proofs.Store.Drawer
import PowerTest.Proofs.Text.Utf8

/-!
# What stages do to the output directory

Each list of files that a stage goes through changes the drawer of the output directory in one
way: files are copied, converted, removed or written. One lemma for each says so, by induction on
the list.
-/

namespace PowerTest

open Steps Store

namespace Drawer

/-- A drawer with copies of files. -/
def copied (files : String → Bool × Bytes) (names : List String) (drawer : Drawer) : Drawer where
  artifacts artifact :=
    if artifact.name ∈ names then some (files artifact.name).2 else drawer.artifacts artifact
  others name := if name ∈ names then some (files name) else drawer.others name

/-- A drawer without some names. -/
def without (names : List String) (drawer : Drawer) : Drawer where
  artifacts artifact := if artifact.name ∈ names then none else drawer.artifacts artifact
  others name := if name ∈ names then none else drawer.others name

/-- The script that a text is converted to. -/
def script (render : Record → List String) (text : String) : Bytes :=
  scriptBytes (lineStatements render (Text.textLines text))

/-- A drawer in which the rows of tables have become load scripts. -/
def loaded (rows : Table → String) (tables : List Table) (drawer : Drawer) : Drawer where
  artifacts
    | .tableData table =>
      if table ∈ tables then none else drawer.artifacts (.tableData table)
    | .loadScript table =>
      if table ∈ tables then some (script (insertion table) (rows table))
      else drawer.artifacts (.loadScript table)
    | artifact => drawer.artifacts artifact
  others := drawer.others

/-- A drawer in which artifacts have become the content of another. -/
def converted (sources : List Artifact) (destination : Artifact) (content : Bytes)
    (drawer : Drawer) : Drawer where
  artifacts artifact :=
    if artifact ∈ sources then none
    else if artifact = destination then some content
    else drawer.artifacts artifact
  others := drawer.others

/-- A drawer in which the fragments of a text stand under numbers from `first`. -/
def fragmented (first : Nat) (texts : List String) (drawer : Drawer) : Drawer where
  artifacts
    | .fragment number =>
      if first ≤ number then
        (texts[number - first]?.map Text.encode).or (drawer.artifacts (.fragment number))
      else drawer.artifacts (.fragment number)
    | artifact => drawer.artifacts artifact
  others := drawer.others

/-- A drawer in which queries have taken the place of their templates. -/
def queried (texts : Nat → String) (numbers : List Nat) (drawer : Drawer) : Drawer where
  artifacts
    | .template number =>
      if number ∈ numbers then none else drawer.artifacts (.template number)
    | .query number =>
      if number ∈ numbers then some (Text.encode (texts number))
      else drawer.artifacts (.query number)
    | artifact => drawer.artifacts artifact
  others := drawer.others

variable {drawer other : Drawer} {home : Location} {base store : Store}

/-- Only what artifacts hold and what stands under other names matters. -/
theorem Fills.congr (fills : drawer.Fills home base store)
    (artifacts : ∀ artifact, other.artifacts artifact = drawer.artifacts artifact)
    (others : ∀ name, (∀ artifact : Artifact, artifact.name ≠ name) →
      other.others name = drawer.others name) : other.Fills home base store where
  workingDirectory := fills.workingDirectory
  artifacts artifact := artifacts artifact ▸ fills.artifacts artifact
  others name none := others name none ▸ fills.others name none
  flat := fills.flat
  outside := fills.outside

end Drawer

theorem converts_encode (render : Record → List String) (text : String) :
    Converts render (Text.encode text) (Drawer.script render text) :=
  ⟨Text.textLines text, Text.lines_encode text, rfl⟩

namespace EmptyDirectory

open Drawer

variable {drawer : Drawer} {directory origin : String} {home : Location} {base store : Store}
  (room : EmptyDirectory base directory home)

include room

/-- Files that were there before are copied. -/
theorem copyFiles_fills {files : String → Bool × Bytes} {names : List String}
    (fills : drawer.Fills home base store) (plain : ∀ name ∈ names, Path.IsPlain name)
    (found : ∀ name ∈ names, ∃ location, base.find (Path.join origin name) =
      .ok (location, .file (files name).1 (files name).2)) :
    ∃ after, copyFiles origin directory names store = .ok () after ∧
      (drawer.copied files names).Fills home base after := by
  induction names generalizing drawer store with
  | nil => exact ⟨store, rfl, fills.congr (fun _ => rfl) fun _ _ => rfl⟩
  | cons name rest ih =>
    obtain ⟨location, foundFirst⟩ := found name List.mem_cons_self
    obtain ⟨middle, copy, placed⟩ :=
      room.copyFile_fills fills (plain name List.mem_cons_self) foundFirst
    obtain ⟨after, copies, done⟩ := ih placed
      (fun other member => plain other (List.mem_cons_of_mem _ member))
      (fun other member => found other (List.mem_cons_of_mem _ member))
    refine ⟨after, by rw [copyFiles, bind_eq_of_ok copy]; exact copies, done.congr ?_ ?_⟩
    · intro artifact
      simp only [copied, place, List.mem_cons]
      split <;> split <;> simp_all
    · intro other _
      simp only [copied, place, List.mem_cons]
      split <;> split <;> simp_all

/-- Different files that are there are removed. -/
theorem removeFiles_fills {names : List String} (fills : drawer.Fills home base store)
    (plain : ∀ name ∈ names, Path.IsPlain name ∧ name.utf8ByteSize ≤ longestName)
    (different : names.Nodup) (has : ∀ name ∈ names, drawer.Has name) :
    ∃ after, removeFiles directory names store = .ok () after ∧
      (drawer.without names).Fills home base after := by
  induction names generalizing drawer store with
  | nil => exact ⟨store, rfl, fills.congr (fun _ => rfl) fun _ _ => rfl⟩
  | cons name rest ih =>
    obtain ⟨plainName, short⟩ := plain name List.mem_cons_self
    obtain ⟨fresh, others⟩ := List.nodup_cons.mp different
    obtain ⟨middle, removal, removed⟩ :=
      room.remove_fills fills plainName short (has name List.mem_cons_self)
    obtain ⟨after, removals, done⟩ := ih removed
      (fun other member => plain other (List.mem_cons_of_mem _ member)) others
      fun other member => (has other (List.mem_cons_of_mem _ member)).remove
        fun same => fresh (same ▸ member)
    refine ⟨after, ?_, done.congr (fun artifact => ?_) fun other _ => ?_⟩
    · simp only [removeFiles, bind_eq, Files.change, removal]
      exact removals
    · simp only [without, Drawer.remove, List.mem_cons]
      split <;> split <;> simp_all
    · simp only [without, Drawer.remove, List.mem_cons]
      split <;> split <;> simp_all

/-- The rows of different tables become load scripts. -/
theorem convertTables_fills {rows : Table → String} {tables : List Table}
    (fills : drawer.Fills home base store) (different : tables.Nodup)
    (present : ∀ table ∈ tables,
      drawer.artifacts (.tableData table) = some (Text.encode (rows table))) :
    ∃ after, Pipeline.convertTables directory tables store = .ok () after ∧
      (drawer.loaded rows tables).Fills
        home base after := by
  induction tables generalizing drawer store with
  | nil =>
    refine ⟨store, rfl, fills.congr (fun artifact => ?_) fun _ _ => rfl⟩
    cases artifact <;> simp [loaded]
  | cons table rest ih =>
    obtain ⟨fresh, others⟩ := List.nodup_cons.mp different
    obtain ⟨mark, count, middle, conversion, converted⟩ := room.convert_fills fills .overwrite
      (by simp : Artifact.tableData table ≠ .loadScript table) (by simp [Artifact.number])
      (by simp [Artifact.number])
      (present table List.mem_cons_self) (converts_encode (insertion table) (rows table))
    obtain ⟨after, conversions, done⟩ := ih converted others fun other member => by
      have apart : other ≠ table := fun same => fresh (same ▸ member)
      simp [place, Drawer.remove, apart, present other (List.mem_cons_of_mem _ member)]
    refine ⟨after, ?_, done.congr (fun artifact => ?_) fun name none => ?_⟩
    · rw [Pipeline.convertTables]
      exact (bind_eq_of_ok conversion _).trans conversions
    · cases artifact with
      | tableData other =>
        by_cases same : other = table <;> simp [loaded, place, Drawer.remove, same]
      | loadScript other =>
        by_cases same : other = table <;>
          simp [loaded, place, Drawer.remove, WriteMode.base, same, fresh]
      | _ => simp [loaded, place, Drawer.remove]
    · simp only [loaded, place, Drawer.remove, if_neg (Ne.symm (none _))]

/-- The rows that a refresh set adds become one script. -/
theorem convertIncremental_fills {set : Nat} {orders lines : String}
    (fills : drawer.Fills home base store) (small : set < 10 ^ 200)
    (ordersPresent : drawer.artifacts (.updateData .orders set) = some (Text.encode orders))
    (linesPresent : drawer.artifacts (.updateData .lineitem set) = some (Text.encode lines)) :
    ∃ after, Pipeline.convertIncremental directory set store = .ok () after ∧
      (drawer.converted [.updateData .orders set, .updateData .lineitem set] .firstRefresh
        (script (insertion .orders) orders ++ script (insertion .lineitem) lines)).Fills
        home base after := by
  obtain ⟨mark, count, middle, conversion, filled⟩ := room.convert_fills fills .overwrite
    (by simp : Artifact.updateData .orders set ≠ .firstRefresh) small (by simp [Artifact.number])
    ordersPresent (converts_encode (insertion .orders) orders)
  obtain ⟨_, more, after, conversionMore, done⟩ := room.convert_fills filled .append
    (by simp : Artifact.updateData .lineitem set ≠ .firstRefresh) small (by simp [Artifact.number])
    (by simp [place, Drawer.remove, linesPresent])
    (converts_encode (insertion .lineitem) lines)
  refine ⟨after, ?_, done.congr (fun artifact => ?_) fun name none => ?_⟩
  · rw [Pipeline.convertIncremental]
    refine (bind_eq_of_ok conversion _).trans ?_
    exact bind_eq_of_ok conversionMore _
  · simp only [converted, place, Drawer.remove, Artifact.name_inj, WriteMode.base, List.nil_append,
      List.mem_cons, List.not_mem_nil, or_false]
    split <;> split <;> simp_all
  · simp only [converted, place, Drawer.remove, if_neg (Ne.symm (none _))]

/-- The keys that a refresh set deletes become a script. -/
theorem convertDeletes_fills {set : Nat} {keys : String} (format : KeyFormat)
    (fills : drawer.Fills home base store) (small : set < 10 ^ 200)
    (present : drawer.artifacts (.deleteKeys set) = some (Text.encode keys)) :
    ∃ count after,
      convertDeletes ((Artifact.deleteKeys set).path directory)
          (Artifact.secondRefresh.path directory) .overwrite format store = .ok count after ∧
        (drawer.converted [.deleteKeys set] .secondRefresh
          (script (deleteStatements format) keys)).Fills home base after := by
  obtain ⟨mark, count, after, conversion, filled⟩ := room.convert_fills fills .overwrite
    (by simp : Artifact.deleteKeys set ≠ .secondRefresh) small (by simp [Artifact.number])
    present (converts_encode (deleteStatements format) keys)
  refine ⟨count, after, conversion, filled.congr (fun artifact => ?_) fun name none => ?_⟩
  · simp only [converted, place, Drawer.remove, Artifact.name_inj, WriteMode.base, List.nil_append,
      List.mem_singleton]
  · simp only [converted, place, Drawer.remove, if_neg (Ne.symm (none _))]

theorem writeFragments_fills (first : Nat) (texts : List String)
    (fills : drawer.Fills home base store) (small : first + texts.length ≤ 10 ^ 200) :
    ∃ paths after,
      writeFragments directory (Artifact.queryStem refreshQuery) first texts store =
          .ok paths after ∧
        (drawer.fragmented first texts).Fills home base after := by
  induction texts generalizing drawer store first with
  | nil =>
    refine ⟨[], store, rfl, fills.congr (fun artifact => ?_) fun _ _ => rfl⟩
    cases artifact <;> simp [fragmented]
  | cons text rest ih =>
    rw [List.length_cons] at small
    have smallFirst : (Artifact.fragment first).number < 10 ^ 200 := by
      simp only [Artifact.number]
      omega
    obtain ⟨mark, middle, written, placed⟩ := room.write_fills fills
      (Artifact.fragment first).isPlain_name (Artifact.size_name_le smallFirst) (Text.encode text)
    obtain ⟨paths, after, others, done⟩ := ih (first + 1) placed (by omega)
    refine ⟨(Artifact.fragment first).path directory :: paths, after, ?_,
      done.congr (fun artifact => ?_) fun name none => ?_⟩
    · simp only [writeFragments, bind_eq, Files.change,
        show fragmentName (Artifact.queryStem refreshQuery) first =
          (Artifact.fragment first).name from rfl, written, others]
      rfl
    · cases artifact with
      | fragment number =>
        simp only [fragmented, place, Artifact.name_inj, Artifact.fragment.injEq]
        rcases Nat.lt_trichotomy number first with below | rfl | above
        · rw [if_neg (by omega), if_neg (by omega), if_neg (by omega)]
        · rw [if_pos (Nat.le_refl _), if_neg (by omega), if_pos rfl, Nat.sub_self]
          rfl
        · obtain ⟨step, rfl⟩ := Nat.exists_eq_add_of_lt above
          rw [if_pos (by omega), if_pos (by omega), if_neg (by omega),
            show first + step + 1 - first = step + 1 by omega,
            show first + step + 1 - (first + 1) = step by omega, List.getElem?_cons_succ]
      | _ => simp [fragmented, place]
    · simp only [fragmented, place, if_neg (Ne.symm (none _))]

/-- The refresh query is replaced by the fragments of its text. -/
theorem splitRefreshQuery_fills {text : String} (fills : drawer.Fills home base store)
    (present : drawer.artifacts (.query refreshQuery) = some (Text.encode text))
    (small : (fragments text).length < 2 ^ 64) :
    ∃ after, Pipeline.splitRefreshQuery directory store = .ok () after ∧
      ((drawer.fragmented 1 (fragments text)).remove (Artifact.query refreshQuery).name).Fills
        home base after := by
  have smallQuery : (Artifact.query refreshQuery).number < 10 ^ 200 := by
    simp only [Artifact.number, refreshQuery]
    decide
  obtain ⟨executable, stands⟩ := fills.node?_artifact present
  have read : store.readText ((Artifact.query refreshQuery).path directory) = .ok text := by
    rw [Artifact.path, readText, read_join (room.leads fills)
      (Artifact.query refreshQuery).isPlain_name (room.fits_artifact smallQuery), stands]
    simp only [Text.decode?_encode]
  obtain ⟨paths, middle, written, filled⟩ := room.writeFragments_fills 1 (fragments text)
    fills (by omega)
  obtain ⟨after, removal, done⟩ := room.remove_fills filled
    (Artifact.query refreshQuery).isPlain_name (Artifact.size_name_le smallQuery)
    (has_artifact (by simpa [fragmented] using present))
  refine ⟨after, ?_, done⟩
  simp only [Pipeline.splitRefreshQuery, splitFragments, bind_eq, Files.inspect, read, written,
    Files.change]
  rw [show middle.remove ((Artifact.query refreshQuery).path directory) = .ok after from removal]

end EmptyDirectory

end PowerTest
