import Mathlib.Logic.Function.Basic
import PowerTest.Proofs.Conversion.Effect
import PowerTest.Proofs.Conversion.Reading

/-!
# What a conversion ends in

A conversion between two paths that lead to different places writes the statements of all records
behind what it kept of its destination and removes its source, or, when a line is no text, writes
those of the records before that line and leaves its source; nothing else changes. Without a source
or a destination nothing changes at all. `convertRecords_outcome` says so of the rows of a table.
-/

namespace PowerTest

open Steps Store Text

namespace Store

/-- A store in which a file was written and nothing else was changed. -/
structure Wrote (before after : Store) (target : Location) (mark : Bool) (bytes : Bytes) :
    Prop where
  workingDirectory : after.workingDirectory = before.workingDirectory
  nodes : after.node? = Function.update before.node? target (some (.file mark bytes))

/-- A store in which a file was written, another one was removed, and nothing else was changed. -/
structure Exchanged (before after : Store) (place target : Location) (mark : Bool)
    (bytes : Bytes) : Prop where
  workingDirectory : after.workingDirectory = before.workingDirectory
  nodes : after.node? =
    Function.update (Function.update before.node? target (some (.file mark bytes))) place none

variable {store : Store} {place target : Location} {mark executable : Bool}
  {bytes content : Bytes}

theorem wrote_put (free : store.node? target ≠ some .directory) :
    store.Wrote (store.put target (.file mark bytes)) target mark bytes := by
  refine ⟨rfl, funext fun other => ?_⟩
  rw [node?_putFile free, Function.update_apply]

theorem exchanged_erase (free : store.node? target ≠ some .directory) (apart : place ≠ target)
    (stands : store.node? place = some (.file executable content)) :
    store.Exchanged ((store.put target (.file mark bytes)).erase place) place target mark bytes := by
  have written : store.Wrote (store.put target (.file mark bytes)) target mark bytes :=
    wrote_put free
  have file : (store.put target (.file mark bytes)).node? place ≠ some .directory := by
    rw [written.nodes, Function.update_of_ne apart, stands]
    nofun
  refine ⟨rfl, funext fun other => ?_⟩
  rw [node?_eraseFile file, written.nodes, Function.update_apply (Function.update _ _ _)]

end Store

section Opened

variable {render : Record → List String} {source destination : String} {mode : WriteMode}
  {store : Store} {place target : Location} {executable mark : Bool} {content old : Bytes}

variable (found : store.find source = .ok (place, .file executable content))
  (opens : store.Opens destination target mark old) (apart : place ≠ target)

include found opens apart

/-- A file of text is converted completely. -/
theorem convert_of_texts {texts : List String} (stripped : IsStripped content (texts.map encode)) :
    ∃ after, convert render source destination mode store =
        .ok (Record.ofLines texts).length after ∧
      store.Exchanged after place target mark
        (mode.base old ++ scriptBytes ((Record.ofLines texts).flatMap render)) := by
  have done : convert render source destination mode store = _ :=
    convert_of_opens found opens apart
  simp only [Source.ofNode, statementsOf_texts stripped, concluded] at done
  exact ⟨_, done, exchanged_erase (opened_ne_directory opens.free) apart (node?_of_find found)⟩

/-- A file with a line that is no text is converted as far as that line, and stays. -/
theorem convert_of_undecodable {texts : List String} {bad : Bytes} {rest : List Bytes}
    (stripped : IsStripped content (texts.map encode ++ bad :: rest))
    (unreadable : decode? bad = none) :
    ∃ after, convert render source destination mode store =
        .error (.inputOutput source .undecodable) after ∧
      store.Wrote after target mark
        (mode.base old ++ scriptBytes ((Record.ofLines texts).flatMap render)) := by
  have done : convert render source destination mode store = _ :=
    convert_of_opens found opens apart
  simp only [Source.ofNode, statementsOf_undecodable stripped unreadable, concluded] at done
  exact ⟨_, done, wrote_put (opened_ne_directory opens.free)⟩

end Opened

/-! ## Rows of a table -/

/-- The script that inserts the records on lines of text: a statement a line for every line that is
not blank. -/
def insertions (table : Table) (texts : List String) : Bytes :=
  (texts.filter (· ≠ "")).flatMap fun text =>
    encode (insertStatement table (Record.ofLine text)) ++ [10]

theorem insertions_eq (table : Table) (texts : List String) :
    insertions table texts =
      scriptBytes ((Record.ofLines texts).flatMap fun record => [insertStatement table record]) := by
  rw [insertions, scriptBytes, Record.ofLines, List.flatMap_map, List.flatMap_assoc]
  simp only [List.flatMap_singleton]

/-- What becomes of any two files that the rows of a table are converted between. Paths differ if
they lead to different places. -/
theorem convertRecords_outcome (table : Table) (mode : WriteMode) (store : Store)
    (source destination : String) (place : Location) (reaches : store.Reaches source place)
    (different : ¬store.Reaches destination place) :
    (store.node? place = none →
      convertRecords table source destination mode store =
        .error (.sourceNotFound source) store) ∧
    ∀ executable content, store.find source = .ok (place, .file executable content) →
      ((∀ target mark old, ¬store.Opens destination target mark old) →
        ∃ fault, convertRecords table source destination mode store =
          .error (.destinationWrite destination fault) store) ∧
      ∀ target mark old, store.Opens destination target mark old →
        ∃ lines, IsStripped content lines ∧
          (∀ texts, lines = texts.map encode →
            ∃ after, convertRecords table source destination mode store =
                .ok (texts.filter (· ≠ "")).length after ∧
              store.Exchanged after place target mark (mode.base old ++ insertions table texts)) ∧
          ∀ texts bad rest, lines = texts.map encode ++ bad :: rest → decode? bad = none →
            ∃ after, convertRecords table source destination mode store =
                .error (.inputOutput source .undecodable) after ∧
              store.Wrote after target mark (mode.base old ++ insertions table texts) := by
  refine ⟨fun nothing => ?_, fun executable content found => ⟨fun closed => ?_, ?_⟩⟩
  · have lost := reaches.find_eq_notFound nothing
    exact convert_of_find_eq_error lost
  · obtain ⟨fault, lost⟩ := exists_fault_of_not_opens closed
    exact ⟨fault, convert_of_destination_eq_error found lost⟩
  · intro target mark old opens
    have apart : place ≠ target := by
      rintro rfl
      exact different opens.reaches
    obtain ⟨lines, stripped⟩ := exists_isStripped content
    refine ⟨lines, stripped, ?_, ?_⟩
    · rintro texts rfl
      obtain ⟨after, done, exchanged⟩ := convert_of_texts found opens apart stripped
      rw [← insertions_eq] at exchanged
      rw [Record.length_ofLines] at done
      exact ⟨after, done, exchanged⟩
    · rintro texts bad rest rfl unreadable
      obtain ⟨after, done, wrote⟩ := convert_of_undecodable found opens apart stripped unreadable
      rw [← insertions_eq] at wrote
      exact ⟨after, done, wrote⟩

/-- Rows with both kinds of line ends, blank lines, and a line that is no text. -/
def mixedRows : Bytes :=
  encode "0|A|\r\n\r\n\n1|B|\r\r\n" ++ [255, 10] ++ encode "2|C|"

/-- A store with rows and a script. -/
def mixedStore : Store where
  entries := [(["w"], .directory), (["w", "rows"], .file false mixedRows),
    (["w", "out.sql"], .file true [45])]
  workingDirectory := ["w"]

theorem stripped_mixedRows {lines : List Bytes} (stripped : IsStripped mixedRows lines) :
    lines = ["0|A|", "", "", "1|B|"].map encode ++ [255] :: [encode "2|C|"] := by
  obtain ⟨found, isLines, rfl⟩ := stripped
  rw [← isLines.eq_lines]
  decide +kernel

/-- Two rows are added to a script before the line that is no text ends the conversion. -/
theorem convertRecords_outcome_mixed :
    mixedStore.Reaches "rows" ["w", "rows"] ∧ ¬mixedStore.Reaches "./out.sql" ["w", "rows"] ∧
      ∃ after, convertRecords .region "rows" "./out.sql" .append mixedStore =
          .error (.inputOutput "rows" .undecodable) after ∧
        mixedStore.Wrote after ["w", "out.sql"] true (encode ("-" ++
          "INSERT INTO REGION VALUES ('0', 'A')\n" ++ "INSERT INTO REGION VALUES ('1', 'B')\n")) := by
  have found : mixedStore.find "rows" = .ok (["w", "rows"], .file false mixedRows) := rfl
  have opens : mixedStore.Opens "./out.sql" ["w", "out.sql"] true [45] :=
    destination_eq_ok_iff.mp rfl
  have reaches : mixedStore.Reaches "rows" ["w", "rows"] := reaches_of_find found
  have different : ¬mixedStore.Reaches "./out.sql" ["w", "rows"] :=
    fun same => absurd (same.unique opens.reaches) (by decide)
  refine ⟨reaches, different, ?_⟩
  obtain ⟨_, readable⟩ := convertRecords_outcome .region .append mixedStore "rows" "./out.sql"
    ["w", "rows"] reaches different
  obtain ⟨_, writable⟩ := readable false mixedRows found
  obtain ⟨lines, stripped, _, stops⟩ := writable ["w", "out.sql"] true [45] opens
  obtain ⟨after, stopped, wrote⟩ :=
    stops ["0|A|", "", "", "1|B|"] [255] _ (stripped_mixedRows stripped) (by decide +kernel)
  refine ⟨after, stopped, ?_⟩
  have script : WriteMode.append.base [45] ++ insertions .region ["0|A|", "", "", "1|B|"] =
      encode ("-" ++ "INSERT INTO REGION VALUES ('0', 'A')\n" ++
        "INSERT INTO REGION VALUES ('1', 'B')\n") := by decide +kernel
  rwa [script] at wrote

end PowerTest
