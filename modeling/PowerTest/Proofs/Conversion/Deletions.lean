import Mathlib.Data.List.Basic
import PowerTest.Proofs.Conversion.Outcome
import PowerTest.Proofs.Conversion.Statements

/-!
# Pairs of deletions

A record of keys is converted to two statements with the same keys, for the lines of an order and
for the order itself, and a script never has one without the other (`IsPaired`), not even when a
line that is no text ends the conversion early. Quotes around the keys are all that the two formats
differ in, so the keys are read back from either. `convertDeletes_outcome` says this together with
what becomes of the files.
-/

namespace PowerTest

open Store Text

/-- The first words of a statement that deletes the lines of an order. -/
def lineitemDeletion : String := "DELETE FROM LINEITEM WHERE L_ORDERKEY = "

/-- The first words of a statement that deletes an order. -/
def orderDeletion : String := "DELETE FROM ORDERS WHERE O_ORDERKEY = "

/-- The lines of a script with a pair of statements for each record. -/
structure IsPaired (format : KeyFormat) (records : List Record) (lines : List String) : Prop where
  length : lines.length = 2 * records.length
  whole : ∀ line ∈ lines, '\n' ∉ line.toList
  pair : ∀ position record, records[position]? = some record →
    lines[2 * position]? = some (lineitemDeletion ++ format.render record) ∧
      lines[2 * position + 1]? = some (orderDeletion ++ format.render record)

/-- The characters of the two statements that delete the orders with keys. -/
def pairOf (keys : List Char) : List (List Char) :=
  [lineitemDeletion.toList ++ keys, orderDeletion.toList ++ keys]

/-- Characters that are no quotes. -/
def withoutQuotes (characters : List Char) : List Char :=
  characters.filter (· ≠ '\'')

/-- The keys of pairs of statements that a newline ends each. -/
def readPairs : List (List Char) → Option (List String)
  | [[]] => some []
  | first :: second :: rest =>
    match afterStart lineitemDeletion first, afterStart orderDeletion second with
    | some key, some other =>
      if key = other then (readPairs rest).map (String.ofList key :: ·) else none
    | _, _ => none
  | _ => none

/-- The keys that a script deletes, with or without quotes around them. -/
def readKeys (script : Bytes) : Option (List String) :=
  (decode? script).bind fun text => readPairs (cut (· == '\n') (withoutQuotes text.toList))

variable {format : KeyFormat} {record : Record} {records : List Record}

/-! ## Pairs -/

theorem toList_deleteStatements (format : KeyFormat) (record : Record) :
    (deleteStatements format record).map String.toList = pairOf (format.render record).toList := by
  rw [pairOf, ← String.toList_append, ← String.toList_append]
  rfl

theorem newline_not_mem_render (whole : ∀ field ∈ record, '\n' ∉ field.toList) :
    '\n' ∉ (format.render record).toList := by
  intro member
  cases format with
  | raw =>
    rw [KeyFormat.render, toList_concatenation] at member
    obtain ⟨field, found, within⟩ := List.mem_flatMap.mp member
    exact whole field found within
  | quoted =>
    rw [KeyFormat.render, toList_concatenation, List.flatMap_map] at member
    obtain ⟨field, found, within⟩ := List.mem_flatMap.mp member
    exact newline_not_mem_quoted (whole field found) within

theorem newline_not_mem_pairOf {keys : List Char} (whole : '\n' ∉ keys) :
    ∀ piece ∈ pairOf keys, '\n' ∉ piece := by
  have starts : '\n' ∉ lineitemDeletion.toList ∧ '\n' ∉ orderDeletion.toList := by decide +kernel
  rw [pairOf, List.forall_mem_cons, List.forall_mem_singleton, List.mem_append, List.mem_append,
    not_or, not_or]
  exact ⟨⟨starts.1, whole⟩, starts.2, whole⟩

/-- The statements for records stand in pairs. -/
theorem isPaired_deleteStatements
    (whole : ∀ record ∈ records, ∀ field ∈ record, '\n' ∉ field.toList) :
    IsPaired format records (records.flatMap (deleteStatements format)) := by
  induction records with
  | nil => exact ⟨rfl, List.forall_mem_nil _, nofun⟩
  | cons record rest ih =>
    obtain ⟨first, later⟩ := List.forall_mem_cons.mp whole
    have paired := ih later
    rw [List.flatMap_cons]
    refine ⟨?_, ?_, ?_⟩
    · rw [List.length_append, paired.length, List.length_cons, Nat.mul_succ, Nat.add_comm]
      rfl
    · have pieces := newline_not_mem_pairOf (@newline_not_mem_render format record first)
      rw [← toList_deleteStatements] at pieces
      refine List.forall_mem_append.mpr ⟨fun statement member => ?_, paired.whole⟩
      exact pieces statement.toList (List.mem_map_of_mem member)
    · intro position other stands
      cases position with
      | zero =>
        obtain rfl := Option.some.inj stands
        exact ⟨rfl, rfl⟩
      | succ before => exact paired.pair before other stands

/-! ## Keys -/

theorem withoutQuotes_append (first second : List Char) :
    withoutQuotes (first ++ second) = withoutQuotes first ++ withoutQuotes second :=
  List.filter_append _ _

theorem withoutQuotes_of_not_mem {characters : List Char} (unquoted : '\'' ∉ characters) :
    withoutQuotes characters = characters := by
  refine List.filter_eq_self.mpr fun character member => decide_eq_true ?_
  rintro rfl
  exact unquoted member

/-- The formats differ in quotes alone. -/
theorem withoutQuotes_render (unquoted : record.Unquoted) :
    withoutQuotes (format.render record).toList = record.flatMap String.toList := by
  have field : ∀ field ∈ record, withoutQuotes field.toList = field.toList :=
    fun field member => withoutQuotes_of_not_mem (unquoted field member)
  cases format with
  | raw =>
    rw [KeyFormat.render, toList_concatenation, withoutQuotes, List.filter_flatMap]
    exact List.flatMap_congr field
  | quoted =>
    rw [KeyFormat.render, toList_concatenation, List.flatMap_map, withoutQuotes,
      List.filter_flatMap]
    refine List.flatMap_congr fun text member => ?_
    rw [toList_quoted, List.filter_cons_of_neg (by decide), List.filter_append]
    exact (List.append_nil _).trans (field text member)

theorem withoutQuotes_pairOf (keys : List Char) :
    (pairOf keys).map withoutQuotes = pairOf (withoutQuotes keys) := by
  have starts : '\'' ∉ lineitemDeletion.toList ∧ '\'' ∉ orderDeletion.toList := by decide +kernel
  rw [pairOf, List.map_cons, List.map_singleton, withoutQuotes_append, withoutQuotes_append,
    withoutQuotes_of_not_mem starts.1, withoutQuotes_of_not_mem starts.2, pairOf]

/-- A script without its quotes. -/
theorem withoutQuotes_scriptText (unquoted : ∀ record ∈ records, record.Unquoted) :
    withoutQuotes (scriptText (records.flatMap (deleteStatements format))).toList =
      (records.flatMap fun record => pairOf (record.flatMap String.toList)).flatMap
        (· ++ ['\n']) := by
  have ended : ∀ line : List Char, (line ++ ['\n']).filter (· ≠ '\'') =
      withoutQuotes line ++ ['\n'] := fun line => withoutQuotes_append line ['\n']
  rw [toList_scriptText, withoutQuotes, List.filter_flatMap, List.map_flatMap]
  simp only [ended, toList_deleteStatements]
  rw [← List.flatMap_map withoutQuotes (· ++ ['\n']), List.map_flatMap]
  refine congrArg (List.flatMap _) (List.flatMap_congr fun record member => ?_)
  rw [withoutQuotes_pairOf, withoutQuotes_render (unquoted record member)]

/-- A raw script is what a script is without its quotes. -/
theorem toList_scriptText_raw (records : List Record) :
    (scriptText (records.flatMap (deleteStatements .raw))).toList =
      (records.flatMap fun record => pairOf (record.flatMap String.toList)).flatMap
        (· ++ ['\n']) := by
  rw [toList_scriptText, List.map_flatMap]
  refine congrArg (List.flatMap _) (List.flatMap_congr fun record _ => ?_)
  rw [toList_deleteStatements, KeyFormat.render, toList_concatenation]

/-- What is written with quotes is, without them, what is written raw. -/
theorem filter_scriptBytes_quoted (unquoted : ∀ record ∈ records, record.Unquoted) :
    (scriptBytes (records.flatMap (deleteStatements .quoted))).filter (· ≠ 39) =
      scriptBytes (records.flatMap (deleteStatements .raw)) := by
  rw [scriptBytes_eq_encode, scriptBytes_eq_encode, encode_eq, encode_eq,
    @filter_encodeChars 39 '\'' (by decide) rfl rfl, toList_scriptText_raw]
  exact congrArg encodeChars (withoutQuotes_scriptText unquoted)

theorem readPairs_flatMap (keys : List String) :
    readPairs ((keys.flatMap fun key => pairOf key.toList) ++ [[]]) = some keys := by
  induction keys with
  | nil => rfl
  | cons key rest ih =>
    simp only [List.flatMap_cons, pairOf, List.cons_append, List.nil_append, readPairs,
      afterStart_append, if_true, String.ofList_toList] at ih ⊢
    rw [ih]
    rfl

theorem unquoted_singletons {keys : List String} (unquoted : ∀ key ∈ keys, '\'' ∉ key.toList) :
    ∀ record ∈ keys.map ([·]), Record.Unquoted record :=
  List.forall_mem_map.mpr fun key member => List.forall_mem_singleton.mpr (unquoted key member)

/-- The keys are read back from a script of either format. -/
theorem readKeys_scriptBytes {keys : List String} (unquoted : ∀ key ∈ keys, '\'' ∉ key.toList)
    (whole : ∀ key ∈ keys, '\n' ∉ key.toList) :
    readKeys (scriptBytes ((keys.map ([·])).flatMap (deleteStatements format))) = some keys := by
  have pieces : ∀ piece ∈ keys.flatMap fun key => pairOf key.toList, '\n' ∉ piece := by
    intro piece found
    obtain ⟨key, member, within⟩ := List.mem_flatMap.mp found
    exact newline_not_mem_pairOf (whole key member) piece within
  rw [readKeys, scriptBytes_eq_encode, decode?_encode, Option.bind_some,
    withoutQuotes_scriptText (unquoted_singletons unquoted), List.flatMap_map]
  simp only [List.flatMap_singleton]
  rw [cut_flatMap pieces, readPairs_flatMap]

/-! ## What becomes of the files -/

/-- What becomes of a file of keys and a script that leads to another place. The script is continued
by a pair of statements for each record before the first line that is no text, and if no such line
stops the conversion then all records are counted and the file is removed. -/
theorem convertDeletes_outcome (mode : WriteMode) (store : Store) (source destination : String)
    (place target : Location) (executable mark : Bool) (content old : Bytes)
    (found : store.find source = .ok (place, .file executable content))
    (opens : store.Opens destination target mark old) (apart : place ≠ target) :
    ∃ texts rest, IsStripped content (texts.map encode ++ rest) ∧
      (∀ bad ∈ rest.head?, decode? bad = none) ∧
      ∃ script : KeyFormat → List String,
        (∀ format, IsPaired format (Record.ofLines texts) (script format)) ∧
        (rest = [] → ∀ format, ∃ after,
          convertDeletes source destination mode format store =
            .ok (texts.filter (· ≠ "")).length after ∧
          store.Exchanged after place target mark
            (mode.base old ++ scriptBytes (script format))) ∧
        (rest ≠ [] → ∀ format, ∃ after,
          convertDeletes source destination mode format store =
            .error (.inputOutput source .undecodable) after ∧
          store.Wrote after target mark (mode.base old ++ scriptBytes (script format))) ∧
        ∀ keys : List String, (∀ key ∈ keys, '\'' ∉ key.toList) →
          Record.ofLines texts = keys.map ([·]) →
          (∀ format, readKeys (scriptBytes (script format)) = some keys) ∧
            (scriptBytes (script .quoted)).filter (· ≠ 39) = scriptBytes (script .raw) := by
  obtain ⟨lines, stripped⟩ := exists_isStripped content
  obtain ⟨texts, rest, rfl, unreadable⟩ := exists_texts_append lines
  have whole := newline_not_mem_ofLines (newline_not_mem_texts stripped)
  refine ⟨texts, rest, stripped, unreadable,
    fun format => (Record.ofLines texts).flatMap (deleteStatements format),
    fun format => isPaired_deleteStatements whole, ?_, ?_, ?_⟩
  · rintro rfl format
    rw [List.append_nil] at stripped
    obtain ⟨after, done, exchanged⟩ := convert_of_texts found opens apart stripped
    rw [Record.length_ofLines] at done
    exact ⟨after, done, exchanged⟩
  · intro stops format
    obtain ⟨bad, others, rfl⟩ := List.exists_cons_of_ne_nil stops
    exact convert_of_undecodable found opens apart stripped (unreadable bad rfl)
  · intro keys unquoted records
    rw [records] at whole
    simp only [records]
    refine ⟨fun format => readKeys_scriptBytes unquoted fun key member => ?_,
      filter_scriptBytes_quoted (unquoted_singletons unquoted)⟩
    exact whole [key] (List.mem_map_of_mem member) key (List.mem_singleton_self key)

/-- Lines that are all text are all read. -/
theorem eq_nil_of_texts {texts others : List String} {rest : List Bytes}
    (same : texts.map encode ++ rest = others.map encode)
    (unreadable : ∀ bad ∈ rest.head?, decode? bad = none) : rest = [] ∧ texts = others := by
  cases rest with
  | nil =>
    rw [List.append_nil] at same
    exact ⟨rfl, (List.map_inj_right fun _ _ => encode_injective).mp same⟩
  | cons bad later =>
    have member : bad ∈ others.map encode := by
      rw [← same]
      exact List.mem_append_right _ List.mem_cons_self
    obtain ⟨text, _, rfl⟩ := List.mem_map.mp member
    have lost := unreadable (encode text) rfl
    rw [decode?_encode] at lost
    cases lost

/-- A store with two keys and a script. -/
def keyStore : Store where
  entries := [(["w"], .directory), (["w", "keys"], .file false (encode "7|\r\n\n\r\n12|")),
    (["w", "out.sql"], .file true [45])]
  workingDirectory := ["w"]

/-- Two pairs of statements are added to a script, and their keys are read back. -/
theorem convertDeletes_outcome_keys :
    ∃ after lines, convertDeletes "keys" "out.sql" .append .quoted keyStore = .ok 2 after ∧
      keyStore.Exchanged after ["w", "keys"] ["w", "out.sql"] true ([45] ++ scriptBytes lines) ∧
      lines.length = 4 ∧ lines[3]? = some "DELETE FROM ORDERS WHERE O_ORDERKEY = '12'" ∧
      readKeys (scriptBytes lines) = some ["7", "12"] := by
  have found : keyStore.find "keys" =
      .ok (["w", "keys"], .file false (encode "7|\r\n\n\r\n12|")) := rfl
  have opens : keyStore.Opens "out.sql" ["w", "out.sql"] true [45] :=
    destination_eq_ok_iff.mp rfl
  obtain ⟨texts, rest, ⟨physical, isLines, same⟩, unreadable, script, paired, complete, _, keys⟩ :=
    convertDeletes_outcome .append keyStore "keys" "out.sql" _ _ false true _ [45] found opens
      (by decide)
  have lines : texts.map encode ++ rest = ["7|", "", "", "12|"].map encode := by
    rw [same, ← isLines.eq_lines]
    decide +kernel
  obtain ⟨rfl, rfl⟩ := eq_nil_of_texts lines unreadable
  have records : Record.ofLines ["7|", "", "", "12|"] = ["7", "12"].map ([·]) := by decide +kernel
  obtain ⟨after, done, exchanged⟩ := complete rfl .quoted
  have pairs := paired .quoted
  have last := (pairs.pair 1 ["12"] (by rw [records]; rfl)).2
  exact ⟨after, script .quoted, done, exchanged, pairs.length, last,
    (keys ["7", "12"] (by decide) records).1 .quoted⟩

end PowerTest
