import PowerTest.Proofs.Conversion.Delimited
import PowerTest.Proofs.Conversion.Outcome

/-!
# Reading insertions back

A statement that inserts a record is read by its quotes: they stand around the fields and nowhere
else, so what stands between two of them is a field or the comma between two fields. Hence a script
determines the records that it was converted from (`insertions_determine`), as long as no field has
a quote of its own.
-/

namespace PowerTest

open Store Text

/-- The first words of a statement that inserts a record into a table. -/
def insertionStart (table : Table) : String :=
  "INSERT INTO " ++ table.sqlName ++ " VALUES ("

/-- The fields among the pieces between quotes, from the first field on. -/
def quotedFields : List (List Char) → Option Record
  | [field, []] => some [String.ofList field]
  | field :: [',', ' '] :: rest => (quotedFields rest).map (String.ofList field :: ·)
  | _ => none

/-- The fields of a list of values between quotes. -/
def readValues (values : List Char) : Option Record :=
  match cut (· == '\'') values with
  | [[]] => some []
  | [] :: pieces => quotedFields pieces
  | _ => none

/-- The record that a statement inserts into a table. -/
def readInsertion (table : Table) (statement : String) : Option Record :=
  (afterStart (insertionStart table) statement.toList).bind fun rest =>
    if rest.getLast? = some ')' then readValues rest.dropLast else none

variable {table other : Table} {record : Record}

theorem toList_insertStatement (table : Table) (record : Record) :
    (insertStatement table record).toList =
      (insertionStart table).toList ++ ((commaSeparated (record.map quoted)).toList ++ [')']) := by
  rw [insertStatement, String.toList_append, String.toList_append, insertionStart,
    List.append_assoc]
  rfl

/-- The values of fields without quotes begin with a quote, and the fields are read behind it. -/
theorem quotedFields_values {field : String} {rest : Record}
    (unquoted : Record.Unquoted (field :: rest)) :
    ∃ behind, (commaSeparated ((field :: rest).map quoted)).toList = '\'' :: behind ∧
      quotedFields (cut (· == '\'') behind) = some (field :: rest) := by
  induction rest generalizing field with
  | nil =>
    have whole := unquoted field (List.mem_singleton_self field)
    refine ⟨field.toList ++ ['\''], toList_quoted field, ?_⟩
    rw [cut_append_cons whole]
    simp only [cut, cutFrom, List.reverse_nil, quotedFields, String.ofList_toList]
  | cons next others ih =>
    obtain ⟨whole, later⟩ := List.forall_mem_cons.mp unquoted
    obtain ⟨behind, values, fields⟩ := ih later
    refine ⟨field.toList ++ '\'' :: ([',', ' '] ++ '\'' :: behind), ?_, ?_⟩
    · have split : commaSeparated ((field :: next :: others).map quoted) =
          quoted field ++ ", " ++ commaSeparated ((next :: others).map quoted) := rfl
      rw [split, String.toList_append, String.toList_append, values, toList_quoted]
      simp
    · have comma : '\'' ∉ [',', ' '] := by decide
      rw [cut_append_cons whole, cut_append_cons comma, quotedFields, fields, String.ofList_toList]
      rfl

theorem readValues_commaSeparated (unquoted : record.Unquoted) :
    readValues (commaSeparated (record.map quoted)).toList = some record := by
  cases record with
  | nil => rfl
  | cons field rest =>
    obtain ⟨behind, values, fields⟩ := quotedFields_values unquoted
    have first : cut (· == '\'') ('\'' :: behind) = [] :: cut (· == '\'') behind :=
      cut_append_cons List.not_mem_nil behind
    rw [readValues, values, first]
    cases pieces : cut (· == '\'') behind with
    | nil => exact absurd pieces (cut_ne_nil _ _)
    | cons piece others =>
      rw [pieces] at fields
      exact fields

/-- A statement gives back the record that it inserts. -/
theorem readInsertion_insertStatement (unquoted : record.Unquoted) :
    readInsertion table (insertStatement table record) = some record := by
  rw [readInsertion, toList_insertStatement, afterStart_append, Option.bind_some,
    if_pos List.getLast?_concat, List.dropLast_concat, readValues_commaSeparated unquoted]

theorem newline_not_mem_insertStatement (lines : ∀ field ∈ record, '\n' ∉ field.toList) :
    '\n' ∉ (insertStatement table record).toList := by
  have start : '\n' ∉ (insertionStart table).toList := by
    cases table <;> decide +kernel
  rw [toList_insertStatement, List.mem_append, List.mem_append]
  rintro (first | values | last)
  · exact start first
  · rcases mem_commaSeparated values with between | ⟨text, found, within⟩
    · exact absurd between (by decide)
    · obtain ⟨field, member, rfl⟩ := List.mem_map.mp found
      exact newline_not_mem_quoted (lines field member) within
  · exact absurd last (by decide)

/-- Tables have different first words, none of which begins another. -/
theorem eq_of_begins_insertionStart
    (start : (insertionStart table).toList <+: (insertionStart other).toList) : table = other := by
  have apart : ∀ first ∈ Table.all, ∀ second ∈ Table.all,
      (insertionStart first).toList <+: (insertionStart second).toList → first = second := by
    decide +kernel
  exact apart table table.mem_all other other.mem_all start

theorem eq_of_insertStatement_eq {first second : Record}
    (same : insertStatement table first = insertStatement other second) : table = other := by
  have one : (insertionStart table).toList <+: (insertStatement table first).toList := by
    rw [toList_insertStatement]
    exact List.prefix_append _ _
  have two : (insertionStart other).toList <+: (insertStatement table first).toList := by
    rw [same, toList_insertStatement]
    exact List.prefix_append _ _
  rcases List.prefix_or_prefix_of_prefix one two with start | start
  · exact eq_of_begins_insertionStart start
  · exact (eq_of_begins_insertionStart start).symm

theorem mapM_readInsertion {records : List Record}
    (unquoted : ∀ record ∈ records, record.Unquoted) :
    (records.map (insertStatement table)).mapM (readInsertion table) = some records := by
  induction records with
  | nil => rfl
  | cons record rest ih =>
    obtain ⟨first, later⟩ := List.forall_mem_cons.mp unquoted
    rw [List.map_cons, List.mapM_cons, readInsertion_insertStatement first, ih later]
    rfl

theorem textLines_insertions {records : List Record}
    (lines : ∀ record ∈ records, ∀ field ∈ record, '\n' ∉ field.toList) :
    textLines (scriptText (records.map (insertStatement table))) =
      records.map (insertStatement table) := by
  refine textLines_scriptText (List.forall_mem_map.mpr ?_) (List.forall_mem_map.mpr ?_)
  · exact fun record member => newline_not_mem_insertStatement (lines record member)
  · intro record _
    rw [toList_insertStatement, ← List.append_assoc, List.getLast?_concat]
    decide

/-- A statement inserts one record into one table. -/
theorem insertStatement_inj {first second : Record} (unquotedFirst : first.Unquoted)
    (unquotedSecond : second.Unquoted)
    (same : insertStatement table first = insertStatement other second) :
    table = other ∧ first = second := by
  obtain rfl := eq_of_insertStatement_eq same
  have read := @readInsertion_insertStatement table first unquotedFirst
  rw [same, readInsertion_insertStatement unquotedSecond] at read
  exact ⟨rfl, (Option.some.inj read).symm⟩

/-- Records are read back from the script that they are converted to, a record a line, and no other
statement inserts the same record into the same table. -/
theorem insertions_determine :
    (∀ (table : Table) (records : List Record) (text : String) (store : Store)
        (source destination : String) (place target : Location) (executable mark : Bool)
        (old : Bytes), (∀ record ∈ records, record.Writable ∧ record.Unquoted) →
      IsDelimited records text →
      store.find source = .ok (place, .file executable (encode text)) →
      store.Opens destination target mark old → place ≠ target →
      ∃ after script, convertRecords table source destination .overwrite store =
          .ok records.length after ∧
        store.Exchanged after place target mark (encode script) ∧
        (textLines script).length = records.length ∧
        (textLines script).mapM (readInsertion table) = some records) ∧
    ∀ (table other : Table) (first second : Record), first.Unquoted → second.Unquoted →
      insertStatement table first = insertStatement other second →
      table = other ∧ first = second := by
  constructor
  · intro table records text store source destination place target executable mark old fit delimited
      found opens apart
    have writable : ∀ record ∈ records, record.Writable := fun record member => (fit record member).1
    obtain ⟨after, done, exchanged⟩ :=
      convert_of_texts found opens apart (isStripped_of_isDelimited delimited writable)
    have fresh : WriteMode.overwrite.base old = [] := rfl
    rw [fresh, List.nil_append, ofLines_delimited writable, ← List.map_eq_flatMap,
      scriptBytes_eq_encode] at exchanged
    rw [ofLines_delimited writable] at done
    have read : textLines (scriptText (records.map (insertStatement table))) =
        records.map (insertStatement table) :=
      textLines_insertions fun record member => (writable record member).lines
    refine ⟨after, _, done, exchanged, ?_, ?_⟩
    · rw [read, List.length_map]
    · rw [read]
      exact mapM_readInsertion fun record member => (fit record member).2
  · intro table other first second unquotedFirst unquotedSecond same
    exact insertStatement_inj unquotedFirst unquotedSecond same

/-- Records with a comma, a parenthesis, a carriage return and no character at all in a field. -/
def oddRecords : List Record := [["a, b", "(c)\r", ""], [""], ["0", "\r"]]

/-- A store with these records, each with a line end of its own. -/
def oddStore : Store where
  entries := [(["w"], .directory),
    (["w", "rows"], .file false (encode "a, b|(c)\r||\r\n|\n0|\r|")),
    (["w", "out.sql"], .file true [45])]
  workingDirectory := ["w"]

theorem isDelimited_oddRecords : IsDelimited oddRecords "a, b|(c)\r||\r\n|\n0|\r|" := by
  have spelled : "a, b|(c)\r||\r\n|\n0|\r|" = Record.delimited ["a, b", "(c)\r", ""] ++ "\r\n" ++
      (Record.delimited [""] ++ "\n" ++ Record.delimited ["0", "\r"]) := by decide +kernel
  rw [spelled]
  exact .ended _ (.inr rfl) (.ended _ (.inl rfl) (.unended _))

theorem fit_oddRecords : ∀ record ∈ oddRecords, record.Writable ∧ record.Unquoted := by
  have marks : ∀ record ∈ oddRecords, record ≠ [] ∧ ∀ field ∈ record,
      '|' ∉ field.toList ∧ '\n' ∉ field.toList ∧ '\'' ∉ field.toList := by decide +kernel
  intro record member
  obtain ⟨some, fields⟩ := marks record member
  exact ⟨⟨some, fun field found => (fields field found).1,
    fun field found => (fields field found).2.1⟩, fun field found => (fields field found).2.2⟩

/-- Three records are read back, and one field that is empty is told from no field. -/
theorem insertions_determine_odd :
    (∃ after script, convertRecords .nation "rows" "out.sql" .overwrite oddStore = .ok 3 after ∧
      oddStore.Exchanged after ["w", "rows"] ["w", "out.sql"] true (encode script) ∧
      (textLines script).length = 3 ∧
      (textLines script).mapM (readInsertion .nation) = some oddRecords) ∧
    insertStatement .nation [""] ≠ insertStatement .nation [] := by
  have found : oddStore.find "rows" = .ok (["w", "rows"],
      .file false (encode "a, b|(c)\r||\r\n|\n0|\r|")) := rfl
  have opens : oddStore.Opens "out.sql" ["w", "out.sql"] true [45] :=
    destination_eq_ok_iff.mp rfl
  refine ⟨insertions_determine.1 .nation oddRecords _ oddStore "rows" "out.sql" _ _ false true [45]
    fit_oddRecords isDelimited_oddRecords found opens (by decide), fun same => ?_⟩
  have fields := insertions_determine.2 .nation .nation [""] []
    (List.forall_mem_singleton.mpr (by decide)) (List.forall_mem_nil _) same
  exact absurd fields.2 (by decide)

end PowerTest
