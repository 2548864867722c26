import PowerTest.Conversion

/-!
# Scripts of delimited files

`Converts` says which script is the complete conversion of a file, without reading records one by
one: all lines are text, and the script has the statements of those that are not blank, in order.
A file with a line that is no text has none, and `ConvertsStart` is as far as its conversion gets.
-/

namespace PowerTest

/-- The statements for a record of a table. -/
def insertion (table : Table) (record : Record) : List String :=
  [insertStatement table record]

/-- The record on a line of text, if the line is not blank. -/
def Record.ofText? (line : String) : Option Record :=
  let stripped := Text.dropEnd '\r' line.toList
  if stripped.isEmpty then none else some (Record.ofLine (String.ofList stripped))

/-- The statements of the records on lines of text. -/
def lineStatements (render : Record → List String) (lines : List String) : List String :=
  (lines.filterMap Record.ofText?).flatMap render

/-- The script that is the complete conversion of a file. -/
def Converts (render : Record → List String) (content script : Bytes) : Prop :=
  ∃ lines : List String, Record.physicalLines content = lines.map Text.encode ∧
    script = scriptBytes (lineStatements render lines)

/-- A script of the first few lines of a file. -/
def ConvertsStart (render : Record → List String) (content script : Bytes) : Prop :=
  ∃ (lines : List String) (rest : List Bytes),
    Record.physicalLines content = lines.map Text.encode ++ rest ∧
      script = scriptBytes (lineStatements render lines)

variable {render : Record → List String} {content script other : Bytes}

theorem encode_injective {first second : String} (same : Text.encode first = Text.encode second) :
    first = second := by
  have read := Text.decode?_encode first
  rw [same, Text.decode?_encode] at read
  exact (Option.some.inj read).symm

/-- A file has at most one complete conversion. -/
theorem Converts.unique (first : Converts render content script)
    (second : Converts render content other) : script = other := by
  obtain ⟨lines, found, rfl⟩ := first
  obtain ⟨others, foundOthers, rfl⟩ := second
  have same : lines.map Text.encode = others.map Text.encode := found.symm.trans foundOthers
  rw [(List.map_inj_right fun _ _ => encode_injective).mp same]

theorem Converts.start (whole : Converts render content script) :
    ConvertsStart render content script := by
  obtain ⟨lines, found, rfl⟩ := whole
  exact ⟨lines, [], by rw [found, List.append_nil], rfl⟩

theorem convertsStart_nil (render : Record → List String) (content : Bytes) :
    ConvertsStart render content [] :=
  ⟨[], Record.physicalLines content, rfl, rfl⟩

/-- Lines of bytes are text, all of them or as far as one that is not. -/
theorem decoded_or_stops (pieces : List Bytes) :
    (∃ lines : List String, pieces = lines.map Text.encode) ∨
      ∃ (lines : List String) (bad : Bytes) (rest : List Bytes),
        pieces = lines.map Text.encode ++ bad :: rest ∧ Text.decode? bad = none := by
  induction pieces with
  | nil => exact .inl ⟨[], rfl⟩
  | cons piece others ih =>
    cases read : Text.decode? piece with
    | none => exact .inr ⟨[], piece, others, rfl, read⟩
    | some text =>
      obtain rfl := Text.decode?_eq_some_iff.mp read
      rcases ih with ⟨lines, rfl⟩ | ⟨lines, bad, rest, rfl, unreadable⟩
      · exact .inl ⟨text :: lines, rfl⟩
      · exact .inr ⟨text :: lines, bad, rest, rfl, unreadable⟩

/-! ## Reading records one by one -/

theorem ofBytes?_encode (path line : String) :
    Record.ofBytes? path (Text.encode line) = (Record.ofText? line).map .ok := by
  simp only [Record.ofBytes?, Text.decode?_encode, Record.ofText?]
  split <;> rfl

theorem ofBytes?_of_decode?_eq_none (path : String) {line : Bytes}
    (unreadable : Text.decode? line = none) :
    Record.ofBytes? path line = some (.error (.inputOutput path .undecodable)) := by
  rw [Record.ofBytes?, unreadable]

/-- Reading up to the first failure is enough for the statements. -/
theorem statementsOf_untilFailures (render : Record → List String)
    (items : List (Except Failure Record)) :
    statementsOf render (Source.untilFailures 1 items) = statementsOf render items := by
  induction items with
  | nil => rfl
  | cons item rest ih =>
    cases item with
    | ok record => simp only [Source.untilFailures, statementsOf, ih]
    | error failure => rfl

/-- Records that can be read are counted, and their statements stand before all others. -/
theorem statementsOf_records_append (render : Record → List String) (records : List Record)
    (rest : List (Except Failure Record)) :
    statementsOf render (records.map .ok ++ rest) =
      let later := statementsOf render rest
      (records.flatMap render ++ later.1, records.length + later.2.1, later.2.2) := by
  induction records with
  | nil => simp only [List.map_nil, List.nil_append, List.flatMap_nil, List.length_nil, Nat.zero_add]
  | cons record others ih =>
    simp only [List.map_cons, List.cons_append, statementsOf, ih, List.flatMap_cons,
      List.append_assoc, List.length_cons, Nat.add_right_comm]

theorem filterMap_ofBytes?_append (path : String) (lines : List String) (rest : List Bytes) :
    (lines.map Text.encode ++ rest).filterMap (Record.ofBytes? path) =
      (lines.filterMap Record.ofText?).map .ok ++ rest.filterMap (Record.ofBytes? path) := by
  rw [List.filterMap_append, List.filterMap_map, List.map_filterMap]
  congr 2
  exact funext (ofBytes?_encode path)

theorem statementsOf_lines_append (render : Record → List String) (path : String)
    (lines : List String) (rest : List Bytes) :
    statementsOf render ((lines.map Text.encode ++ rest).filterMap (Record.ofBytes? path)) =
      let later := statementsOf render (rest.filterMap (Record.ofBytes? path))
      (lineStatements render lines ++ later.1,
        (lines.filterMap Record.ofText?).length + later.2.1, later.2.2) := by
  rw [filterMap_ofBytes?_append, statementsOf_records_append, lineStatements]

/-- A file is converted completely, or up to the first line that is no text. -/
theorem statementsOf_file (render : Record → List String) (path : String) (content : Bytes) :
    (∃ statements count,
      statementsOf render ((Source.file content).items path 1) = (statements, count, none) ∧
        Converts render content (scriptBytes statements)) ∨
      ∃ statements count failure,
        statementsOf render ((Source.file content).items path 1) =
            (statements, count, some failure) ∧
          ConvertsStart render content (scriptBytes statements) := by
  simp only [Source.items, statementsOf_untilFailures, Record.items]
  rcases decoded_or_stops (Record.physicalLines content) with
    ⟨lines, found⟩ | ⟨lines, bad, rest, found, unreadable⟩
  · left
    have whole := statementsOf_lines_append render path lines []
    rw [List.append_nil, ← found] at whole
    refine ⟨_, _, whole, lines, found, ?_⟩
    rw [List.filterMap_nil, statementsOf, List.append_nil]
  · right
    have start := statementsOf_lines_append render path lines (bad :: rest)
    rw [← found, List.filterMap_cons, ofBytes?_of_decode?_eq_none path unreadable] at start
    refine ⟨_, _, _, start, lines, bad :: rest, found, ?_⟩
    rw [statementsOf, List.append_nil]

/-- A file that has a complete conversion is converted completely. -/
theorem statementsOf_of_converts (path : String) (whole : Converts render content script) :
    ∃ statements count,
      statementsOf render ((Source.file content).items path 1) = (statements, count, none) ∧
        script = scriptBytes statements := by
  obtain ⟨lines, found, rfl⟩ := whole
  simp only [Source.items, statementsOf_untilFailures, Record.items, found]
  have read := statementsOf_lines_append render path lines []
  rw [List.append_nil] at read
  refine ⟨_, _, read, ?_⟩
  rw [List.filterMap_nil, statementsOf, List.append_nil]

end PowerTest
