import PowerTest.Proofs.Conversion.Script
import PowerTest.Proofs.Text.Utf8

/-!
# The lines that a conversion reads

A conversion reads the lines of a file without their line ends, and without one more carriage
return (`IsStripped`). A line that is text and not blank holds a record, and a line that is no text
cannot be read. `items_of_isStripped` says that these are the items of a file, and
`statementsOf_texts` and `statementsOf_undecodable` what is written for them.
-/

namespace PowerTest

open Text

/-- The lines of a file, without their line ends and without one more carriage return. -/
def IsStripped (content : Bytes) (lines : List Bytes) : Prop :=
  ∃ found, IsLines 10 13 content found ∧ lines = found.map (dropEnd 13)

/-- The records on lines of text, blank lines left out. -/
def Record.ofLines (texts : List String) : List Record :=
  (texts.filter (· ≠ "")).map Record.ofLine

/-- What a stripped line gives: nothing, a record, or a failure. -/
def Record.ofStripped? (path : String) (line : Bytes) : Option (Except Failure Record) :=
  match decode? line with
  | none => some (.error (.inputOutput path .undecodable))
  | some text => if text = "" then none else some (.ok (Record.ofLine text))

variable {render : Record → List String} {content bad : Bytes} {lines rest : List Bytes}
  {texts : List String}

theorem Record.length_ofLines (texts : List String) :
    (Record.ofLines texts).length = (texts.filter (· ≠ "")).length :=
  List.length_map _

theorem exists_isStripped (content : Bytes) : ∃ lines, IsStripped content lines :=
  ⟨_, _, isLines_lines 10 13 content, rfl⟩

/-- Lines are text as far as one that is not, if there is such a line. -/
theorem exists_texts_append (lines : List Bytes) :
    ∃ (texts : List String) (rest : List Bytes), lines = texts.map encode ++ rest ∧
      ∀ bad ∈ rest.head?, decode? bad = none := by
  rcases decoded_or_stops lines with ⟨texts, rfl⟩ | ⟨texts, bad, rest, rfl, unreadable⟩
  · exact ⟨texts, [], (List.append_nil _).symm, nofun⟩
  · refine ⟨texts, bad :: rest, rfl, fun first head => ?_⟩
    obtain rfl := Option.some.inj head
    exact unreadable

/-- The lines that a conversion reads have no newlines. -/
theorem newline_not_mem_texts (stripped : IsStripped content (texts.map encode ++ rest)) :
    ∀ text ∈ texts, '\n' ∉ text.toList := by
  obtain ⟨found, isLines, same⟩ := stripped
  intro text member within
  have line : encode text ∈ found.map (dropEnd 13) := by
    rw [← same]
    exact List.mem_append_left _ (List.mem_map_of_mem member)
  obtain ⟨physical, foundPhysical, spelled⟩ := List.mem_map.mp line
  have byte : 10 ∈ encode text := by
    rw [encode_eq]
    exact newline_mem_encodeChars.mpr within
  rw [← spelled] at byte
  exact isLines.not_mem physical foundPhysical (dropEnd_subset _ _ byte)

/-- The fields of records have no newlines where their lines have none. -/
theorem newline_not_mem_ofLines (whole : ∀ text ∈ texts, '\n' ∉ text.toList) :
    ∀ record ∈ Record.ofLines texts, ∀ field ∈ record, '\n' ∉ field.toList := by
  intro record member field found within
  obtain ⟨text, kept, rfl⟩ := List.mem_map.mp member
  obtain ⟨piece, foundPiece, rfl⟩ := List.mem_map.mp found
  rw [String.toList_ofList] at within
  exact whole text (List.mem_filter.mp kept).1
    (mem_of_mem_cut (List.dropLast_subset _ foundPiece) within)

/-- A line is text if and only if it is text with a carriage return at its end. -/
theorem decode?_dropEnd (line : Bytes) :
    decode? (dropEnd 13 line) =
      (decode? line).map fun text => String.ofList (dropEnd '\r' text.toList) := by
  cases read : decode? line with
  | some text =>
    obtain rfl := decode?_eq_some_iff.mp read
    rw [Option.map_some, decode?_eq_some_iff, encode_eq, encode_eq, dropEnd_encodeChars,
      String.toList_ofList]
  | none =>
    rw [Option.map_none]
    by_cases ended : line.getLast? = some 13
    · obtain ⟨front, rfl⟩ := List.getLast?_eq_some_iff.mp ended
      rw [dropEnd_concat]
      cases readFront : decode? front with
      | none => rfl
      | some text =>
        obtain rfl := decode?_eq_some_iff.mp readFront
        have whole : encode text ++ [13] = encode (text ++ "\r") := (encode_append text "\r").symm
        rw [whole, decode?_encode] at read
        cases read
    · rw [dropEnd_of_getLast?_ne ended, read]

theorem ofBytes?_eq_ofStripped? (path : String) (line : Bytes) :
    Record.ofBytes? path line = Record.ofStripped? path (dropEnd 13 line) := by
  rw [Record.ofBytes?, Record.ofStripped?, decode?_dropEnd]
  cases decode? line with
  | none => rfl
  | some text => simp [String.ofList_eq_empty_iff]

/-- The items of a file are what its stripped lines give. -/
theorem items_of_isStripped (stripped : IsStripped content lines) (path : String) :
    Record.items path content = lines.filterMap (Record.ofStripped? path) := by
  obtain ⟨found, isLines, rfl⟩ := stripped
  rw [Record.items, Record.physicalLines, isLines.eq_lines, List.filterMap_map]
  exact congrArg found.filterMap (funext (ofBytes?_eq_ofStripped? path))

/-- Lines of text give the records on them. -/
theorem filterMap_ofStripped?_append (path : String) (texts : List String) (rest : List Bytes) :
    (texts.map encode ++ rest).filterMap (Record.ofStripped? path) =
      (Record.ofLines texts).map .ok ++ rest.filterMap (Record.ofStripped? path) := by
  rw [List.filterMap_append]
  congr 1
  induction texts with
  | nil => rfl
  | cons text others ih =>
    rw [List.map_cons, List.filterMap_cons, Record.ofStripped?, decode?_encode, ih]
    by_cases blank : text = ""
    · simp [Record.ofLines, blank]
    · simp [Record.ofLines, blank]

/-- A file whose lines are text gives the statements of all its records. -/
theorem statementsOf_texts (stripped : IsStripped content (texts.map encode)) (path : String) :
    statementsOf render ((Source.file content).items path 1) =
      ((Record.ofLines texts).flatMap render, (Record.ofLines texts).length, none) := by
  have items := filterMap_ofStripped?_append path texts []
  rw [List.append_nil, List.filterMap_nil, ← items_of_isStripped stripped path] at items
  rw [Source.items, statementsOf_untilFailures, items, statementsOf_records_append]
  simp only [statementsOf, List.append_nil, Nat.add_zero]

/-- A file gives the statements of the records before the first line that is no text. -/
theorem statementsOf_undecodable (stripped : IsStripped content (texts.map encode ++ bad :: rest))
    (unreadable : decode? bad = none) (path : String) :
    statementsOf render ((Source.file content).items path 1) =
      ((Record.ofLines texts).flatMap render, (Record.ofLines texts).length,
        some (.inputOutput path .undecodable)) := by
  have items := filterMap_ofStripped?_append path texts (bad :: rest)
  rw [← items_of_isStripped stripped path, List.filterMap_cons, Record.ofStripped?, unreadable]
    at items
  rw [Source.items, statementsOf_untilFailures, items, statementsOf_records_append]
  simp only [statementsOf, List.append_nil, Nat.add_zero]

end PowerTest
