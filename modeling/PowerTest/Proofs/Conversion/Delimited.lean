import PowerTest.Proofs.Conversion.Reading
import PowerTest.Proofs.Conversion.Statements

/-!
# Delimited files

A record is written with a bar behind each of its fields, so the line ends in a bar and no carriage
return of a field is taken for a part of the line end. `IsDelimited` says which texts hold records,
a line each, and `isStripped_of_isDelimited` that a conversion reads exactly their lines.
-/

namespace PowerTest

open Text

namespace Record

variable {record : Record}

/-- The line of a record: each field has a bar behind it. -/
def delimited (record : Record) : String :=
  concatenation (record.map (· ++ "|"))

theorem toList_delimited_cons (field : String) (rest : Record) :
    (delimited (field :: rest)).toList = field.toList ++ '|' :: rest.delimited.toList := by
  simp [delimited, toList_concatenation]

/-- The line of a record gives its fields back, whatever stands behind its last bar. -/
theorem ofLine_delimited_append (bars : ∀ field ∈ record, '|' ∉ field.toList) {rest : String}
    (whole : '|' ∉ rest.toList) : ofLine (record.delimited ++ rest) = record := by
  simp only [ofLine, delimiter, String.toList_append]
  induction record with
  | nil =>
    rw [delimited, List.map_nil, toList_concatenation, List.flatMap_nil, List.nil_append,
      cut_of_not_mem whole]
    rfl
  | cons field others ih =>
    rw [List.forall_mem_cons] at bars
    rw [toList_delimited_cons, List.append_assoc, List.cons_append, cut_append_cons bars.1,
      List.dropLast_cons_of_ne_nil (cut_ne_nil _ _), List.map_cons, String.ofList_toList, ih bars.2]

/-- The line of a record gives its fields back. -/
theorem ofLine_delimited (bars : ∀ field ∈ record, '|' ∉ field.toList) :
    ofLine record.delimited = record := by
  have alone : ofLine (record.delimited ++ "") = record :=
    ofLine_delimited_append bars List.not_mem_nil
  rwa [String.append_empty] at alone

theorem getLast?_delimited (some : record ≠ []) : record.delimited.toList.getLast? = .some '|' := by
  induction record with
  | nil => exact absurd rfl some
  | cons field rest ih =>
    rw [toList_delimited_cons]
    cases rest with
    | nil => exact List.getLast?_concat
    | cons next others =>
      have last := ih (List.cons_ne_nil next others)
      rw [List.getLast?_append, List.getLast?_cons, last]
      rfl

theorem mem_delimited {character : Char} (member : character ∈ record.delimited.toList) :
    character = '|' ∨ ∃ field ∈ record, character ∈ field.toList := by
  induction record with
  | nil => cases member
  | cons field rest ih =>
    rw [toList_delimited_cons, List.mem_append, List.mem_cons] at member
    rcases member with within | bar | later
    · exact .inr ⟨field, List.mem_cons_self, within⟩
    · exact .inl bar
    · refine (ih later).imp_right ?_
      rintro ⟨other, found, within⟩
      exact ⟨other, List.mem_cons_of_mem field found, within⟩

end Record

/-- A text that holds records, a line each. Every line ends in a newline, with or without a carriage
return before it, and the last one may not end at all. -/
inductive IsDelimited : List Record → String → Prop
  | none : IsDelimited [] ""
  | unended (record : Record) : IsDelimited [record] record.delimited
  | ended (record : Record) {others : List Record} {text lineEnd : String}
    (either : lineEnd = "\n" ∨ lineEnd = "\r\n") (rest : IsDelimited others text) :
    IsDelimited (record :: others) (record.delimited ++ lineEnd ++ text)

/-- A record that a line can hold. -/
structure Record.Writable (record : Record) : Prop where
  some : record ≠ []
  bars : ∀ field ∈ record, '|' ∉ field.toList
  lines : ∀ field ∈ record, '\n' ∉ field.toList

namespace Record.Writable

variable {record : Record} (writable : record.Writable)

include writable

theorem toList_ne_nil : record.delimited.toList ≠ [] := by
  intro empty
  have last := getLast?_delimited writable.some
  rw [empty] at last
  cases last

theorem newline_not_mem : '\n' ∉ record.delimited.toList := by
  intro member
  rcases mem_delimited member with bar | ⟨field, found, within⟩
  · cases bar
  · exact writable.lines field found within

theorem dropEnd_eq : dropEnd '\r' record.delimited.toList = record.delimited.toList := by
  refine dropEnd_of_getLast?_ne ?_
  rw [getLast?_delimited writable.some]
  decide

end Record.Writable

/-- The lines of a text that holds records are the lines of the records. -/
theorem isLines_of_isDelimited {records : List Record} {text : String}
    (delimited : IsDelimited records text) (writable : ∀ record ∈ records, record.Writable) :
    IsLines '\n' '\r' text.toList (records.map fun record => record.delimited.toList) := by
  induction delimited with
  | none => exact .none
  | unended record =>
    have only := writable record (List.mem_singleton_self record)
    exact .unended only.toList_ne_nil only.newline_not_mem
  | @ended record others text lineEnd either _ ih =>
    obtain ⟨first, later⟩ := List.forall_mem_cons.mp writable
    rw [List.map_cons, String.toList_append, String.toList_append]
    rcases either with rfl | rfl
    · have line := IsLines.ended first.newline_not_mem (ih later)
      rw [first.dropEnd_eq] at line
      rw [List.append_assoc]
      exact line
    · have whole : '\n' ∉ record.delimited.toList ++ ['\r'] := by
        simpa using first.newline_not_mem
      have line := IsLines.ended whole (ih later)
      rw [dropEnd_concat] at line
      rw [List.append_assoc]
      rw [List.append_assoc] at line
      exact line

/-- A conversion reads the lines of the records from a text that holds them. -/
theorem isStripped_of_isDelimited {records : List Record} {text : String}
    (delimited : IsDelimited records text) (writable : ∀ record ∈ records, record.Writable) :
    IsStripped (encode text) ((records.map Record.delimited).map encode) := by
  refine ⟨_, encode_eq text ▸ isLines_encodeChars (isLines_of_isDelimited delimited writable), ?_⟩
  rw [List.map_map, List.map_map, List.map_map]
  refine List.map_congr_left fun record member => ?_
  simp only [Function.comp_apply]
  rw [dropEnd_encodeChars, (writable record member).dropEnd_eq, encode_eq]

/-- The lines of records hold these records. -/
theorem ofLines_delimited {records : List Record} (writable : ∀ record ∈ records, record.Writable) :
    Record.ofLines (records.map Record.delimited) = records := by
  have kept : (records.map Record.delimited).filter (· ≠ "") = records.map Record.delimited := by
    rw [List.filter_eq_self, List.forall_mem_map]
    intro record member
    refine decide_eq_true fun blank => (writable record member).toList_ne_nil ?_
    rw [blank]
    rfl
  rw [Record.ofLines, kept, List.map_map]
  refine (List.map_congr_left fun record member => ?_).trans (List.map_id records)
  exact Record.ofLine_delimited (writable record member).bars

end PowerTest
