import Mathlib.Data.List.DropRight
import PowerTest.Proofs.Conversion.Delimited

/-!
# The fields of a line

Every line is the line of one record with a text without bars behind it, its terminator, and of one
record only: `ofLine_dropsTerminator` says that reading a line and writing a record with a
terminator are inverse to each other, on all lines and on all records that a line can hold.
-/

namespace PowerTest.Record

open Text

variable {record : Record} {rest : String}

/-- What stands behind the last bar of a line; of a line without bars, all of it. -/
def terminator (line : String) : String :=
  String.ofList (line.toList.rtakeWhile (· != '|'))

/-- A text without bars is the terminator of the line that it ends. -/
theorem terminator_delimited_append (record : Record) (whole : '|' ∉ rest.toList) :
    terminator (record.delimited ++ rest) = rest := by
  have unmarked : ∀ character ∈ rest.toList.reverse, (character != '|') = true := by
    intro character member
    exact bne_iff_ne.mpr fun same => whole (List.mem_reverse.mp (same ▸ member))
  have stops : record.delimited.toList.reverse.takeWhile (· != '|') = [] := by
    cases record with
    | nil => rfl
    | cons field others =>
      have last := getLast?_delimited (List.cons_ne_nil field others)
      obtain ⟨front, ends⟩ := List.getLast?_eq_some_iff.mp last
      rw [ends, List.reverse_concat]
      exact List.takeWhile_cons_of_neg (by decide)
  rw [terminator, List.rtakeWhile, String.toList_append, List.reverse_append,
    List.takeWhile_append_of_pos unmarked, stops, List.append_nil, List.reverse_reverse,
    String.ofList_toList]

/-- The line of a record has a bar for each field. -/
theorem count_delimited (bars : ∀ field ∈ record, '|' ∉ field.toList) :
    record.delimited.toList.count '|' = record.length := by
  induction record with
  | nil => rfl
  | cons field others ih =>
    rw [List.forall_mem_cons] at bars
    rw [toList_delimited_cons, List.count_append, List.count_eq_zero_of_not_mem bars.1,
      List.count_cons_self, ih bars.2, List.length_cons, Nat.zero_add]

/-- Every line is the line of a record with a text without bars behind it. -/
theorem exists_delimited_append (line : String) :
    ∃ (record : Record) (rest : String), (∀ field ∈ record, '|' ∉ field.toList) ∧
      '|' ∉ rest.toList ∧ line = record.delimited ++ rest := by
  suffices spelled : ∀ characters : List Char, ∃ (record : Record) (rest : String),
      (∀ field ∈ record, '|' ∉ field.toList) ∧ '|' ∉ rest.toList ∧
        characters = record.delimited.toList ++ rest.toList by
    obtain ⟨record, rest, bars, whole, same⟩ := spelled line.toList
    exact ⟨record, rest, bars, whole, String.toList_injective (by rw [same, String.toList_append])⟩
  intro characters
  induction characters with
  | nil => exact ⟨[], "", List.forall_mem_nil _, List.not_mem_nil, rfl⟩
  | cons character others ih =>
    obtain ⟨record, rest, bars, whole, rfl⟩ := ih
    by_cases bar : character = '|'
    · refine ⟨"" :: record, rest, List.forall_mem_cons.mpr ⟨List.not_mem_nil, bars⟩, whole, ?_⟩
      rw [toList_delimited_cons, bar]
      rfl
    -- Another character belongs to the first field, or to the terminator if there is no field.
    · have longer : ∀ {text : String}, '|' ∉ text.toList →
          '|' ∉ (String.ofList (character :: text.toList)).toList := by
        intro text free
        rw [String.toList_ofList]
        exact List.not_mem_cons_of_ne_of_not_mem (Ne.symm bar) free
      cases record with
      | nil => exact ⟨[], _, List.forall_mem_nil _, longer whole, by rw [String.toList_ofList]; rfl⟩
      | cons field fields =>
        rw [List.forall_mem_cons] at bars
        refine ⟨String.ofList (character :: field.toList) :: fields, rest,
          List.forall_mem_cons.mpr ⟨longer bars.1, bars.2⟩, whole, ?_⟩
        rw [toList_delimited_cons, toList_delimited_cons, String.toList_ofList]
        rfl

/-- **Reading a line drops exactly its terminator.** Fields without bars, a bar behind each, and a
text without bars give the fields back. Every line gives fields without bars, one for each bar, and
they and the terminator give the line back; a line without bars gives none. -/
theorem ofLine_dropsTerminator :
    (∀ (record : Record) (rest : String), (∀ field ∈ record, '|' ∉ field.toList) →
      '|' ∉ rest.toList → ofLine (record.delimited ++ rest) = record) ∧
    ∀ line : String,
      (∀ field ∈ ofLine line, '|' ∉ field.toList) ∧
      (ofLine line).length = line.toList.count '|' ∧
      (ofLine line).delimited ++ terminator line = line ∧
      ('|' ∉ line.toList → ofLine line = []) := by
  refine ⟨fun record rest bars whole => ofLine_delimited_append bars whole, fun line => ?_⟩
  obtain ⟨record, rest, bars, whole, rfl⟩ := exists_delimited_append line
  have count : (record.delimited ++ rest).toList.count '|' = record.length := by
    rw [String.toList_append, List.count_append, count_delimited bars,
      List.count_eq_zero_of_not_mem whole, Nat.add_zero]
  rw [ofLine_delimited_append bars whole, terminator_delimited_append record whole]
  refine ⟨bars, count.symm, rfl, fun none => ?_⟩
  rw [List.count_eq_zero_of_not_mem none] at count
  exact List.eq_nil_of_length_eq_zero count.symm

/-- Empty fields at both ends and a terminator that is no field, and a line without bars. -/
theorem ofLine_dropsTerminator_gaps :
    ofLine "|a||x" = ["", "a", ""] ∧ delimited ["", "a", ""] ++ terminator "|a||x" = "|a||x" ∧
      ofLine "only" = [] :=
  ⟨ofLine_dropsTerminator.1 ["", "a", ""] "x" (by decide) (by decide),
    (ofLine_dropsTerminator.2 "|a||x").2.2.1, (ofLine_dropsTerminator.2 "only").2.2.2 (by decide)⟩

end PowerTest.Record
