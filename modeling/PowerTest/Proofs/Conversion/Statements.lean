import PowerTest.Conversion
import PowerTest.Proofs.Text.Lines

/-!
# Scripts as text

A script is the bytes of a text that has its statements as lines (`scriptBytes_eq_encode`), and the
statements are read back from these lines: a statement has no newline of its own, and what follows
its first words is found again (`afterStart_append`).
-/

namespace PowerTest

open Text

/-- A record without quotes in its fields. -/
def Record.Unquoted (record : Record) : Prop :=
  ∀ field ∈ record, '\'' ∉ field.toList

theorem toList_quoted (field : String) :
    (quoted field).toList = '\'' :: (field.toList ++ ['\'']) := by
  rw [quoted, String.toList_append, String.toList_append]
  rfl

theorem newline_not_mem_quoted {field : String} (whole : '\n' ∉ field.toList) :
    '\n' ∉ (quoted field).toList := by
  rw [toList_quoted]
  simpa using whole

theorem toList_concatenation (texts : List String) :
    (concatenation texts).toList = texts.flatMap String.toList := by
  induction texts with
  | nil => rfl
  | cons text rest ih =>
    rw [List.flatMap_cons, ← ih]
    exact String.toList_append

theorem mem_commaSeparated {texts : List String} {character : Char}
    (member : character ∈ (commaSeparated texts).toList) :
    character ∈ [',', ' '] ∨ ∃ text ∈ texts, character ∈ text.toList := by
  induction texts with
  | nil => cases member
  | cons text rest ih =>
    cases rest with
    | nil => exact .inr ⟨text, List.mem_singleton_self text, member⟩
    | cons next others =>
      simp only [commaSeparated, String.toList_append, List.mem_append] at member
      rcases member with (within | between) | later
      · exact .inr ⟨text, List.mem_cons_self, within⟩
      · exact .inl between
      · refine (ih later).imp_right ?_
        rintro ⟨other, found, within⟩
        exact ⟨other, List.mem_cons_of_mem text found, within⟩

/-- The text of statements, each on a line of its own. -/
def scriptText (statements : List String) : String :=
  concatenation (statements.map (· ++ "\n"))

theorem scriptBytes_eq_encode (statements : List String) :
    scriptBytes statements = encode (scriptText statements) := by
  induction statements with
  | nil => rfl
  | cons statement rest ih =>
    have spelled : scriptText (statement :: rest) = statement ++ "\n" ++ scriptText rest := rfl
    rw [spelled, encode_append, encode_append, ← ih, scriptBytes, List.flatMap_cons]
    rfl

theorem toList_scriptText (statements : List String) :
    (scriptText statements).toList = (statements.map String.toList).flatMap (· ++ ['\n']) := by
  rw [scriptText, toList_concatenation, List.flatMap_map, List.flatMap_map]
  refine congrArg (statements.flatMap ·) (funext fun statement => ?_)
  exact String.toList_append

/-- The lines of a script are its statements. -/
theorem textLines_scriptText {statements : List String}
    (whole : ∀ statement ∈ statements, '\n' ∉ statement.toList)
    (closed : ∀ statement ∈ statements, statement.toList.getLast? ≠ some '\r') :
    textLines (scriptText statements) = statements := by
  rw [textLines, toList_scriptText, lines_flatMap (List.forall_mem_map.mpr whole), List.map_map,
    List.map_map]
  refine (List.map_congr_left fun statement member => ?_).trans (List.map_id statements)
  rw [Function.comp_apply, Function.comp_apply, dropEnd_of_getLast?_ne (closed statement member),
    String.ofList_toList, id]

/-- What follows the first words of a text, if these are its first words. -/
def afterStart (start : String) (characters : List Char) : Option (List Char) :=
  if start.toList <+: characters then some (characters.drop start.toList.length) else none

theorem afterStart_append (start : String) (rest : List Char) :
    afterStart start (start.toList ++ rest) = some rest := by
  rw [afterStart, if_pos (List.prefix_append _ _), List.drop_left]

end PowerTest
