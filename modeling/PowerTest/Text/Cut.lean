/-!
# Cutting sequences at marks

`cut` splits a sequence at every element that satisfies a test, `once` at the first one, and
`lines` reads a sequence as physical lines. A sequence with `n` marks has `n + 1` pieces, and
joining the pieces with the mark gives the sequence back (`join_cut`).
-/

namespace PowerTest.Text

variable {α : Type}

/-- `cut`, given the elements read since the last mark in reverse. -/
def cutFrom (mark : α → Bool) (current : List α) : List α → List (List α)
  | [] => [current.reverse]
  | first :: rest =>
    if mark first then current.reverse :: cutFrom mark [] rest
    else cutFrom mark (first :: current) rest

/-- The pieces of a sequence between its marks. -/
def cut (mark : α → Bool) (sequence : List α) : List (List α) :=
  cutFrom mark [] sequence

/-- The parts before and after the first mark, if there is a mark. -/
def once (mark : α → Bool) (sequence : List α) : Option (List α × List α) :=
  match sequence.span (!mark ·) with
  | (before, _ :: after) => some (before, after)
  | (_, []) => none

/-- The pieces written one after another with a separator between them. -/
def join (separator : List α) : List (List α) → List α
  | [] => []
  | [piece] => piece
  | piece :: rest => piece ++ separator ++ join separator rest

/-- A sequence without one given element at its end, if it ends in that element. -/
def dropEnd [BEq α] (last : α) (sequence : List α) : List α :=
  match sequence.reverse with
  | [] => []
  | final :: before => if final == last then before.reverse else sequence

/-- The lines among pieces cut at newlines: what follows the last newline is a line only if it is
not empty, and every other piece loses one carriage return at its end. -/
def linesOfPieces [BEq α] (carriageReturn : α) : List (List α) → List (List α)
  | [] => []
  | [last] => if last.isEmpty then [] else [last]
  | piece :: rest => dropEnd carriageReturn piece :: linesOfPieces carriageReturn rest

/-- The physical lines of a sequence, without their line ends. -/
def lines [BEq α] (newline carriageReturn : α) (sequence : List α) : List (List α) :=
  linesOfPieces carriageReturn (cut (· == newline) sequence)

/-- The lines of a text. -/
def textLines (text : String) : List String :=
  (lines '\n' '\r' text.toList).map String.ofList

theorem cutFrom_ne_nil (mark : α → Bool) (current sequence : List α) :
    cutFrom mark current sequence ≠ [] := by
  induction sequence generalizing current with
  | nil => simp [cutFrom]
  | cons first rest ih =>
    simp only [cutFrom]
    split
    · simp
    · exact ih _

theorem cut_ne_nil (mark : α → Bool) (sequence : List α) : cut mark sequence ≠ [] :=
  cutFrom_ne_nil mark [] sequence

theorem join_cons_of_ne_nil (separator piece : List α) {rest : List (List α)} (more : rest ≠ []) :
    join separator (piece :: rest) = piece ++ separator ++ join separator rest := by
  cases rest with
  | nil => exact absurd rfl more
  | cons => rfl

theorem join_cutFrom [DecidableEq α] (separator : α) (current sequence : List α) :
    join [separator] (cutFrom (· == separator) current sequence) = current.reverse ++ sequence := by
  induction sequence generalizing current with
  | nil => simp [cutFrom, join]
  | cons first rest ih =>
    simp only [cutFrom]
    split
    · rename_i same
      rw [join_cons_of_ne_nil _ _ (cutFrom_ne_nil _ _ _), ih]
      simp [beq_iff_eq.mp same]
    · rw [ih]
      simp

/-- Joining the pieces with the mark gives the sequence back. -/
theorem join_cut [DecidableEq α] (separator : α) (sequence : List α) :
    join [separator] (cut (· == separator) sequence) = sequence := by
  simpa [cut] using join_cutFrom separator [] sequence

end PowerTest.Text
