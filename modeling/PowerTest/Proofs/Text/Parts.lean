import Mathlib.Data.List.TakeDrop
import Mathlib.Data.List.TakeWhile
import PowerTest.Text.Blank
import PowerTest.Text.Cut

/-!
# Parts of a line

What is left of a text without the blanks around it, and what stands before and after the first
mark, said without the functions that find them: `trim_eq_iff` and `once_eq_some_iff` say that
these find exactly the parts meant.
-/

namespace PowerTest.Text

/-- `inner` is what is left of a text without the blanks around it. -/
structure IsTrimmed (characters inner : List Char) : Prop where
  around : ∃ left right, characters = left ++ inner ++ right ∧
    (∀ character ∈ left, isBlank character = true) ∧ ∀ character ∈ right, isBlank character = true
  first : ∀ character, inner.head? = some character → isBlank character = false
  last : ∀ character, inner.getLast? = some character → isBlank character = false

theorem dropWhile_eq_self_of_head? {mark : Char → Bool} {characters : List Char}
    (first : ∀ character, characters.head? = some character → mark character = false) :
    characters.dropWhile mark = characters := by
  cases characters with
  | nil => rfl
  | cons character rest =>
    rw [List.dropWhile_cons, first character rfl, if_neg Bool.false_ne_true]

theorem head?_dropWhile_false {mark : Char → Bool} {characters : List Char} {character : Char}
    (found : (characters.dropWhile mark).head? = some character) : mark character = false := by
  have stopped := List.head?_dropWhile_not mark characters
  rw [found] at stopped
  simpa only [Bool.not_eq_true] using stopped

theorem isTrimmed_trim (characters : List Char) : IsTrimmed characters (trim characters) where
  around := by
    refine ⟨characters.takeWhile isBlank,
      ((characters.dropWhile isBlank).reverse.takeWhile isBlank).reverse, ?_, ?_, ?_⟩
    · rw [List.append_assoc, trim, ← List.reverse_append, List.takeWhile_append_dropWhile,
        List.reverse_reverse, List.takeWhile_append_dropWhile]
    · intro character member
      exact List.mem_takeWhile_imp member
    · intro character member
      exact List.mem_takeWhile_imp (List.mem_reverse.mp member)
  first := by
    intro character found
    -- The first character left over is also the first one before blanks are taken from the end.
    have kept : (characters.dropWhile isBlank).head? = some character := by
      have ending := List.takeWhile_append_dropWhile (p := isBlank)
        (l := (characters.dropWhile isBlank).reverse)
      have whole := congrArg List.reverse ending
      rw [List.reverse_append, List.reverse_reverse] at whole
      rw [← whole, List.head?_append]
      change (trim characters).head?.or _ = _
      rw [found, Option.some_or]
    exact head?_dropWhile_false kept
  last := by
    intro character found
    rw [trim, List.getLast?_reverse] at found
    exact head?_dropWhile_false found

theorem IsTrimmed.eq_trim {characters inner : List Char} (trimmed : IsTrimmed characters inner) :
    trim characters = inner := by
  obtain ⟨left, right, rfl, blankLeft, blankRight⟩ := trimmed.around
  have lastFirst : ∀ character, inner.reverse.head? = some character →
      isBlank character = false := by
    intro character found
    rw [List.head?_reverse] at found
    exact trimmed.last character found
  rw [trim, List.append_assoc, List.dropWhile_append_of_pos blankLeft]
  cases inner with
  | nil =>
    have gone : right.dropWhile isBlank = [] := List.dropWhile_eq_nil_iff.mpr blankRight
    rw [List.nil_append, gone]
    rfl
  | cons character rest =>
    have stays : (character :: rest ++ right).dropWhile isBlank = character :: rest ++ right :=
      dropWhile_eq_self_of_head? fun _ found => trimmed.first _ found
    have blankEnd : ∀ other ∈ right.reverse, isBlank other = true := by
      intro other member
      exact blankRight other (List.mem_reverse.mp member)
    rw [stays, List.reverse_append, List.dropWhile_append_of_pos blankEnd,
      dropWhile_eq_self_of_head? lastFirst, List.reverse_reverse]

/-- Trimming finds exactly what is left without the blanks around a text. -/
theorem trim_eq_iff {characters inner : List Char} :
    trim characters = inner ↔ IsTrimmed characters inner := by
  constructor
  · rintro rfl
    exact isTrimmed_trim characters
  · exact IsTrimmed.eq_trim

theorem IsTrimmed.subset {characters inner : List Char} (trimmed : IsTrimmed characters inner) :
    inner ⊆ characters := by
  obtain ⟨left, right, rfl, _, _⟩ := trimmed.around
  intro character member
  exact List.mem_append_left _ (List.mem_append_right _ member)

section Once

variable {α : Type} [BEq α] [LawfulBEq α]

/-- Every element of a sequence without the mark is passed over. -/
theorem not_beq_of_not_mem {mark : α} {sequence : List α} (absent : mark ∉ sequence) :
    ∀ element ∈ sequence, (!(element == mark)) = true := by
  intro element member
  have different : element ≠ mark := by
    rintro rfl
    exact absent member
  rw [beq_false_of_ne different, Bool.not_false]

theorem once_append_cons {mark : α} {before : List α} (unmarked : mark ∉ before) (after : List α) :
    once (· == mark) (before ++ mark :: after) = some (before, after) := by
  have passed := not_beq_of_not_mem unmarked
  rw [once, List.span_eq_takeWhile_dropWhile, List.takeWhile_append_of_pos passed,
    List.dropWhile_append_of_pos passed]
  simp only [List.takeWhile_cons, List.dropWhile_cons, beq_self_eq_true, Bool.not_true,
    Bool.false_eq_true, if_false, List.append_nil]

/-- A sequence without the mark is not split. -/
theorem once_eq_none_iff {mark : α} {sequence : List α} :
    once (· == mark) sequence = none ↔ mark ∉ sequence := by
  constructor
  · intro notFound member
    obtain ⟨before, after, rfl, unmarked⟩ := List.eq_append_cons_of_mem member
    rw [once_append_cons unmarked] at notFound
    exact Option.some_ne_none _ notFound
  · intro absent
    rw [once, List.span_eq_takeWhile_dropWhile,
      List.dropWhile_eq_nil_iff.mpr (not_beq_of_not_mem absent)]

/-- A sequence is split around the first mark. -/
theorem once_eq_some_iff {mark : α} {sequence before after : List α} :
    once (· == mark) sequence = some (before, after) ↔
      sequence = before ++ mark :: after ∧ mark ∉ before := by
  constructor
  · intro found
    have member : mark ∈ sequence := by
      by_contra absent
      rw [once_eq_none_iff.mpr absent] at found
      exact Option.some_ne_none _ found.symm
    obtain ⟨left, right, rfl, unmarked⟩ := List.eq_append_cons_of_mem member
    rw [once_append_cons unmarked] at found
    obtain ⟨rfl, rfl⟩ := Prod.mk.inj (Option.some.inj found)
    exact ⟨rfl, unmarked⟩
  · rintro ⟨rfl, unmarked⟩
    exact once_append_cons unmarked after

end Once

end PowerTest.Text
