import PowerTest.Text.Cut

/-!
# Physical lines

`IsLines` says what the lines of a sequence are without reading it from left to right: every
newline ends a line, a carriage return before a newline belongs to the line end, and what follows
the last newline is a line of its own unless nothing does. `lines_eq_iff` says that `lines` finds
exactly these.
-/

namespace PowerTest.Text

variable {α : Type} [BEq α] [LawfulBEq α]

/-- The lines of a sequence. -/
inductive IsLines (newline carriageReturn : α) : List α → List (List α) → Prop
  | none : IsLines newline carriageReturn [] []
  | unended {line : List α} (some : line ≠ []) (whole : newline ∉ line) :
    IsLines newline carriageReturn line [line]
  | ended {line rest : List α} {others : List (List α)} (whole : newline ∉ line)
    (after : IsLines newline carriageReturn rest others) :
    IsLines newline carriageReturn (line ++ newline :: rest) (dropEnd carriageReturn line :: others)

omit [LawfulBEq α] in
/-- A sequence loses the element that it ends in. -/
theorem dropEnd_concat [ReflBEq α] (last : α) (sequence : List α) :
    dropEnd last (sequence ++ [last]) = sequence := by
  simp [dropEnd]

/-- A sequence that ends in another element, or is empty, stays as it is. -/
theorem dropEnd_of_getLast?_ne {last : α} {sequence : List α}
    (other : sequence.getLast? ≠ some last) : dropEnd last sequence = sequence := by
  unfold dropEnd
  rw [List.getLast?_eq_head?_reverse] at other
  cases reversed : sequence.reverse with
  | nil => simpa using reversed.symm
  | cons final before =>
    rw [reversed, List.head?_cons] at other
    have different : (final == last) = false := beq_false_of_ne fun same => other (by rw [same])
    simp only [different, Bool.false_eq_true, if_false]

/-- A sequence that loses its end keeps no other elements than it had. -/
theorem dropEnd_subset (last : α) (sequence : List α) : dropEnd last sequence ⊆ sequence := by
  by_cases ended : sequence.getLast? = some last
  · obtain ⟨front, rfl⟩ := List.getLast?_eq_some_iff.mp ended
    rw [dropEnd_concat]
    exact List.subset_append_left _ _
  · rw [dropEnd_of_getLast?_ne ended]
    exact List.Subset.refl _

omit [BEq α] [LawfulBEq α] in
theorem mem_of_mem_cutFrom {mark : α → Bool} {current sequence piece : List α} {element : α}
    (found : piece ∈ cutFrom mark current sequence) (within : element ∈ piece) :
    element ∈ current ∨ element ∈ sequence := by
  induction sequence generalizing current with
  | nil =>
    obtain rfl := List.mem_singleton.mp found
    exact .inl (List.mem_reverse.mp within)
  | cons first rest ih =>
    rw [cutFrom] at found
    split at found
    · rcases List.mem_cons.mp found with rfl | later
      · exact .inl (List.mem_reverse.mp within)
      · have behind := (ih later).resolve_left List.not_mem_nil
        exact .inr (List.mem_cons_of_mem _ behind)
    · rcases ih found with before | behind
      · rcases List.mem_cons.mp before with rfl | earlier
        · exact .inr List.mem_cons_self
        · exact .inl earlier
      · exact .inr (List.mem_cons_of_mem _ behind)

omit [BEq α] [LawfulBEq α] in
/-- The pieces of a sequence have no other elements than the sequence. -/
theorem mem_of_mem_cut {mark : α → Bool} {sequence piece : List α} {element : α}
    (found : piece ∈ cut mark sequence) (within : element ∈ piece) : element ∈ sequence :=
  (mem_of_mem_cutFrom found within).resolve_left List.not_mem_nil

omit [BEq α] [LawfulBEq α] in
theorem cutFrom_append_of_forall {mark : α → Bool} {current piece : List α}
    (unmarked : ∀ element ∈ piece, mark element = false) (rest : List α) :
    cutFrom mark current (piece ++ rest) = cutFrom mark (piece.reverse ++ current) rest := by
  induction piece generalizing current with
  | nil => rfl
  | cons first others ih =>
    have plain : mark first = false := unmarked first List.mem_cons_self
    rw [List.cons_append, cutFrom, plain, if_neg Bool.false_ne_true,
      ih fun element member => unmarked element (List.mem_cons_of_mem _ member)]
    simp only [List.reverse_cons, List.append_assoc, List.singleton_append]

theorem beq_false_of_not_mem {mark : α} {piece : List α} (unmarked : mark ∉ piece) :
    ∀ element ∈ piece, (element == mark) = false := by
  intro element member
  exact beq_false_of_ne fun same => unmarked (same ▸ member)

/-- A sequence without marks is one piece. -/
theorem cut_of_not_mem {mark : α} {piece : List α} (unmarked : mark ∉ piece) :
    cut (· == mark) piece = [piece] := by
  have whole := @cutFrom_append_of_forall _ _ [] _ (beq_false_of_not_mem unmarked) []
  rwa [List.append_nil, cutFrom, List.append_nil, List.reverse_reverse] at whole

omit [LawfulBEq α] in
theorem cutFrom_append_mark [ReflBEq α] {mark : α} (current first rest : List α) :
    cutFrom (· == mark) current (first ++ mark :: rest) =
      cutFrom (· == mark) current first ++ cut (· == mark) rest := by
  induction first generalizing current with
  | nil => simp [cutFrom, cut]
  | cons element others ih =>
    simp only [List.cons_append, cutFrom]
    split
    · rw [ih, List.cons_append]
    · exact ih _

omit [LawfulBEq α] in
/-- The pieces on both sides of a mark are cut apart from each other. -/
theorem cut_append_mark [ReflBEq α] {mark : α} (first rest : List α) :
    cut (· == mark) (first ++ mark :: rest) = cut (· == mark) first ++ cut (· == mark) rest :=
  cutFrom_append_mark [] first rest

/-- What stands before the first mark is the first piece. -/
theorem cut_append_cons {mark : α} {piece : List α} (unmarked : mark ∉ piece) (rest : List α) :
    cut (· == mark) (piece ++ mark :: rest) = piece :: cut (· == mark) rest := by
  rw [cut_append_mark, cut_of_not_mem unmarked, List.singleton_append]

omit [LawfulBEq α] in
theorem linesOfPieces_cons (carriageReturn : α) (piece : List α) {rest : List (List α)}
    (more : rest ≠ []) :
    linesOfPieces carriageReturn (piece :: rest) =
      dropEnd carriageReturn piece :: linesOfPieces carriageReturn rest := by
  cases rest with
  | nil => exact absurd rfl more
  | cons next others => rfl

omit [LawfulBEq α] in
@[simp] theorem lines_nil (newline carriageReturn : α) : lines newline carriageReturn [] = [] := rfl

/-- What follows the last newline is a line of its own. -/
theorem lines_of_not_mem {newline carriageReturn : α} {line : List α} (some : line ≠ [])
    (whole : newline ∉ line) : lines newline carriageReturn line = [line] := by
  rw [lines, cut_of_not_mem whole, linesOfPieces]
  simp only [List.isEmpty_iff, some, if_false]

/-- What stands before the first newline is the first line, without its line end. -/
theorem lines_append_cons {newline carriageReturn : α} {line : List α} (whole : newline ∉ line)
    (rest : List α) :
    lines newline carriageReturn (line ++ newline :: rest) =
      dropEnd carriageReturn line :: lines newline carriageReturn rest := by
  rw [lines, cut_append_cons whole, linesOfPieces_cons _ _ (cut_ne_nil _ _), lines]

theorem IsLines.eq_lines {newline carriageReturn : α} {sequence : List α} {found : List (List α)}
    (isLines : IsLines newline carriageReturn sequence found) :
    lines newline carriageReturn sequence = found := by
  induction isLines with
  | none => rfl
  | unended some whole => exact lines_of_not_mem some whole
  | ended whole _ ih => rw [lines_append_cons whole, ih]

/-- Lines have no newlines. -/
theorem IsLines.not_mem {newline carriageReturn : α} {sequence : List α} {found : List (List α)}
    (isLines : IsLines newline carriageReturn sequence found) : ∀ line ∈ found, newline ∉ line := by
  induction isLines with
  | none => exact List.forall_mem_nil _
  | unended _ whole => exact List.forall_mem_singleton.mpr whole
  | ended whole _ ih =>
    exact List.forall_mem_cons.mpr ⟨fun member => whole (dropEnd_subset _ _ member), ih⟩

theorem isLines_lines (newline carriageReturn : α) (sequence : List α) :
    IsLines newline carriageReturn sequence (lines newline carriageReturn sequence) := by
  -- The rest of a sequence behind its first newline is shorter, but no tail of it in one step.
  induction length : sequence.length using Nat.strongRecOn generalizing sequence with
  | ind count ih =>
    by_cases ended : newline ∈ sequence
    · obtain ⟨line, rest, rfl, whole⟩ := List.eq_append_cons_of_mem ended
      rw [lines_append_cons whole]
      refine .ended whole (ih rest.length ?_ rest rfl)
      rw [← length, List.length_append, List.length_cons]
      omega
    · cases sequence with
      | nil => exact .none
      | cons first others =>
        rw [lines_of_not_mem (List.cons_ne_nil _ _) ended]
        exact .unended (List.cons_ne_nil _ _) ended

/-- Reading finds exactly the lines of a sequence. -/
theorem lines_eq_iff {newline carriageReturn : α} {sequence : List α} {found : List (List α)} :
    lines newline carriageReturn sequence = found ↔
      IsLines newline carriageReturn sequence found := by
  constructor
  · rintro rfl
    exact isLines_lines newline carriageReturn sequence
  · exact IsLines.eq_lines

/-- Behind a newline, or at its start, a sequence is read afresh. -/
theorem lines_append {newline carriageReturn : α} {before : List α}
    (complete : ∀ last ∈ before.getLast?, last = newline) (rest : List α) :
    lines newline carriageReturn (before ++ rest) =
      lines newline carriageReturn before ++ lines newline carriageReturn rest := by
  have isLines := isLines_lines newline carriageReturn before
  generalize lines newline carriageReturn before = found at isLines
  induction isLines with
  | none => rfl
  | @unended line some whole =>
    have ends := complete _ (List.getLast_mem_getLast? some)
    exact absurd (ends ▸ List.getLast_mem some) whole
  | @ended line after others whole _ ih =>
    have later : ∀ last ∈ after.getLast?, last = newline := by
      intro last member
      refine complete last ?_
      rw [List.getLast?_append, List.getLast?_cons, Option.mem_def.mp member]
      rfl
    rw [List.append_assoc, List.cons_append, lines_append_cons whole, ih later, List.cons_append]

/-- Pieces that a newline ends each are the lines, without a carriage return at their ends. -/
theorem lines_flatMap {newline carriageReturn : α} {pieces : List (List α)}
    (whole : ∀ piece ∈ pieces, newline ∉ piece) :
    lines newline carriageReturn (pieces.flatMap (· ++ [newline])) =
      pieces.map (dropEnd carriageReturn) := by
  induction pieces with
  | nil => rfl
  | cons piece rest ih =>
    obtain ⟨wholePiece, wholeRest⟩ := List.forall_mem_cons.mp whole
    rw [List.flatMap_cons, List.append_assoc, List.singleton_append, lines_append_cons wholePiece,
      ih wholeRest, List.map_cons]

/-- Pieces that a mark ends each are cut apart, and nothing follows the last mark. -/
theorem cut_flatMap {mark : α} {pieces : List (List α)} (whole : ∀ piece ∈ pieces, mark ∉ piece) :
    cut (· == mark) (pieces.flatMap (· ++ [mark])) = pieces ++ [[]] := by
  induction pieces with
  | nil => rfl
  | cons piece rest ih =>
    obtain ⟨wholePiece, wholeRest⟩ := List.forall_mem_cons.mp whole
    rw [List.flatMap_cons, List.append_assoc, List.singleton_append, cut_append_cons wholePiece,
      ih wholeRest, List.cons_append]

/-- Only nothing has no lines. -/
theorem lines_eq_nil_iff {newline carriageReturn : α} {sequence : List α} :
    lines newline carriageReturn sequence = [] ↔ sequence = [] := by
  rw [lines_eq_iff]
  constructor
  · intro isLines
    cases isLines
    rfl
  · rintro rfl
    exact .none

end PowerTest.Text
