import PowerTest.Yaml.Printer

/-!
# Gaps between the parts of a scalar

A gap is read as the blanks in it, or as the breaks in it if it has one; blanks after a break are
lost. What is written has only breaks that are kept as they are.
-/

namespace PowerTest.Yaml

variable {text after : List Char} {line column index limit : Nat}

/-! ## Characters -/

theorem isSeparator_of_isBreak {character : Char} (broken : isBreak character = true) :
    isSeparator character = true := by
  rw [isSeparator, broken, Bool.or_true]

/-- The breaks that are written and read as they are. -/
def Kept (character : Char) : Prop :=
  character = '\n' ∨ character = '\u2028' ∨ character = '\u2029'

theorem kept_of_isPrintable {character : Char} (printable : isPrintable character = true)
    (broken : isBreak character = true) : Kept character := by
  simp only [isBreak, Bool.or_eq_true, beq_iff_eq] at broken
  rcases broken with (((newline | carriage) | next) | line) | paragraph
  · exact .inl newline
  · subst carriage
    exact absurd printable (by decide)
  · subst next
    exact absurd printable (by decide)
  · exact .inr (.inl line)
  · exact .inr (.inr paragraph)

/-- A separator that can be written as it is and breaks no line is a blank. -/
theorem eq_blank_of_isPrintable {character : Char} (printable : isPrintable character = true)
    (separator : isSeparator character = true) (unbroken : isBreak character = false) :
    character = ' ' := by
  rw [isSeparator, unbroken, Bool.or_false, isSpaceOrTab, Bool.or_eq_true, beq_iff_eq,
    beq_iff_eq] at separator
  rcases separator with blank | tab
  · exact blank
  · subst tab
    exact absurd printable (by decide)

/-! ## Runs of characters -/

/-- The run at the start of a text whose characters pass a test, and what follows it. -/
theorem exists_span (test : Char → Bool) (text : List Char) :
    ∃ run left, text = run ++ left ∧ (∀ character ∈ run, test character = true) ∧
      ∀ character ∈ left.head?, test character = false := by
  induction text with
  | nil => exact ⟨[], [], rfl, List.forall_mem_nil _, fun _ member => by cases member⟩
  | cons first rest ih =>
    by_cases passes : test first = true
    · obtain ⟨run, left, rfl, all, stop⟩ := ih
      exact ⟨first :: run, left, rfl, List.forall_mem_cons.mpr ⟨passes, all⟩, stop⟩
    · refine ⟨[], first :: rest, rfl, List.forall_mem_nil _, fun character member => ?_⟩
      cases member
      exact Bool.eq_false_iff.mpr passes

/-- The blanks at the start of a text. -/
theorem exists_indent (text : List Char) :
    ∃ count left, text = indent count ++ left ∧ ∀ character ∈ left.head?, character ≠ ' ' := by
  obtain ⟨run, left, rfl, all, stop⟩ := exists_span (· == ' ') text
  refine ⟨run.length, left, ?_, fun character member => ?_⟩
  · rw [indent, ← List.eq_replicate_of_mem fun character member => beq_iff_eq.mp (all _ member)]
  · exact beq_eq_false_iff_ne.mp (stop character member)

/-- The blanks of a line's indentation, and of the line itself. -/
theorem takeWhile_indent (count : Nat) (rest : List Char) :
    (indent count ++ rest).takeWhile (· == ' ') = indent count ++ rest.takeWhile (· == ' ') :=
  List.takeWhile_append_of_pos fun _ member => beq_iff_eq.mpr (List.eq_of_mem_replicate member)

theorem takeWhile_eq_nil {rest : List Char} (blank : ∀ character ∈ rest.head?, character ≠ ' ') :
    rest.takeWhile (· == ' ') = [] := by
  cases rest with
  | nil => rfl
  | cons first rest => exact List.takeWhile_cons_of_neg (by simpa using blank first rfl)

/-! ## Places -/

/-- A text that does not start with a separator. -/
def NoGap (text : List Char) : Prop := ∀ character ∈ text.head?, isSeparator character = false

theorem noGap_cons {character : Char} {rest : List Char}
    (starts : isSeparator character = false) : NoGap (character :: rest) := by
  intro other member
  cases member
  exact starts

namespace Cursor

theorem advance_append (text after : List Char) (line column index : Nat) :
    advance ⟨text ++ after, line, column, index⟩ text.length =
      ⟨after, line, column + text.length, index + text.length⟩ := by
  rw [advance, List.drop_left]

theorem advance_indent (count : Nat) (after : List Char) (line column index : Nat) :
    advance ⟨indent count ++ after, line, column, index⟩ count =
      ⟨after, line, column + count, index + count⟩ := by
  have place := advance_append (indent count) after line column index
  rwa [indent, List.length_replicate] at place

theorem satisfies_of_noGap (none : NoGap after) :
    (⟨after, line, column, index⟩ : Cursor).satisfies 0 isSpaceOrTab = false := by
  cases after with
  | nil => rfl
  | cons first rest => exact (Bool.or_eq_false_iff.mp (none first rfl)).1

theorem atBreak_of_noGap (none : NoGap after) :
    (⟨after, line, column, index⟩ : Cursor).atBreak = false := by
  cases after with
  | nil => rfl
  | cons first rest => exact (Bool.or_eq_false_iff.mp (none first rfl)).2

/-- The breaks that are kept are taken as they are. -/
theorem takeBreak_kept {character : Char} (kept : Kept character) :
    takeBreak ⟨character :: after, line, column, index⟩ =
      ([character], ⟨after, line + 1, 0, index + 1⟩) := by
  rcases kept with rfl | rfl | rfl <;> rfl

/-- No mark that bounds a document stands inside a line. -/
theorem atDocumentBound_of_pos (inside : 0 < column) :
    (⟨text, line, column, index⟩ : Cursor).atDocumentBound = false := by
  have away : (column == 0) = false := beq_eq_false_iff_ne.mpr (Nat.ne_of_gt inside)
  simp only [atDocumentBound, atDocumentMark, away, Bool.false_and, Bool.or_self]

theorem atEnd_append (text : List Char) (character : Char) (after : List Char)
    (line column index : Nat) :
    (⟨text ++ character :: after, line, column, index⟩ : Cursor).atEnd = false := by
  cases text <;> rfl

end Cursor

/-! ## Gaps -/

namespace Gap

/-- A gap with blanks after it. -/
def withBlanks (gap : Gap) (count : Nat) : Gap :=
  if gap.broken then gap else { gap with blanks := gap.blanks ++ indent count }

theorem withBlanks_succ (gap : Gap) (count : Nat) :
    (gap.withBlanks 1).withBlanks count = gap.withBlanks (count + 1) := by
  obtain ⟨blanks, broken, first, more⟩ := gap
  cases broken with
  | true => rfl
  | false => exact congrArg (Gap.mk · false first more) (List.append_assoc _ _ _)

theorem read?_noGap (none : NoGap after) (fuel : Nat) (gap : Gap) :
    read? limit fuel gap ⟨after, line, column, index⟩ =
      some (gap, ⟨after, line, column, index⟩) := by
  cases fuel with
  | zero => rfl
  | succ fuel =>
    rw [read?, Cursor.satisfies_of_noGap none, Cursor.atBreak_of_noGap none]
    rfl

/-- Blanks are read one after the other. -/
theorem read?_blanks (none : NoGap after) {fuel count : Nat} (enough : count ≤ fuel) (gap : Gap)
    (line column index : Nat) :
    read? limit fuel gap ⟨indent count ++ after, line, column, index⟩ =
      some (gap.withBlanks count, ⟨after, line, column + count, index + count⟩) := by
  induction count generalizing fuel gap column index with
  | zero =>
    have same : gap.withBlanks 0 = gap := by
      unfold withBlanks
      split
      · rfl
      · rw [indent, List.replicate_zero, List.append_nil]
    rw [same]
    exact read?_noGap none fuel gap
  | succ count ih =>
    obtain ⟨fuel, rfl⟩ : ∃ less, fuel = less + 1 := ⟨fuel - 1, by omega⟩
    have next := ih (Nat.le_of_succ_le_succ enough) (gap.withBlanks 1) (column + 1) (index + 1)
    rw [withBlanks_succ, Nat.add_assoc, Nat.add_assoc, Nat.add_comm 1] at next
    rw [← next, indent, List.replicate_succ, List.cons_append, read?]
    have tab : (gap.broken && decide (column < limit) &&
        Cursor.isAt ⟨' ' :: (List.replicate count ' ' ++ after), line, column, index⟩ '\t') =
          false := Bool.and_false _
    rw [tab]
    rfl

/-- A break is read into a gap. -/
theorem read?_break {character : Char} (kept : Kept character) (fuel : Nat) (gap : Gap) :
    read? limit (fuel + 1) gap ⟨character :: after, line, column, index⟩ =
      read? limit fuel
        (if gap.broken then { gap with moreBreaks := gap.moreBreaks ++ [character] }
          else { gap with blanks := [], broken := true, firstBreak := [character] })
        ⟨after, line + 1, 0, index + 1⟩ := by
  rcases kept with rfl | rfl | rfl <;> rfl

/-- Breaks and the blanks behind them are read into a gap that has a break. -/
theorem read?_breaks (none : NoGap after) {breaks : List Char}
    (kept : ∀ character ∈ breaks, Kept character) {fuel count : Nat}
    (enough : breaks.length + count ≤ fuel) (first more : List Char) (line index : Nat) :
    read? limit fuel ⟨[], true, first, more⟩ ⟨breaks ++ (indent count ++ after), line, 0, index⟩ =
      some (⟨[], true, first, more ++ breaks⟩,
        ⟨after, line + breaks.length, count, index + (breaks.length + count)⟩) := by
  induction breaks generalizing fuel more line index with
  | nil =>
    rw [List.length_nil, Nat.zero_add] at enough
    simp only [List.nil_append, List.append_nil, List.length_nil, Nat.add_zero, Nat.zero_add]
    rw [read?_blanks none enough, Nat.zero_add]
    rfl
  | cons character breaks ih =>
    rw [List.length_cons] at enough
    obtain ⟨fuel, rfl⟩ : ∃ less, fuel = less + 1 := ⟨fuel - 1, by omega⟩
    have rest := ih (fun other member => kept other (List.mem_cons_of_mem _ member))
      (show breaks.length + count ≤ fuel by omega) (more ++ [character]) (line + 1) (index + 1)
    rw [List.cons_append, read?_break (kept character List.mem_cons_self)]
    simp only [if_true]
    rw [rest]
    simp only [List.append_assoc, List.cons_append, List.nil_append, List.length_cons]
    congr 3 <;> omega

/-- The gap of some breaks, with blanks behind them. -/
theorem read?_lines (none : NoGap after) {character : Char} {breaks : List Char}
    (kept : ∀ other ∈ character :: breaks, Kept other) {fuel count : Nat}
    (enough : breaks.length + count < fuel) (line column index : Nat) :
    read? limit fuel Gap.none
        ⟨character :: (breaks ++ (indent count ++ after)), line, column, index⟩ =
      some (⟨[], true, [character], breaks⟩,
        ⟨after, line + (breaks.length + 1), count, index + (breaks.length + count + 1)⟩) := by
  obtain ⟨fuel, rfl⟩ : ∃ less, fuel = less + 1 := ⟨fuel - 1, by omega⟩
  rw [read?_break (kept character List.mem_cons_self)]
  simp only [Gap.none, Bool.false_eq_true, if_false]
  rw [read?_breaks none (fun other member => kept other (List.mem_cons_of_mem _ member))
    (Nat.le_of_lt_succ enough), List.nil_append]
  congr 3 <;> omega

/-- The gap between two words. -/
theorem read?_indent (none : NoGap after) {fuel count : Nat} (enough : count < fuel)
    (line column index : Nat) :
    read? limit fuel Gap.none ⟨' ' :: (indent count ++ after), line, column, index⟩ =
      some (⟨indent (count + 1), false, [], []⟩,
        ⟨after, line, column + (count + 1), index + (count + 1)⟩) :=
  read?_blanks none enough Gap.none line column index

end Gap

end PowerTest.Yaml
