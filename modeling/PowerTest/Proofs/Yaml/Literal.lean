import PowerTest.Proofs.Yaml.Gaps

/-!
# Literal blocks that are read

The lines of a literal block are indented by a known number of blanks. Empty lines and the breaks
of the others are collected until a line is indented less, and the mark in the block's header tells
how many of the breaks at the end belong to the text (`readBlock?_literal`).
-/

namespace PowerTest.Yaml

variable {text after : List Char} {width count line index : Nat}

/-! ## Lines -/

/-- A text with a break at its end. -/
def closeLine (text : List Char) : List Char :=
  if text.getLast?.any isBreak then text else text ++ ['\n']

theorem literalLines_newline (width : Nat) (afterBreak : Bool) (text : List Char) :
    literalLines width afterBreak (text ++ ['\n']) =
      literalLines width afterBreak text ++ ['\n'] := by
  induction text generalizing afterBreak with
  | nil => rfl
  | cons first rest ih =>
    rw [List.cons_append, literalLines, literalLines]
    split
    · rw [ih, List.cons_append]
    · rw [ih, List.append_assoc, List.cons_append]

theorem literalLines_closeLine (width : Nat) (text : List Char) :
    literalLines width true text ++ (if text.getLast?.any isBreak then [] else ['\n']) =
      literalLines width true (closeLine text) := by
  unfold closeLine
  split
  · rw [List.append_nil]
  · rw [literalLines_newline]

/-- Where a block is read on: at a line of it, or behind it. -/
inductive AtBlock (width count : Nat) (after : List Char) : List Char → Cursor → Prop
  | done (line index : Nat) : AtBlock width count after [] ⟨after, line, count, index⟩
  | line {first : Char} (unbroken : isBreak first = false) (rest : List Char)
    (line index : Nat) :
    AtBlock width count after (first :: rest)
      ⟨literalLines width false (first :: rest) ++ (indent count ++ after), line, width, index⟩

/-- The indentation of a line is read if the line does not start with a break. -/
theorem readBlockBreaks?_indent {indentation : Nat} {rest : List Char}
    (allowed : (if indentation = 0 then ((indent count ++ rest).takeWhile (· == ' ')).length
      else min ((indent count ++ rest).takeWhile (· == ' ')).length indentation) = count)
    (tab : rest.head? ≠ some '\t') (unbroken : ∀ character ∈ rest.head?, isBreak character = false)
    (fuel : Nat) (breaks : List Char) (greatest line index : Nat) :
    readBlockBreaks? indentation (fuel + 1) breaks greatest
        ⟨indent count ++ rest, line, 0, index⟩ =
      some (breaks, max greatest count, ⟨rest, line, count, index + count⟩) := by
  have noTab : (⟨rest, line, count, index + count⟩ : Cursor).isAt '\t' = false :=
    beq_eq_false_iff_ne.mpr tab
  have noBreak : (⟨rest, line, count, index + count⟩ : Cursor).atBreak = false := by
    cases rest with
    | nil => rfl
    | cons first rest => exact unbroken first rfl
  have place := Cursor.advance_indent count rest line 0 index
  rw [Nat.zero_add] at place
  simp only [readBlockBreaks?, Nat.sub_zero, allowed, place, noTab, noBreak, Bool.and_false,
    Bool.false_eq_true, if_false]

theorem readBlockBreaks?_break {character : Char} (kept : Kept character) {indentation : Nat}
    (known : indentation ≠ 0) (rest : List Char) (fuel : Nat) (breaks : List Char)
    (greatest line index : Nat) :
    readBlockBreaks? indentation (fuel + 1) breaks greatest
        ⟨character :: rest, line, 0, index⟩ =
      readBlockBreaks? indentation fuel (breaks ++ [character]) greatest
        ⟨rest, line + 1, 0, index + 1⟩ := by
  have blanks : ((character :: rest).takeWhile (· == ' ')).length = 0 := by
    rcases kept with rfl | rfl | rfl <;> rfl
  have noTab : (⟨character :: rest, line, 0, index⟩ : Cursor).isAt '\t' = false := by
    rcases kept with rfl | rfl | rfl <;> rfl
  have broken : (⟨character :: rest, line, 0, index⟩ : Cursor).atBreak = true := by
    rcases kept with rfl | rfl | rfl <;> rfl
  have place : (⟨character :: rest, line, 0, index⟩ : Cursor).advance 0 =
      ⟨character :: rest, line, 0, index⟩ := rfl
  simp only [readBlockBreaks?, known, blanks, Nat.zero_min, if_false, place, noTab, broken,
    Cursor.takeBreak_kept kept, Bool.and_false, Bool.false_eq_true, if_true, Nat.max_zero]

theorem literalLines_indent {first : Char} (unbroken : isBreak first = false) (width : Nat)
    (rest : List Char) :
    literalLines width true (first :: rest) =
      indent width ++ literalLines width false (first :: rest) := by
  rw [literalLines, literalLines, unbroken]
  rfl

theorem head?_literalLines {first : Char} (unbroken : isBreak first = false) (width : Nat)
    (rest after : List Char) :
    (literalLines width false (first :: rest) ++ after).head? = some first := by
  rw [literalLines, unbroken]
  rfl

/-- The empty lines of a block are read, and the indentation of the line after them. -/
theorem readBlockBreaks?_lines (outdented : count < width) (none : NoGap after)
    (printable : ∀ character ∈ text, isPrintable character = true) {fuel : Nat}
    (enough : text.length < fuel) (breaks : List Char) (greatest line index : Nat) :
    ∃ empty rest greatest' cursor, text = empty ++ rest ∧
      (∀ character ∈ empty, isBreak character = true) ∧
      AtBlock width count after rest cursor ∧ line ≤ cursor.line ∧
      readBlockBreaks? width fuel breaks greatest
          ⟨literalLines width true text ++ (indent count ++ after), line, 0, index⟩ =
        some (breaks ++ empty, greatest', cursor) := by
  induction text generalizing fuel breaks greatest line index with
  | nil =>
    obtain ⟨fuel, rfl⟩ : ∃ less, fuel = less + 1 := ⟨fuel - 1, by omega⟩
    have some : (if width = 0 then ((indent count ++ after).takeWhile (· == ' ')).length
        else min ((indent count ++ after).takeWhile (· == ' ')).length width) = count := by
      have blankless := takeWhile_eq_nil fun character member same => by
        rw [same] at member
        exact absurd (none ' ' member) (by decide)
      rw [if_neg (by omega), takeWhile_indent, blankless, List.append_nil, indent,
        List.length_replicate]
      omega
    refine ⟨[], [], max greatest count, _, rfl, List.forall_mem_nil _, .done line (index + count),
      Nat.le_refl _, ?_⟩
    rw [List.append_nil]
    refine readBlockBreaks?_indent some ?_ ?_ fuel breaks greatest line index
    · intro tab
      exact absurd (none '\t' tab) (by decide)
    · exact fun character member => (Bool.or_eq_false_iff.mp (none character member)).2
  | cons first rest ih =>
    obtain ⟨fuel, rfl⟩ : ∃ less, fuel = less + 1 := ⟨fuel - 1, by omega⟩
    have own := printable first List.mem_cons_self
    by_cases broken : isBreak first = true
    · obtain ⟨empty, left, greatest', cursor, rfl, all, place, later, read⟩ :=
        ih (fun character member => printable character (List.mem_cons_of_mem _ member))
          (Nat.lt_of_succ_lt_succ enough) (breaks ++ [first]) greatest (line + 1) (index + 1)
      refine ⟨first :: empty, left, greatest', cursor, rfl, ?_, place, by omega, ?_⟩
      · exact List.forall_mem_cons.mpr ⟨broken, all⟩
      · rw [literalLines, if_pos broken, List.cons_append,
          readBlockBreaks?_break (kept_of_isPrintable own broken) (by omega), read,
          List.append_assoc]
        rfl
    · have unbroken : isBreak first = false := Bool.eq_false_iff.mpr broken
      have head := head?_literalLines unbroken width rest (indent count ++ after)
      refine ⟨[], first :: rest, max greatest width, _, rfl, List.forall_mem_nil _,
        .line unbroken rest line (index + width), Nat.le_refl _, ?_⟩
      rw [List.append_nil, literalLines_indent unbroken, List.append_assoc]
      refine readBlockBreaks?_indent ?_ ?_ ?_ fuel breaks greatest line index
      · rw [if_neg (by omega), takeWhile_indent, List.length_append, indent,
          List.length_replicate]
        omega
      · rw [head]
        intro tab
        rw [Option.some.inj tab] at own
        exact absurd own (by decide)
      · rw [head]
        intro character member
        cases member
        exact unbroken

theorem literalLines_line (width : Nat) {run : List Char}
    (inside : ∀ character ∈ run, isBreak character = false) (left : List Char) :
    literalLines width false (run ++ left) = run ++ literalLines width false left := by
  induction run with
  | nil => rfl
  | cons first run ih =>
    have own := inside first List.mem_cons_self
    rw [List.cons_append, literalLines, if_neg (Bool.eq_false_iff.mp own),
      ih fun character member => inside character (List.mem_cons_of_mem _ member)]
    rfl

theorem length_le_literalLines (width : Nat) (afterBreak : Bool) (text : List Char) :
    text.length ≤ (literalLines width afterBreak text).length := by
  induction text generalizing afterBreak with
  | nil => exact Nat.le_refl _
  | cons first rest ih =>
    rw [literalLines]
    split
    · exact Nat.succ_le_succ (ih true)
    · have later := ih false
      rw [List.length_append, List.length_cons, List.length_cons]
      omega

/-- The characters of a line are taken. -/
theorem takeWhile_line {run : List Char} {last : Char}
    (inside : ∀ character ∈ run, isBreak character = false) (broken : isBreak last = true)
    (rest : List Char) (line column index : Nat) :
    Cursor.takeWhile ⟨run ++ last :: rest, line, column, index⟩ (!isBreak ·) =
      (run, ⟨last :: rest, line, column + run.length, index + run.length⟩) := by
  have taken : (run ++ last :: rest).takeWhile (!isBreak ·) = run := by
    have each : ∀ character ∈ run, (!isBreak character) = true := fun character member => by
      rw [inside character member]
      rfl
    rw [List.takeWhile_append_of_pos each, List.takeWhile_cons_of_neg (by rw [broken]; decide),
      List.append_nil]
  rw [Cursor.takeWhile]
  simp only [taken, Cursor.advance_append]

/-- The text of a block read so far, with the breaks at its end. -/
def BlockText.whole (text : BlockText) : List Char :=
  text.reversed.reverse ++ (text.lastBreak ++ text.emptyLines)

/-- A block text whose last line is not empty; only breaks follow that line. -/
structure BlockText.Ended (text : BlockText) : Prop where
  line : ∃ last before, text.reversed = last :: before ∧ isBreak last = false
  ends : ∃ first, text.lastBreak = [first] ∧ isBreak first = true
  empty : ∀ character ∈ text.emptyLines, isBreak character = true

theorem getLast?_append_right {before text : List Char} {last : Char}
    (ends : text.getLast? = some last) : (before ++ text).getLast? = some last := by
  rw [List.getLast?_append, ends]
  rfl

/-- A line of a closed text ends with a break. -/
theorem exists_line {first : Char} {rest : List Char} (unbroken : isBreak first = false)
    (closed : ∀ character ∈ (first :: rest).getLast?, isBreak character = true) :
    ∃ run last more, first :: rest = run ++ last :: more ∧ run ≠ [] ∧ isBreak last = true ∧
      (∀ character ∈ run, isBreak character = false) ∧
      ∀ character ∈ more.getLast?, isBreak character = true := by
  obtain ⟨run, left, split, inside, stop⟩ := exists_span (!isBreak ·) (first :: rest)
  have inside : ∀ character ∈ run, isBreak character = false := fun character member => by
    rw [← Bool.not_eq_true', inside character member]
  have some : run ≠ [] := by
    rintro rfl
    rw [List.nil_append] at split
    have no := stop first (by rw [← split]; rfl)
    rw [unbroken] at no
    cases no
  cases left with
  | nil =>
    rw [List.append_nil] at split
    have last := List.getLast?_eq_some_getLast some
    rw [split] at closed
    have no := inside _ (List.getLast_mem some)
    rw [closed _ last] at no
    cases no
  | cons last more =>
    have broken := stop last rfl
    rw [Bool.not_eq_false'] at broken
    refine ⟨run, last, more, split, some, broken, inside, fun character member => ?_⟩
    rw [split] at closed
    have tail : ([last] ++ more).getLast? = .some character := getLast?_append_right member
    exact closed character (getLast?_append_right tail)

/-- The lines of a block are read up to a line that is indented less. -/
theorem readBlockLines?_lines (outdented : count < width) (none : NoGap after) {cursor : Cursor}
    (printable : ∀ character ∈ text, isPrintable character = true)
    (closed : ∀ character ∈ text.getLast?, isBreak character = true)
    (place : AtBlock width count after text cursor) {fuel : Nat} (enough : text.length < fuel)
    (known : BlockText) :
    ∃ read line index, cursor.line ≤ line ∧
      readBlockLines? true width fuel known cursor =
        some (read, ⟨after, line, count, index⟩) ∧
      read.whole = known.whole ++ text ∧ (text = [] → read = known) ∧ (text ≠ [] → read.Ended) := by
  induction fuel generalizing text cursor known with
  | zero => exact absurd enough (Nat.not_lt_zero _)
  | succ fuel ih =>
    cases place with
    | done line index =>
      have left : (count == width) = false := beq_eq_false_iff_ne.mpr (Nat.ne_of_lt outdented)
      refine ⟨known, line, index, Nat.le_refl _, ?_, (List.append_nil _).symm, fun _ => rfl,
        fun some => absurd rfl some⟩
      simp only [readBlockLines?, left, Bool.false_and, Bool.false_eq_true, if_false]
    | @line first unbroken rest line index =>
      obtain ⟨run, last, more, split, some, broken, inside, closed'⟩ := exists_line unbroken closed
      have text_eq : literalLines width false (run ++ last :: more) =
          run ++ last :: literalLines width true more := by
        rw [literalLines_line width inside, literalLines, if_pos broken]
      rw [split] at printable enough ⊢
      have kept := kept_of_isPrintable (printable last (by simp)) broken
      have more_enough : more.length <
          (literalLines width true more ++ (indent count ++ after)).length + 1 := by
        have := length_le_literalLines width true more
        rw [List.length_append]
        omega
      obtain ⟨empty, left, greatest, next, rfl, all, place, later, breaks⟩ :=
        readBlockBreaks?_lines outdented none
          (fun character member => printable character (by simp [member])) more_enough [] 0
          (line + 1) (index + run.length + 1)
      rw [List.length_append, List.length_cons, List.length_append] at enough
      obtain ⟨startsBlank, starts_eq⟩ : ∃ startsBlank : Bool,
          (⟨run ++ last :: (literalLines width true (empty ++ left) ++ (indent count ++ after)),
            line, width, index⟩ : Cursor).satisfies 0 isSpaceOrTab = startsBlank := ⟨_, rfl⟩
      obtain ⟨read, line', index', later', lines, whole, same, ended⟩ :=
        ih (fun character member => printable character (by simp [member]))
          (fun character member => closed' character (getLast?_append_right member)) place
          (by omega)
          ⟨run.reverse ++ (known.emptyLines.reverse ++ (known.lastBreak.reverse ++ known.reversed)),
            [last], empty, startsBlank⟩
      have fold : known.fold true startsBlank =
          known.emptyLines.reverse ++ (known.lastBreak.reverse ++ known.reversed) := rfl
      refine ⟨read, line', index', Nat.le_trans (Nat.le_succ line) (Nat.le_trans later later'), ?_,
        ?_, fun none => ?_, fun _ => ?_⟩
      · rw [text_eq, List.append_assoc, List.cons_append]
        simp only [readBlockLines?, beq_self_eq_true, Cursor.atEnd_append, Bool.not_false,
          Bool.and_self, if_true, takeWhile_line inside broken, Cursor.takeBreak_kept kept,
          starts_eq, breaks, fold, List.nil_append]
        exact lines
      · rw [whole, BlockText.whole, BlockText.whole]
        simp
      · simp at none
      · by_cases done : left = []
        · rw [same done]
          obtain ⟨final, before, reversed⟩ :=
            List.exists_cons_of_ne_nil (mt List.reverse_eq_nil_iff.mp some)
          refine ⟨⟨final, _, congrArg (· ++ _) reversed, ?_⟩, ⟨last, rfl, broken⟩, all⟩
          refine inside final (List.mem_reverse.mp ?_)
          rw [reversed]
          exact List.mem_cons_self
        · exact ended done

/-! ## Breaks at the end -/

/-- What the mark in the header makes of a block, in reverse. -/
def BlockText.chomped (text : BlockText) : Chomping → List Char
  | .strip => text.reversed
  | .clip => text.lastBreak.reverse ++ text.reversed
  | .keep => text.emptyLines.reverse ++ (text.lastBreak.reverse ++ text.reversed)

/-- The meaning of the mark that is written for a text. -/
def chompingOf (text : List Char) : Chomping :=
  match text.reverse with
  | [] => .strip
  | [last] => if isBreak last then .keep else .strip
  | last :: before :: _ =>
    if !isBreak last then .strip else if isBreak before then .keep else .clip

/-- A block that has been read to its end: its last line is not empty, or all lines are. -/
def BlockText.Complete (read : BlockText) : Prop :=
  read.Ended ∨ read.reversed = [] ∧ read.lastBreak = [] ∧
    ∀ character ∈ read.emptyLines, isBreak character = true

theorem reverse_whole (read : BlockText) :
    read.whole.reverse = read.emptyLines.reverse ++ (read.lastBreak.reverse ++ read.reversed) := by
  rw [BlockText.whole, List.reverse_append, List.reverse_append, List.reverse_reverse,
    List.append_assoc]

/-- In a block with a break and a solid character before it at its end there are no empty lines
at the end. -/
theorem BlockText.Complete.last {read : BlockText} (complete : read.Complete)
    {last before : Char} {rest : List Char} (solid : isBreak before = false)
    (whole : read.whole.reverse = last :: before :: rest) :
    read.reversed = before :: rest ∧ read.lastBreak = [last] := by
  rw [reverse_whole] at whole
  rcases complete with ⟨⟨first, others, line, unbroken⟩, ⟨broken, ends, isBroken⟩, empty⟩ |
    ⟨none, nothing, empty⟩
  · rw [ends] at whole ⊢
    have empty' : ∀ character ∈ read.emptyLines.reverse, isBreak character = true :=
      fun character member => empty character (List.mem_reverse.mp member)
    have absurd' {character : Char} (same : character = before)
        (broken : isBreak character = true) : False := by
      rw [same, solid] at broken
      cases broken
    cases later : read.emptyLines.reverse with
    | nil =>
      rw [later] at whole
      obtain ⟨rfl, rest_eq⟩ := List.cons.inj whole
      exact ⟨rest_eq, rfl⟩
    | cons second more =>
      rw [later] at whole empty'
      obtain ⟨-, tail⟩ := List.cons.inj whole
      cases more with
      | nil => exact (absurd' (List.cons.inj tail).1 isBroken).elim
      | cons third more =>
        exact (absurd' (List.cons.inj tail).1 (empty' third (by simp))).elim
  · rw [none, nothing] at whole
    have member : before ∈ read.emptyLines := by
      rw [← List.mem_reverse]
      have whole : read.emptyLines.reverse = last :: before :: rest := by simpa using whole
      rw [whole]
      simp
    rw [empty before member] at solid
    cases solid

/-- The mark that is written for a text gives the text back. -/
theorem BlockText.Complete.chomped_eq {read : BlockText} (complete : read.Complete)
    (some : text ≠ []) (whole : read.whole = closeLine text) :
    read.chomped (chompingOf text) = text.reverse := by
  have whole' := congrArg List.reverse whole
  cases reversed : text.reverse with
  | nil => exact absurd (List.reverse_eq_nil_iff.mp reversed) some
  | cons last others =>
    have ends : text.getLast? = .some last := by
      rw [← List.head?_reverse, reversed]
      rfl
    by_cases broken : isBreak last = true
    · have closed : closeLine text = text := if_pos (by rw [ends]; exact broken)
      rw [closed, reversed] at whole'
      cases others with
      | nil =>
        have keep : chompingOf text = .keep := by
          simp only [chompingOf, reversed, broken, if_true]
        rw [keep, BlockText.chomped, ← reverse_whole, whole']
      | cons before rest =>
        by_cases empty : isBreak before = true
        · have keep : chompingOf text = .keep := by
            simp only [chompingOf, reversed, broken, empty, Bool.not_true, Bool.false_eq_true,
              if_false, if_true]
          rw [keep, BlockText.chomped, ← reverse_whole, whole']
        · have clip : chompingOf text = .clip := by
            simp only [chompingOf, reversed, broken, empty, Bool.not_true, Bool.false_eq_true,
              if_false]
          obtain ⟨line, final⟩ := complete.last (Bool.eq_false_iff.mpr empty) whole'
          rw [clip, BlockText.chomped, line, final]
          rfl
    · have closed : closeLine text = text ++ ['\n'] := if_neg (by rw [ends]; exact broken)
      have strip : chompingOf text = .strip := by
        cases others <;> simp only [chompingOf, reversed, broken, Bool.not_false,
          Bool.false_eq_true, if_false, if_true]
      rw [closed, List.reverse_append, reversed] at whole'
      obtain ⟨line, -⟩ := complete.last (Bool.eq_false_iff.mpr broken) whole'
      rw [strip, BlockText.chomped, line]

/-! ## Headers -/

/-- The digit in the header of a text that starts with a blank or a break. -/
def indentationHint (text : List Char) : List Char :=
  if text.head?.any fun first => first == ' ' || isBreak first then ['2'] else []

theorem literal_eq (width : Nat) (text : List Char) :
    literal width text = '|' :: (indentationHint text ++ (chompingMark text ++
      '\n' :: literalLines width true text)) := by
  cases text with
  | nil => rfl
  | cons first rest =>
    simp only [literal, indentationHint, List.head?_cons, Option.any_some, List.cons_append,
      List.append_assoc]
    rfl

theorem chompingMark_cases (text : List Char) :
    chompingMark text = [] ∧ chompingOf text = .clip ∨
      chompingMark text = ['-'] ∧ chompingOf text = .strip ∨
      chompingMark text = ['+'] ∧ chompingOf text = .keep := by
  unfold chompingMark chompingOf
  cases text.reverse with
  | nil => exact .inr (.inl ⟨rfl, rfl⟩)
  | cons last others =>
    cases others with
    | nil =>
      simp only
      split
      · exact .inr (.inr ⟨rfl, rfl⟩)
      · exact .inr (.inl ⟨rfl, rfl⟩)
    | cons before rest =>
      simp only
      split
      · exact .inr (.inl ⟨rfl, rfl⟩)
      · split
        · exact .inr (.inr ⟨rfl, rfl⟩)
        · exact .inl ⟨rfl, rfl⟩

/-- The header of a block is read. -/
theorem readBlockHeader?_literal (text rest : List Char) (line column index : Nat) :
    ∃ column' index', readBlockHeader?
        ⟨indentationHint text ++ (chompingMark text ++ '\n' :: rest), line, column, index⟩ =
      some (chompingOf text, if indentationHint text = [] then none else some 2,
        ⟨'\n' :: rest, line, column', index'⟩) := by
  have hint : indentationHint text = [] ∨ indentationHint text = ['2'] := by
    unfold indentationHint
    split
    · exact .inr rfl
    · exact .inl rfl
  rcases hint with hint | hint <;>
    rcases chompingMark_cases text with ⟨mark, kind⟩ | ⟨mark, kind⟩ | ⟨mark, kind⟩ <;>
      rw [hint, mark, kind] <;> exact ⟨_, _, rfl⟩

/-- The end of the header's line is read. -/
theorem readLineEnd?_newline (rest : List Char) (line column index : Nat) :
    readLineEnd? ⟨'\n' :: rest, line, column, index⟩ = some ⟨rest, line + 1, 0, index + 1⟩ := rfl

/-! ## Blocks -/

theorem isPrintable_closeLine (printable : ∀ character ∈ text, isPrintable character = true) :
    ∀ character ∈ closeLine text, isPrintable character = true := by
  intro character member
  unfold closeLine at member
  split at member
  · exact printable character member
  · rcases List.mem_append.mp member with own | newline
    · exact printable character own
    · rw [List.mem_singleton.mp newline]
      rfl

theorem isBreak_getLast?_closeLine (text : List Char) :
    ∀ character ∈ (closeLine text).getLast?, isBreak character = true := by
  intro character member
  unfold closeLine at member
  split at member
  · rename_i broken
    rwa [Option.mem_def.mp member] at broken
  · rw [List.getLast?_concat] at member
    cases member
    rfl

/-- The first lines of a block are read with a given indentation, or they show it. -/
theorem readBlockBreaks?_first (some : text ≠ [])
    (printable : ∀ character ∈ text, isPrintable character = true) (outdented : count < width)
    (none : NoGap after) {fuel : Nat} (enough : (closeLine text).length < fuel) (line index : Nat) :
    ∃ empty rest greatest cursor, closeLine text = empty ++ rest ∧
      (∀ character ∈ empty, isBreak character = true) ∧
      AtBlock width count after rest cursor ∧ line ≤ cursor.line ∧
      readBlockBreaks? (if indentationHint text = [] then 0 else width) fuel [] 0
          ⟨literalLines width true (closeLine text) ++ (indent count ++ after), line, 0, index⟩ =
        .some (empty, greatest, cursor) ∧
      (indentationHint text = [] → greatest = width) := by
  by_cases hint : indentationHint text = []
  · obtain ⟨first, others, rfl⟩ := List.exists_cons_of_ne_nil some
    obtain ⟨fuel, rfl⟩ : ∃ less, fuel = less + 1 := ⟨fuel - 1, by omega⟩
    have solid : first ≠ ' ' ∧ isBreak first = false := by
      unfold indentationHint at hint
      split at hint
      · cases hint
      · rename_i plain
        simpa using plain
    obtain ⟨rest, closed⟩ : ∃ rest, closeLine (first :: others) = first :: rest := by
      unfold closeLine
      split
      · exact ⟨others, rfl⟩
      · exact ⟨others ++ ['\n'], rfl⟩
    have head := head?_literalLines solid.2 width rest (indent count ++ after)
    have blankless : (literalLines width false (first :: rest) ++
        (indent count ++ after)).takeWhile (· == ' ') = [] :=
      takeWhile_eq_nil fun character member => by
        rw [head] at member
        cases member
        exact solid.1
    refine ⟨[], first :: rest, max 0 width, _, closed, List.forall_mem_nil _,
      .line solid.2 rest line (index + width), Nat.le_refl _, ?_, fun _ => Nat.zero_max width⟩
    rw [closed, if_pos hint, literalLines_indent solid.2, List.append_assoc]
    refine readBlockBreaks?_indent ?_ ?_ ?_ fuel [] 0 line index
    · rw [if_pos rfl, takeWhile_indent, blankless, List.append_nil, indent, List.length_replicate]
    · rw [head]
      intro tab
      have own := printable first List.mem_cons_self
      rw [Option.some.inj tab] at own
      exact absurd own (by decide)
    · rw [head]
      intro character member
      cases member
      exact solid.2
  · rw [if_neg hint]
    obtain ⟨empty, rest, greatest, cursor, split, all, place, later, read⟩ :=
      readBlockBreaks?_lines outdented none (isPrintable_closeLine printable) enough [] 0 line index
    exact ⟨empty, rest, greatest, cursor, split, all, place, later, read,
      fun same => absurd same hint⟩

/-- A text is read back from a literal block, up to a line that is indented less. -/
theorem readBlock?_literal (some : text ≠ [])
    (printable : ∀ character ∈ text, isPrintable character = true) {around : Nat}
    (outdented : count < around + 2) (none : NoGap after) (line column index : Nat) :
    ∃ line' index', line < line' ∧
      readBlock? true around ⟨indentationHint text ++ (chompingMark text ++
          '\n' :: (literalLines (around + 2) true (closeLine text) ++ (indent count ++ after))),
          line, column, index⟩ =
        .some (String.ofList text, ⟨after, line', count, index'⟩) := by
  obtain ⟨column', index', header⟩ := readBlockHeader?_literal text
    (literalLines (around + 2) true (closeLine text) ++ (indent count ++ after)) line column index
  have enough : (closeLine text).length <
      (literalLines (around + 2) true (closeLine text) ++ (indent count ++ after)).length + 1 := by
    have := length_le_literalLines (around + 2) true (closeLine text)
    rw [List.length_append]
    omega
  obtain ⟨empty, rest, greatest, cursor, split, all, place, later, breaks, shown⟩ :=
    readBlockBreaks?_first some printable outdented none enough (line + 1) (index' + 1)
  have rest_enough : rest.length < cursor.rest.length + 1 := by
    cases place with
    | done => exact Nat.succ_pos _
    | @line first _ others =>
      have := length_le_literalLines (around + 2) false (first :: others)
      rw [List.length_append]
      omega
  obtain ⟨read, line', index'', later', lines, whole, same, ended⟩ :=
    readBlockLines?_lines outdented none
      (fun character member => isPrintable_closeLine printable character
        (by rw [split]; exact List.mem_append_right _ member))
      (fun character member => isBreak_getLast?_closeLine text character
        (by rw [split]; exact getLast?_append_right member)) place rest_enough
      ⟨[], [], empty, false⟩
  have complete : read.Complete := by
    by_cases done : rest = []
    · rw [same done]
      exact .inr ⟨rfl, rfl, all⟩
    · exact .inl (ended done)
  have chomped := complete.chomped_eq some (whole.trans (by rw [split]; rfl))
  refine ⟨line', index'', by omega, ?_⟩
  have text_eq : String.ofList (read.chomped (chompingOf text)).reverse = String.ofList text := by
    rw [chomped, List.reverse_reverse]
  have increment : (max (around : Int) 0).toNat + 2 = around + 2 := by omega
  simp only [readBlock?, header, Option.bind_eq_bind, Option.bind_some, readLineEnd?_newline]
  by_cases hint : indentationHint text = []
  · have indentation : max greatest (max ((around : Int) + 1).toNat 1) = around + 2 := by
      have := shown hint
      omega
    rw [if_pos hint] at breaks
    simp only [hint, if_true, breaks, Option.bind_some, indentation, lines]
    exact congrArg (fun content => Option.some (content, _)) text_eq
  · rw [if_neg hint] at breaks
    have known : ¬around + 2 = 0 := by omega
    simp only [hint, if_false, increment, breaks, Option.bind_some, known, lines]
    exact congrArg (fun content => Option.some (content, _)) text_eq

end PowerTest.Yaml
