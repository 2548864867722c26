import PowerTest.Proofs.Yaml.Scanning

/-!
# Remarks

Empty lines and comments may stand between two lines of a block. The scanner passes them
(`skipToToken_remarks`), so it comes to stand at the start of the next line as it does without them,
whether it starts in front of a break (`Scan.atLine_newline_remarks`), at the start of a line
(`Scan.atLine_remarks`), or behind the gap that a plain scalar has taken (`exists_gap`).
-/

namespace PowerTest.Yaml

/-- A line that says nothing to a reader: an empty one, or a comment in a column. -/
inductive Remark
  | blank
  | comment (column : Nat) (text : String)

/-- What is written for a remark. -/
def Remark.written : Remark → List Char
  | blank => ['\n']
  | comment column text => indent column ++ '#' :: (text.toList ++ ['\n'])

/-- Whether a remark is a single line. -/
def Remark.isLine : Remark → Bool
  | blank => true
  | comment _ text => text.toList.all (!isBreak ·)

/-- What is written for remarks, one behind the other. -/
def remarksText (remarks : List Remark) : List Char := remarks.flatMap Remark.written

/-- Every remark is a single line. -/
def AreLines (remarks : List Remark) : Prop := ∀ remark ∈ remarks, remark.isLine = true

variable {remarks : List Remark} {text after comment : List Char} {line column index count : Nat}

theorem areLines_nil : AreLines [] := List.forall_mem_nil _

theorem remarksText_comment (column : Nat) (text : String) (remarks : List Remark)
    (after : List Char) :
    remarksText (.comment column text :: remarks) ++ after =
      indent column ++ ('#' :: (text.toList ++ '\n' :: (remarksText remarks ++ after))) := by
  simp [remarksText, Remark.written]

theorem head?_remarksText_ne (remarks : List Remark) (unmarked : text.head? ≠ some byteOrderMark) :
    (remarksText remarks ++ text).head? ≠ some byteOrderMark := by
  cases remarks with
  | nil => exact unmarked
  | cons remark rest =>
    cases remark with
    | blank => simp [remarksText, Remark.written, byteOrderMark]
    | comment column comment =>
      rw [remarksText_comment]
      cases column <;> simp [indent, List.replicate_succ, byteOrderMark]

theorem length_le_remarksText (remarks : List Remark) :
    remarks.length ≤ (remarksText remarks).length := by
  induction remarks with
  | nil => exact Nat.zero_le _
  | cons remark rest ih =>
    have some : 0 < remark.written.length := by
      cases remark with
      | blank => exact Nat.one_pos
      | comment column text =>
        rw [Remark.written, List.length_append, List.length_cons]
        omega
    rw [remarksText] at ih ⊢
    rw [List.flatMap_cons, List.length_append, List.length_cons]
    omega

namespace Scan

/-! ## Lines that are passed -/

/-- The blanks at the start of a line are passed first. -/
theorem skipToToken_blanks (flow : Bool) (fuel : Nat) (keyAllowed : Bool)
    (unmarked : after.head? ≠ some byteOrderMark) (count line column index : Nat) :
    skipToToken flow (fuel + 1) keyAllowed ⟨indent count ++ after, line, column, index⟩ =
      skipToToken flow (fuel + 1) keyAllowed ⟨after, line, column + count, index + count⟩ := by
  have mark (column index : Nat) :
      (⟨after, line, column, index⟩ : Cursor).isAt byteOrderMark = false :=
    beq_eq_false_iff_ne.mpr unmarked
  have indented : (⟨indent count ++ after, line, column, index⟩ : Cursor).isAt byteOrderMark =
      false := by
    cases count with
    | zero => exact mark column index
    | succ count => rfl
  have taken (test : Char → Bool) (blank : test ' ' = true) :
      (⟨indent count ++ after, line, column, index⟩ : Cursor).skipWhile test =
        (⟨after, line, column + count, index + count⟩ : Cursor).skipWhile test := by
    have all : ∀ character ∈ indent count, test character = true := fun character member => by
      rw [List.eq_of_mem_replicate member, blank]
    have length : (indent count).length = count := List.length_replicate ..
    simp only [Cursor.skipWhile, Cursor.takeWhile, Cursor.advance,
      List.takeWhile_append_of_pos all, List.length_append, length, ← List.drop_drop, drop_indent,
      Nat.add_assoc]
  simp only [skipToToken, mark, indented, Bool.and_false, Bool.false_eq_true, if_false]
  rw [taken _ (by rfl)]

/-- A comment is passed with the break that ends it. -/
theorem skipToToken_comment (whole : comment.all (!isBreak ·) = true) (fuel : Nat)
    (keyAllowed : Bool) (line column index : Nat) :
    skipToToken false (fuel + 1) keyAllowed
        ⟨'#' :: (comment ++ '\n' :: after), line, column, index⟩ =
      skipToToken false fuel true ⟨after, line + 1, 0, index + (comment.length + 2)⟩ := by
  have mark : (⟨'#' :: (comment ++ '\n' :: after), line, column, index⟩ : Cursor).isAt
      byteOrderMark = false := rfl
  have blankless : (⟨'#' :: (comment ++ '\n' :: after), line, column, index⟩ : Cursor).skipWhile
      (fun character => character == ' ' || ((false || !keyAllowed) && character == '\t')) =
        ⟨'#' :: (comment ++ '\n' :: after), line, column, index⟩ := by
    rw [Cursor.skipWhile, Cursor.takeWhile,
      List.takeWhile_cons_of_neg (by cases keyAllowed <;> decide)]
    rfl
  have sign : (⟨'#' :: (comment ++ '\n' :: after), line, column, index⟩ : Cursor).isAt '#' =
      true := rfl
  have passed : (⟨'#' :: (comment ++ '\n' :: after), line, column, index⟩ : Cursor).skipWhile
      (!isBreak ·) = ⟨'\n' :: after, line, column + (comment.length + 1),
        index + (comment.length + 1)⟩ := by
    have all : ∀ character ∈ '#' :: comment, (!isBreak character) = true :=
      List.forall_mem_cons.mpr ⟨rfl, List.all_eq_true.mp whole⟩
    have taken : ('#' :: (comment ++ '\n' :: after)).takeWhile (!isBreak ·) = '#' :: comment := by
      rw [← List.cons_append, List.takeWhile_append_of_pos all,
        List.takeWhile_cons_of_neg (by decide), List.append_nil]
    have place := Cursor.advance_append ('#' :: comment) ('\n' :: after) line column index
    simp only [Cursor.skipWhile, Cursor.takeWhile, taken]
    exact place
  have broken (column index : Nat) :
      (⟨'\n' :: after, line, column, index⟩ : Cursor).atBreak = true := rfl
  have skipped (column index : Nat) : (⟨'\n' :: after, line, column, index⟩ : Cursor).skipBreak =
      ⟨after, line + 1, 0, index + 1⟩ := rfl
  simp only [skipToToken, mark, Bool.and_false, Bool.false_eq_true, if_false,
    blankless, sign, passed, broken, skipped, if_true,
    Bool.not_false, Bool.or_true, Nat.add_assoc]

/-- Remarks are passed up to what starts the next line. -/
theorem skipToToken_remarks (lines : AreLines remarks) (opens : Opens after) {fuel : Nat}
    (enough : remarks.length < fuel) (count line index : Nat) :
    ∃ line' index', line ≤ line' ∧
      skipToToken false fuel true ⟨remarksText remarks ++ (indent count ++ after), line, 0, index⟩ =
        (true, ⟨after, line', count, index'⟩) := by
  induction remarks generalizing fuel line index with
  | nil =>
    obtain ⟨fuel, rfl⟩ : ∃ less, fuel = less + 1 := ⟨fuel - 1, by omega⟩
    have indented := skipToToken_indent false opens fuel true count line 0 index
    rw [Nat.zero_add] at indented
    exact ⟨line, _, Nat.le_refl line, indented⟩
  | cons remark rest ih =>
    obtain ⟨own, others⟩ := List.forall_mem_cons.mp lines
    rw [List.length_cons] at enough
    obtain ⟨fuel, rfl⟩ : ∃ less, fuel = less + 1 := ⟨fuel - 1, by omega⟩
    have fewer : rest.length < fuel := Nat.lt_of_succ_lt_succ enough
    cases remark with
    | blank =>
      obtain ⟨line', index', later, skipped⟩ := ih others fewer (line + 1) (index + 1)
      exact ⟨line', index', by omega, (skipToToken_newline ..).trans skipped⟩
    | comment column text =>
      rw [remarksText_comment, skipToToken_blanks _ _ _ (by simp [byteOrderMark]),
        skipToToken_comment own]
      obtain ⟨line', index', later, skipped⟩ := ih others fewer (line + 1) _
      exact ⟨line', index', by omega, skipped⟩

/-! ## Lines behind remarks -/

variable {indentation : Int} {outer : List Int} {keyAllowed : Bool}
  {pending : Option PendingKey} {reversed : List Token}

theorem length_lt_remarksText (remarks : List Remark) (text : List Char) :
    remarks.length < (remarksText remarks ++ text).length + 1 := by
  have atLeast := length_le_remarksText remarks
  rw [List.length_append]
  omega

/-- At the start of a line, remarks may stand before the text. -/
theorem atLine_remarks (lines : AreLines remarks) (leads : Leads column text)
    (passed : Passed line pending) :
    AtLine text indentation outer reversed
      ⟨⟨remarksText remarks ++ text, line, 0, index⟩, indentation, outer, true, [pending],
        reversed⟩ := by
  obtain ⟨line', index', later, skipped⟩ := skipToToken_remarks lines leads.opens
    (length_lt_remarksText remarks text) (lead text) line index
  rw [indent_lead] at skipped
  exact atLine_of_skipToToken skipped (passed.mono later)

/-- Behind the break at the end of a line, remarks may stand before the text. -/
theorem atLine_newline_remarks (lines : AreLines remarks) (leads : Leads column text)
    (passed : Passed (line + 1) pending) {place : Nat} :
    AtLine text indentation outer reversed
      ⟨⟨'\n' :: (remarksText remarks ++ text), line, place, index⟩, indentation, outer, keyAllowed,
        [pending], reversed⟩ := by
  obtain ⟨line', index', later, skipped⟩ := skipToToken_remarks lines leads.opens
    (length_lt_remarksText remarks text) (lead text) (line + 1) (index + 1)
  rw [indent_lead] at skipped
  exact atLine_of_skipToToken ((skipToToken_newline ..).trans skipped) (passed.mono later)

/-- Remarks and the indentation behind them start with a gap of breaks and blanks, and the scanner
may as well stand behind this gap. -/
theorem exists_gap (lines : AreLines remarks) (leads : Leads column text) :
    ∃ breaks count rest, remarksText remarks ++ text =
        List.replicate breaks '\n' ++ (indent count ++ rest) ∧
      NoGap rest ∧ (count ≤ column ∨ rest.head? = some '#') ∧
      ∀ {line index indentation outer pending reversed}, Passed line pending →
        AtLine text indentation outer reversed
          ⟨⟨rest, line, count, index⟩, indentation, outer, true, [pending], reversed⟩ := by
  induction remarks with
  | nil =>
    exact ⟨0, lead text, text.drop (lead text), (indent_lead text).symm, leads.opens.noGap,
      .inl leads.bound, atLine_behind leads⟩
  | cons remark rest ih =>
    obtain ⟨own, others⟩ := List.forall_mem_cons.mp lines
    cases remark with
    | blank =>
      obtain ⟨breaks, count, left, same, facts⟩ := ih others
      refine ⟨breaks + 1, count, left, ?_, facts⟩
      rw [List.replicate_succ, List.cons_append, ← same]
      rfl
    | comment place comment =>
      refine ⟨0, place, _, remarksText_comment .., noGap_cons (by decide), .inr rfl, ?_⟩
      intro line index indentation outer pending reversed passed
      have enough : rest.length <
          (comment.toList ++ '\n' :: (remarksText rest ++ text)).length + 1 := by
        have atLeast := length_lt_remarksText rest text
        rw [List.length_append, List.length_cons]
        omega
      obtain ⟨line', index', later, skipped⟩ := skipToToken_remarks others leads.opens enough
        (lead text) (line + 1) (index + (comment.toList.length + 2))
      rw [indent_lead] at skipped
      exact atLine_of_skipToToken ((skipToToken_comment own ..).trans skipped)
        (passed.mono (Nat.le_of_succ_le later))

end Scan

end PowerTest.Yaml
