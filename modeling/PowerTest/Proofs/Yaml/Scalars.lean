import PowerTest.Proofs.Yaml.Literal
import PowerTest.Proofs.Yaml.Quoted
import PowerTest.Proofs.Yaml.Remarks

/-!
# Scalars that are scanned

A scalar is one token, whatever style it is written in, and after it the scanner is at the start of
the next line (`readsAs_textScalar`).
-/

namespace PowerTest.Yaml

variable {text after written : List Char} {line column index count around : Nat} {outer : List Int}
  {keyAllowed : Bool} {pending left : Option PendingKey} {reversed : List Token} {token : Token}

namespace Scan

/-- Blanks in front of a token are passed. -/
theorem settle?_indent (count : Nat) (opens : Opens after) {indentation : Int}
    (inside : indentation ≤ (column + count : Nat))
    (kept : dropStale? ⟨after, line, column + count, index + count⟩ [pending] = some [left]) :
    (⟨⟨indent count ++ after, line, column, index⟩, indentation, outer, keyAllowed, [pending],
        reversed⟩ : Scan).settle? =
      some ⟨⟨after, line, column + count, index + count⟩, indentation, outer, keyAllowed, [left],
        reversed⟩ := by
  have block : (⟨⟨indent count ++ after, line, column, index⟩, indentation, outer, keyAllowed,
    [pending], reversed⟩ : Scan).inFlow = false := rfl
  rw [settle?]
  simp only [block, skipToToken_indent false opens, kept, Option.map_some,
    closeBlocks_of_le inside]

/-- A token that has nothing in front of it is not moved. -/
theorem settle?_here (opens : Opens after) {indentation : Int} (inside : indentation ≤ column)
    (kept : dropStale? ⟨after, line, column, index⟩ [pending] = some [left]) :
    (⟨⟨after, line, column, index⟩, indentation, outer, keyAllowed, [pending], reversed⟩ :
        Scan).settle? =
      some ⟨⟨after, line, column, index⟩, indentation, outer, keyAllowed, [left], reversed⟩ :=
  settle?_indent 0 opens inside kept

/-- A token on a line that can turn out to be a key, but need not. -/
def Saved (line : Nat) (pending : Option PendingKey) : Prop :=
  ∀ key ∈ pending, key.required = false ∧ key.line = line

theorem Saved.passed {later : Nat} (saved : Saved line pending) (less : line < later) :
    Passed later pending := by
  intro key member
  obtain ⟨free, here⟩ := saved key member
  exact ⟨free, here ▸ less⟩

/-- A scalar inside a block can turn out to be a key, but need not. -/
theorem savePending?_inside (inside : around < column) (text : List Char) (line index : Nat)
    (outer : List Int) (keyAllowed : Bool) (reversed : List Token) :
    ∃ pending, Saved line pending ∧
      (⟨⟨text, line, column, index⟩, around, outer, keyAllowed, [none], reversed⟩ :
          Scan).savePending? =
        some ⟨⟨text, line, column, index⟩, around, outer, keyAllowed, [pending], reversed⟩ := by
  cases keyAllowed with
  | false => exact ⟨none, fun key member => (by cases member), rfl⟩
  | true =>
    have free : ((around : Int) == (column : Int)) = false :=
      beq_eq_false_iff_ne.mpr fun same => Nat.ne_of_lt inside (Int.ofNat.inj same)
    refine ⟨some ⟨false, reversed.length, line, column, index⟩, fun key member => ?_, ?_⟩
    · cases member
      exact ⟨rfl, rfl⟩
    · simp only [savePending?, dropPending?, if_true, Option.bind_eq_bind, Option.bind_some, free,
        Bool.and_false, List.drop_succ_cons, List.drop_zero]

theorem keyScalar?_inside (inside : around < column)
    {read : Cursor → Option (Style × String × Bool × Cursor)} {style : Style} {content : String}
    {allowed : Bool} {cursor : Cursor}
    (reads : read ⟨text, line, column, index⟩ = some (style, content, allowed, cursor)) :
    ∃ pending, Saved line pending ∧
      (⟨⟨text, line, column, index⟩, around, outer, keyAllowed, [none], reversed⟩ :
          Scan).keyScalar? read =
        some ⟨cursor, around, outer, allowed, [pending], .scalar style content :: reversed⟩ := by
  obtain ⟨pending, saved, save⟩ :=
    savePending?_inside inside text line index outer keyAllowed reversed
  refine ⟨pending, saved, ?_⟩
  simp only [keyScalar?, save, Option.bind_eq_bind, Option.bind_some, reads, push]

theorem plainScalar?_inside (inside : around < column) {content : String} {broken : Bool}
    {cursor : Cursor}
    (reads : readPlain? false (around + 1) (text.length + 1) [] .none
      ⟨text, line, column, index⟩ = some (content, broken, cursor)) :
    ∃ pending, Saved line pending ∧
      (⟨⟨text, line, column, index⟩, around, outer, keyAllowed, [none], reversed⟩ :
          Scan).plainScalar? =
        some ⟨cursor, around, outer, broken, [pending], .scalar .plain content :: reversed⟩ := by
  refine keyScalar?_inside inside ?_
  have limit : ((around : Int) + 1).toNat = around + 1 := by omega
  have block : (⟨⟨text, line, column, index⟩, around, outer, keyAllowed, [none], reversed⟩ :
    Scan).inFlow = false := rfl
  simp only [block, limit, reads, Option.map_some]

theorem quotedScalar?_inside (inside : around < column) {single : Bool} {content : String}
    {cursor : Cursor}
    (reads : readQuoted? single (text.length + 1) []
      (Cursor.advance ⟨text, line, column, index⟩ 1) = some (content, cursor)) :
    ∃ pending, Saved line pending ∧
      (⟨⟨text, line, column, index⟩, around, outer, keyAllowed, [none], reversed⟩ :
          Scan).quotedScalar? single =
        some ⟨cursor, around, outer, false, [pending],
          .scalar (if single then .singleQuoted else .doubleQuoted) content :: reversed⟩ := by
  refine keyScalar?_inside inside ?_
  simp only [reads, Option.map_some]

theorem startsPlain_of_unlisted {scan : Scan} {first : Char} (block : scan.inFlow = false)
    (solid : isSeparator first = false) (unlisted : first ∉ "#,[]\x7b\x7d&*!|>'\"%@`".toList)
    (apart : first ∈ "?:-".toList → scan.cursor.separatedAt 1 = false) :
    scan.startsPlain first = true := by
  rw [startsPlain, if_neg (Bool.eq_false_iff.mp solid)]
  split
  · rename_i dash
    have inner := apart (by rw [beq_iff_eq.mp dash]; decide)
    unfold Cursor.separatedAt at inner
    unfold Cursor.satisfies
    split
    · rename_i second there
      rw [there] at inner
      rw [(Bool.or_eq_false_iff.mp inner).1]
      rfl
    · rfl
  · split
    · rename_i marked
      have inner := apart (by
        rcases Bool.or_eq_true_iff.mp marked with mark | mark <;>
          rw [beq_iff_eq.mp mark] <;> decide)
      rw [block, inner]
      rfl
    · rw [Bool.not_eq_true', Bool.eq_false_iff, ne_eq, List.contains_iff_mem]
      exact fun member => unlisted (mem_of_all (by decide) member)

/-- A character that is no indicator starts a plain scalar. -/
theorem token?_plain {scan : Scan} {first : Char} (block : scan.inFlow = false)
    (bound : scan.cursor.atDocumentBound = false) (solid : isSeparator first = false)
    (unlisted : first ∉ "#,[]\x7b\x7d&*!|>'\"%@`".toList)
    (apart : first ∈ "?:-".toList → scan.cursor.separatedAt 1 = false) :
    scan.token? first = scan.plainScalar? := by
  have away : ∀ mark ∈ "#,[]\x7b\x7d&*!|>'\"%@`".toList, (first == mark) = false := by
    intro mark member
    rw [beq_eq_false_iff_ne]
    rintro rfl
    exact unlisted member
  have inner : ∀ mark ∈ "?:-".toList, (first == mark && scan.cursor.separatedAt 1) = false := by
    intro mark member
    rw [Bool.and_eq_false_imp, beq_iff_eq]
    rintro rfl
    exact apart member
  obtain ⟨dashes, dots⟩ := Bool.or_eq_false_iff.mp bound
  simp only [token?, block, dashes, dots, startsPlain_of_unlisted block solid unlisted apart,
    away '%' (by decide), away '[' (by decide), away '\x7b' (by decide), away ']' (by decide),
    away '\x7d' (by decide), away ',' (by decide), inner '-' (by decide), inner '?' (by decide),
    inner ':' (by decide), away '*' (by decide), away '&' (by decide), away '!' (by decide),
    away '|' (by decide), away '>' (by decide), away '\'' (by decide), away '"' (by decide),
    Bool.false_or, Bool.false_and, Bool.and_false, Bool.false_eq_true, if_false, if_true]

theorem token?_singleQuote {scan : Scan} (bound : scan.cursor.atDocumentBound = false) :
    scan.token? '\'' = scan.quotedScalar? true := by
  obtain ⟨dashes, dots⟩ := Bool.or_eq_false_iff.mp bound
  simp [token?, dashes, dots]

theorem token?_doubleQuote {scan : Scan} (bound : scan.cursor.atDocumentBound = false) :
    scan.token? '"' = scan.quotedScalar? false := by
  obtain ⟨dashes, dots⟩ := Bool.or_eq_false_iff.mp bound
  simp [token?, dashes, dots]

theorem token?_bar {scan : Scan} (block : scan.inFlow = false)
    (bound : scan.cursor.atDocumentBound = false) : scan.token? '|' = scan.blockScalar? true := by
  obtain ⟨dashes, dots⟩ := Bool.or_eq_false_iff.mp bound
  simp [token?, block, dashes, dots]

end Scan

open Scan

/-! ## Scalars inside a block -/

/-- A scalar with the break after it is read as a token inside a block in a column. -/
structure ReadsAs (around : Nat) (written : List Char) (token : Token) : Prop where
  opens : Opens written
  some : written ≠ []
  taken : ∀ {after column}, Leads around after → around < column →
    ∀ line index outer keyAllowed reversed, ∃ first next,
      (written ++ after).head? = .some first ∧
      (⟨⟨written ++ after, line, column, index⟩, around, outer, keyAllowed, [none], reversed⟩ :
        Scan).token? first = .some next ∧
      next.cursor.rest.length < (written ++ after).length ∧
      AtLine after around outer (token :: reversed) next

theorem ReadsAs.step (reads : ReadsAs around written token) (leads : Leads around after)
    (inside : around ≤ column) :
    ∃ next, Step ⟨⟨' ' :: (written ++ after), line, column, index⟩, around, outer, keyAllowed,
        [none], reversed⟩ next ∧
      AtLine after around outer (token :: reversed) next := by
  obtain ⟨first, next, head, token, shorter, place⟩ :=
    reads.taken leads (Nat.lt_succ_of_le inside) line (index + 1) outer keyAllowed reversed
  have settles : settle? ⟨⟨' ' :: (written ++ after), line, column, index⟩, around, outer,
      keyAllowed, [none], reversed⟩ = .some ⟨⟨written ++ after, line, column + 1, index + 1⟩,
        around, outer, keyAllowed, [none], reversed⟩ :=
    settle?_indent 1 (reads.opens.append reads.some after) (by omega) rfl
  exact ⟨next, ⟨_, first, settles, head, token, shorter⟩, place⟩

/-! ## The styles -/

theorem IsPlain.unlisted {first : Char} {rest : List Char} (plain : IsPlain (first :: rest)) :
    first ∉ "#,[]\x7b\x7d&*!|>'\"%@`".toList := by
  have starts := plain.starts
  simp only [Traits.startsIndicator, Bool.or_eq_false_iff] at starts
  rw [← List.contains_iff_mem, starts.1]
  decide

theorem IsPlain.apart {first : Char} {rest : List Char} (plain : IsPlain (first :: rest))
    (marked : first ∈ "?:-".toList) (more : List Char) (line column index : Nat) :
    (⟨first :: rest ++ more, line, column, index⟩ : Cursor).separatedAt 1 = false := by
  have starts := plain.starts
  simp only [Traits.startsIndicator, Bool.or_eq_false_iff, Bool.and_eq_false_imp] at starts
  have no := List.contains_iff_mem.mpr marked
  cases rest with
  | nil => exact absurd no (Bool.eq_false_iff.mp (starts.2 rfl))
  | cons second others =>
    refine Bool.eq_false_iff.mpr fun separated => ?_
    exact absurd no (Bool.eq_false_iff.mp (starts.2 separated))

theorem opens_of_isPlain (plain : IsPlain text) : Opens text := by
  obtain ⟨first, rest, rfl, solid, sign⟩ := plain.words.starts
  refine opens_cons ⟨solid, sign, ?_⟩
  rintro rfl
  exact absurd (plain.printable _ List.mem_cons_self) (by decide)

theorem readsAs_plain_remarks {remarks : List Remark} (plain : IsPlain text)
    (lines : AreLines remarks) :
    ReadsAs around (text ++ '\n' :: remarksText remarks) (.scalar .plain (String.ofList text)) := by
  obtain ⟨first, rest, rfl, solid, -⟩ := plain.words.starts
  refine ⟨(opens_of_isPlain plain).append (List.cons_ne_nil _ _) _, List.cons_ne_nil _ _, ?_⟩
  intro after column leads inside line index outer keyAllowed reversed
  -- The scalar takes the gap behind it, as far as a comment or the next line.
  obtain ⟨breaks, count, left, gap, noGap, stops, place⟩ := exists_gap lines leads
  have text_eq : first :: rest ++ '\n' :: remarksText remarks ++ after =
      first :: rest ++ '\n' :: (List.replicate breaks '\n' ++ (indent count ++ left)) := by
    rw [← gap, List.append_assoc]
    rfl
  have enough : (first :: rest).length <
      (first :: rest ++ '\n' :: remarksText remarks ++ after).length + 1 := by
    rw [List.append_assoc, List.length_append]
    omega
  have read := readPlain?_words plain.words noGap (stops.imp_left Nat.lt_succ_of_le) enough
    breaks [] .none line column index inside (Nat.zero_lt_of_lt inside)
  rw [← text_eq] at read
  have token : token? ⟨⟨first :: rest ++ '\n' :: remarksText remarks ++ after, line, column, index⟩,
      around, outer, keyAllowed, [none], reversed⟩ first = _ := token?_plain rfl
    (Cursor.atDocumentBound_of_pos (Nat.zero_lt_of_lt inside)) solid plain.unlisted
    fun marked => by
      rw [List.append_assoc]
      exact plain.apart marked _ _ _ _
  obtain ⟨pending, saved, taken⟩ := plainScalar?_inside inside read
  refine ⟨first, _, rfl, token.trans taken, ?_,
    place (saved.passed (Nat.lt_add_of_pos_right (Nat.succ_pos breaks)))⟩
  simp only [text_eq, List.length_append, List.length_cons]
  omega

theorem readsAs_plain (plain : IsPlain text) :
    ReadsAs around (text ++ ['\n']) (.scalar .plain (String.ofList text)) :=
  readsAs_plain_remarks plain areLines_nil

theorem length_le_singleQuotedRun (width : Nat) (afterBreak : Bool) (text : List Char) :
    text.length ≤ (singleQuotedRun width afterBreak text).length := by
  induction text generalizing afterBreak with
  | nil => exact Nat.zero_le _
  | cons first rest ih =>
    rw [singleQuotedRun]
    split
    · exact Nat.succ_le_succ (ih true)
    · have later := ih false
      have some : 0 < (if first == '\'' then ['\'', '\''] else [first]).length := by
        split <;> exact Nat.succ_pos _
      simp only [List.length_append, List.length_cons]
      omega

theorem readsAs_singleQuoted (single : IsSingle text) :
    ReadsAs around (singleQuoted (around + 2) text ++ ['\n'])
      (.scalar .singleQuoted (String.ofList text)) := by
  refine ⟨opens_cons (by decide), List.cons_ne_nil _ _, ?_⟩
  intro after column leads inside line index outer keyAllowed reversed
  have text_eq : singleQuoted (around + 2) text ++ ['\n'] ++ after =
      '\'' :: (singleQuotedRun (around + 2) false text ++ '\'' :: '\n' :: after) := by
    simp [singleQuoted]
  rw [text_eq]
  have long := length_le_singleQuotedRun (around + 2) false text
  have quote : ('\n' :: after).head? ≠ some '\'' := by
    rintro ⟨⟩
  have enough : text.length < ('\'' :: (singleQuotedRun (around + 2) false text ++
      '\'' :: '\n' :: after)).length + 1 := by
    rw [List.length_cons, List.length_append]
    omega
  obtain ⟨line', column', index', later, read⟩ := readQuoted?_single single quote
    (Nat.succ_pos (around + 1)) enough [] line (column + 1) (index + 1) (Nat.succ_pos column)
  obtain ⟨pending, saved, taken⟩ := quotedScalar?_inside inside read
  refine ⟨'\'', _, rfl, (token?_singleQuote ?_).trans taken, ?_,
    atLine_newline leads (saved.passed (Nat.lt_succ_of_le later))⟩
  · exact Cursor.atDocumentBound_of_pos (Nat.zero_lt_of_lt inside)
  · simp only [List.length_append, List.length_cons]
    omega

theorem readsAs_doubleQuoted_remarks {remarks : List Remark} (text : List Char)
    (lines : AreLines remarks) :
    ReadsAs around (doubleQuoted text ++ '\n' :: remarksText remarks)
      (.scalar .doubleQuoted (String.ofList text)) := by
  refine ⟨opens_cons (by decide), List.cons_ne_nil _ _, ?_⟩
  intro after column leads inside line index outer keyAllowed reversed
  have text_eq : doubleQuoted text ++ '\n' :: remarksText remarks ++ after =
      '"' :: (text.flatMap escapeDouble ++ '"' :: '\n' :: (remarksText remarks ++ after)) := by
    simp [doubleQuoted]
  rw [text_eq]
  have long := length_le_flatMap_escapeDouble text
  have enough : text.length < ('"' :: (text.flatMap escapeDouble ++
      '"' :: '\n' :: (remarksText remarks ++ after))).length + 1 := by
    rw [List.length_cons, List.length_append]
    omega
  obtain ⟨column', index', -, read⟩ := readQuoted?_double text
    ('\n' :: (remarksText remarks ++ after)) enough [] line (column + 1) (index + 1)
    (Nat.succ_pos column)
  obtain ⟨pending, saved, taken⟩ := quotedScalar?_inside inside read
  refine ⟨'"', _, rfl, (token?_doubleQuote ?_).trans taken, ?_,
    atLine_newline_remarks lines leads (saved.passed (Nat.lt_succ_self line))⟩
  · exact Cursor.atDocumentBound_of_pos (Nat.zero_lt_of_lt inside)
  · simp only [List.length_append, List.length_cons]
    omega

theorem readsAs_doubleQuoted (text : List Char) :
    ReadsAs around (doubleQuoted text ++ ['\n']) (.scalar .doubleQuoted (String.ofList text)) :=
  readsAs_doubleQuoted_remarks text areLines_nil

theorem readsAs_literal (some : text ≠ [])
    (printable : ∀ character ∈ text, isPrintable character = true) :
    ReadsAs around (literal (around + 2) text ++ if text.getLast?.any isBreak then [] else ['\n'])
      (.scalar .literal (String.ofList text)) := by
  have text_eq : literal (around + 2) text ++ (if text.getLast?.any isBreak then [] else ['\n']) =
      '|' :: (indentationHint text ++ (chompingMark text ++
        '\n' :: literalLines (around + 2) true (closeLine text))) := by
    rw [literal_eq, ← literalLines_closeLine]
    simp
  rw [text_eq]
  refine ⟨opens_cons (by decide), List.cons_ne_nil _ _, ?_⟩
  intro after column leads inside line index outer keyAllowed reversed
  obtain ⟨line', index', later, read⟩ := readBlock?_literal some printable
    (show lead after < around + 2 from Nat.lt_succ_of_le (Nat.le_succ_of_le leads.bound))
    leads.opens.noGap line (column + 1) (index + 1)
  rw [indent_lead] at read
  have taken : (⟨⟨'|' :: (indentationHint text ++ (chompingMark text ++
        '\n' :: literalLines (around + 2) true (closeLine text))) ++ after, line, column, index⟩,
        around, outer, keyAllowed, [none], reversed⟩ : Scan).blockScalar? true =
      .some ⟨⟨after.drop (lead after), line', lead after, index'⟩, around, outer, true, [none],
        .scalar .literal (String.ofList text) :: reversed⟩ := by
    have place : Cursor.advance ⟨'|' :: (indentationHint text ++ (chompingMark text ++
        '\n' :: literalLines (around + 2) true (closeLine text))) ++ after, line, column, index⟩ 1 =
        ⟨indentationHint text ++ (chompingMark text ++ '\n' :: (literalLines (around + 2) true
          (closeLine text) ++ after)), line, column + 1, index + 1⟩ := by
      simp [Cursor.advance]
    simp only [blockScalar?, dropPending?, Option.bind_eq_bind, Option.bind_some, place, read,
      push, if_true]
  refine ⟨'|', _, rfl, (token?_bar rfl ?_).trans taken, ?_,
    atLine_behind leads (passed_none line')⟩
  · exact Cursor.atDocumentBound_of_pos (Nat.zero_lt_of_lt inside)
  · simp only [List.length_append, List.length_cons, List.length_drop]
    omega

/-! ## Texts -/

/-- What a text is like that is written in a style. -/
inductive Styled (content : String) : Prop
  | plain (style : styleOf content = .plain) (plain : IsPlain content.toList)
    (meaning : hasOtherMeaning content = false)
  | single (style : styleOf content = .singleQuoted) (single : IsSingle content.toList)
  | double (style : styleOf content = .doubleQuoted)
  | literal (style : styleOf content = .literal) (some : content.toList ≠ [])
    (printable : ∀ character ∈ content.toList, isPrintable character = true)

theorem styled (content : String) : Styled content := by
  have style : styleOf content = styleOf content := rfl
  conv at style => rhs; unfold styleOf
  simp only at style
  split at style
  · rename_i lines
    split at style
    · rename_i allowed
      refine .literal style ?_ ?_
      · intro none
        rw [none] at lines
        cases lines
      · simp only [Traits.allowLiteral, Traits.ofText, Bool.not_eq_true', Bool.or_eq_false_iff,
          Bool.not_eq_false'] at allowed
        exact List.all_eq_true.mp allowed.1.1
    · exact .double style
  · rename_i lines
    have oneLine : '\n' ∉ content.toList := fun member => lines (List.contains_iff_mem.mpr member)
    have quoted (style : styleOf content = if (Traits.ofText content.toList).allowSingle = true
        then .singleQuoted else .doubleQuoted) : Styled content := by
      split at style
      · rename_i allowed
        exact .single style (isSingle_of_allowSingle oneLine allowed)
      · exact .double style
    split at style
    · exact quoted style
    · rename_i meaning
      split at style
      · rename_i allowed
        refine .plain style (isPlain_of_allowPlain ?_ allowed) (Bool.eq_false_iff.mpr meaning)
        intro none
        refine meaning ?_
        rw [hasOtherMeaning, String.isEmpty_iff.mpr (String.toList_inj.mp none)]
        rfl
      · exact quoted style

/-- A text is read as one token, as it is written. -/
theorem readsAs_textScalar (around : Nat) (content : String) :
    ReadsAs around (textScalar (around + 2) content) (.scalar (styleOf content) content) := by
  have whole : String.ofList content.toList = content := String.ofList_toList
  cases styled content with
  | plain style plain _ =>
    have reads : ReadsAs around _ _ := readsAs_plain plain
    simp only [textScalar, style]
    rwa [whole] at reads
  | single style single =>
    have reads : ReadsAs around _ _ := readsAs_singleQuoted single
    simp only [textScalar, style]
    rwa [whole] at reads
  | double style =>
    have reads : ReadsAs around _ _ := readsAs_doubleQuoted content.toList
    simp only [textScalar, style]
    rwa [whole] at reads
  | literal style some printable =>
    have reads : ReadsAs around _ _ := readsAs_literal some printable
    simp only [textScalar, style]
    rwa [whole] at reads

end PowerTest.Yaml
