import PowerTest.Proofs.Yaml.Documents

/-!
# Rows

A list can be written on one line, between brackets and with a comma and a blank between two items.
Between brackets the scanner looks for no blocks and ends a plain scalar at commas and brackets. A
row of names and of texts between double quotes is scanned as the tokens of its items, with commas
between them: `follows_row`.
-/

namespace PowerTest.Yaml

/-! ## What is written -/

/-- An item of a row: a name, or a text between double quotes. -/
inductive RowItem
  | name (word : String)
  | quoted (content : String)

namespace RowItem

/-- What is written for an item. -/
def written : RowItem → List Char
  | name word => word.toList
  | quoted content => doubleQuoted content.toList

/-- The token of an item. -/
def token : RowItem → Token
  | name word => .scalar .plain word
  | quoted content => .scalar .doubleQuoted content

/-- Whether an item is written as it can be read: only names need no quotes. -/
def isWritten : RowItem → Bool
  | name word => isName word
  | quoted _ => true

end RowItem

/-- What is written behind an item of a row. -/
def rowRest : List RowItem → List Char
  | [] => [']']
  | item :: rest => ',' :: ' ' :: (item.written ++ rowRest rest)

/-- What is written for a row. -/
def rowText : List RowItem → List Char
  | [] => '[' :: rowRest []
  | item :: rest => '[' :: (item.written ++ rowRest rest)

/-- The tokens behind an item of a row. -/
def rowRestTokens : List RowItem → List Token
  | [] => [.flowSequenceEnd]
  | item :: rest => .flowEntry :: item.token :: rowRestTokens rest

/-- The tokens of a row. -/
def rowTokens : List RowItem → List Token
  | [] => .flowSequenceStart :: rowRestTokens []
  | item :: rest => .flowSequenceStart :: item.token :: rowRestTokens rest

variable {text after : List Char} {line column index : Nat} {indentation : Int} {outer : List Int}
  {keyAllowed : Bool} {pending : Option PendingKey} {reversed : List Token} {scan : Scan}
  {items : List RowItem} {item : RowItem} {stop : Char}

/-! ## Items -/

/-- A character that ends a name between brackets: a comma, or the bracket that closes a row. -/
def EndsItem (stop : Char) : Prop := stop = ',' ∨ stop = ']'

/-- A name between brackets is read up to what ends it. -/
theorem readPlainRun?_name {word : List Char}
    (names : ∀ character ∈ word, isNameCharacter character = true) (ends : EndsItem stop)
    {fuel : Nat} (enough : word.length < fuel) (known : List Char) (line column index : Nat) :
    readPlainRun? true fuel known ⟨word ++ stop :: after, line, column, index⟩ =
      some (word.reverse ++ known,
        ⟨stop :: after, line, column + word.length, index + word.length⟩) := by
  induction word generalizing fuel known column index with
  | nil =>
    obtain ⟨fuel, rfl⟩ : ∃ less, fuel = less + 1 := ⟨fuel - 1, by omega⟩
    rcases ends with rfl | rfl <;> rfl
  | cons first word ih =>
    obtain ⟨own, others⟩ := List.forall_mem_cons.mp names
    obtain ⟨fuel, rfl⟩ : ∃ less, fuel = less + 1 := ⟨fuel - 1, by omega⟩
    have away : ∀ mark ∈ ":,[]\x7b\x7d".toList, (first == mark) = false := by
      intro mark member
      rw [beq_eq_false_iff_ne]
      rintro rfl
      exact not_mem_of_isNameCharacter own (mem_of_all (by decide) member)
    have bound : isFlowBound first = false := by
      simp only [isFlowBound, away ',' (by decide), away '[' (by decide), away ']' (by decide),
        away '\x7b' (by decide), away '\x7d' (by decide), Bool.or_self]
    have rest := ih others (Nat.lt_of_succ_lt_succ enough) (first :: known) (column + 1) (index + 1)
    simp only [List.cons_append, readPlainRun?, Cursor.next?, List.head?_cons,
      isSeparator_of_isNameCharacter own, away ':' (by decide), bound, Bool.and_false,
      Bool.false_and, Bool.or_self, Bool.false_eq_true, if_false]
    refine rest.trans ?_
    rw [List.reverse_cons, List.append_assoc, List.length_cons, Nat.add_assoc, Nat.add_assoc,
      Nat.add_comm 1]
    rfl

theorem readPlain?_name {name : String} (isName : isName name = true) (ends : EndsItem stop)
    (after : List Char) (limit line index : Nat) (inside : 0 < column) :
    readPlain? true limit ((name.toList ++ stop :: after).length + 1) [] .none
        ⟨name.toList ++ stop :: after, line, column, index⟩ =
      some (name, false,
        ⟨stop :: after, line, column + name.toList.length, index + name.toList.length⟩) := by
  obtain ⟨first, rest, same, start⟩ := exists_startsName isName
  simp only [Yaml.isName, Bool.and_eq_true] at isName
  have enough : name.toList.length < (name.toList ++ stop :: after).length + 1 := by
    rw [List.length_append]
    omega
  have run : readPlainRun? true _ [] ⟨name.toList ++ stop :: after, line, column, index⟩ = _ :=
    readPlainRun?_name (List.all_eq_true.mp isName.1.2) ends enough [] line column index
  rw [List.append_nil] at run
  have unbound : (⟨name.toList ++ stop :: after, line, column, index⟩ : Cursor).atDocumentBound =
      false := Cursor.atDocumentBound_of_pos inside
  have sign : (⟨name.toList ++ stop :: after, line, column, index⟩ : Cursor).isAt '#' = false := by
    rw [same]
    refine beq_eq_false_iff_ne.mpr fun marked => ?_
    obtain rfl := Option.some.inj marked
    exact not_mem_of_isNameCharacter start.name (by decide)
  have solid (column index : Nat) : (⟨stop :: after, line, column, index⟩ : Cursor).satisfies 0
      isSeparator = false := by
    rcases ends with rfl | rfl <;> rfl
  obtain ⟨last, others, reversed⟩ : ∃ last others, name.toList.reverse = last :: others := by
    refine List.exists_cons_of_ne_nil ?_
    rw [same]
    simp
  rw [reversed] at run
  have whole : String.ofList (last :: others).reverse = name := by
    rw [← reversed, List.reverse_reverse, String.ofList_toList]
  simp only [readPlain?, unbound, sign, Bool.or_self, Bool.false_eq_true, if_false, run, solid,
    Gap.none, Gap.folded, List.reverse_nil, List.append_nil, whole]

/-! ## Steps between brackets -/

namespace Scan

/-- A token that need not turn out to be a key. -/
def Free (pending : Option PendingKey) : Prop := ∀ key ∈ pending, key.required = false

theorem free_none : Free none := by
  intro key member
  cases member

/-- Between brackets, only blanks are passed in front of a token. -/
theorem settle?_row (count : Nat) (opens : Opens after) (free : Free pending)
    (line column index : Nat) (indentation : Int) (outer : List Int) (keyAllowed : Bool)
    (reversed : List Token) :
    ∃ left, Free left ∧
      (⟨⟨indent count ++ after, line, column, index⟩, indentation, outer, keyAllowed,
          [pending, none], reversed⟩ : Scan).settle? =
        some ⟨⟨after, line, column + count, index + count⟩, indentation, outer, keyAllowed,
          [left, none], reversed⟩ := by
  obtain ⟨left, freeLeft, kept⟩ : ∃ left, Free left ∧
      dropStale? ⟨after, line, column + count, index + count⟩ [pending, none] =
        some [left, none] := by
    cases pending with
    | none => exact ⟨none, free_none, rfl⟩
    | some key =>
      by_cases stale : isStale ⟨after, line, column + count, index + count⟩ key = true
      · refine ⟨none, free_none, ?_⟩
        simp only [dropStale?, stale, free key rfl, if_true, Bool.false_eq_true, if_false,
          Option.map_some]
      · refine ⟨some key, free, ?_⟩
        simp only [dropStale?, stale, Bool.false_eq_true, if_false, Option.map_some]
  have flow : (⟨⟨indent count ++ after, line, column, index⟩, indentation, outer, keyAllowed,
    [pending, none], reversed⟩ : Scan).inFlow = true := rfl
  have inside : (⟨⟨after, line, column + count, index + count⟩, indentation, outer, keyAllowed,
    [left, none], reversed⟩ : Scan).inFlow = true := rfl
  refine ⟨left, freeLeft, ?_⟩
  rw [settle?]
  simp only [flow, skipToToken_indent true opens, kept, Option.map_some, closeBlocks, inside,
    if_true]

theorem dropPending?_row {cursor : Cursor} (free : Free pending) :
    (⟨cursor, indentation, outer, keyAllowed, [pending, none], reversed⟩ : Scan).dropPending? =
      some ⟨cursor, indentation, outer, keyAllowed, [none, none], reversed⟩ := by
  cases pending with
  | none => rfl
  | some key =>
    simp only [dropPending?, free key rfl, Bool.false_eq_true, if_false]

/-- A scalar between brackets need not turn out to be a key. -/
theorem keyScalar?_row {read : Cursor → Option (Style × String × Bool × Cursor)} {style : Style}
    {content : String} {allowed : Bool} {cursor : Cursor} (free : Free pending)
    (reads : read ⟨text, line, column, index⟩ = some (style, content, allowed, cursor)) :
    ∃ left, Free left ∧
      (⟨⟨text, line, column, index⟩, indentation, outer, true, [pending, none], reversed⟩ :
          Scan).keyScalar? read =
        some ⟨cursor, indentation, outer, allowed, [left, none],
          .scalar style content :: reversed⟩ := by
  refine ⟨some ⟨false, reversed.length, line, column, index⟩, fun key member => ?_, ?_⟩
  · cases member
    rfl
  · simp [keyScalar?, savePending?, dropPending?_row free, inFlow, reads, push]

theorem plainScalar?_row {content : String} {broken : Bool} {cursor : Cursor}
    (free : Free pending)
    (reads : readPlain? true (indentation + 1).toNat (text.length + 1) [] .none
      ⟨text, line, column, index⟩ = some (content, broken, cursor)) :
    ∃ left, Free left ∧
      (⟨⟨text, line, column, index⟩, indentation, outer, true, [pending, none], reversed⟩ :
          Scan).plainScalar? =
        some ⟨cursor, indentation, outer, broken, [left, none],
          .scalar .plain content :: reversed⟩ := by
  refine keyScalar?_row free ?_
  have flow : (⟨⟨text, line, column, index⟩, indentation, outer, true, [pending, none],
    reversed⟩ : Scan).inFlow = true := rfl
  simp only [flow, reads, Option.map_some]

theorem quotedScalar?_row {content : String} {cursor : Cursor} (free : Free pending)
    (reads : readQuoted? false (text.length + 1) []
      (Cursor.advance ⟨text, line, column, index⟩ 1) = some (content, cursor)) :
    ∃ left, Free left ∧
      (⟨⟨text, line, column, index⟩, indentation, outer, true, [pending, none], reversed⟩ :
          Scan).quotedScalar? false =
        some ⟨cursor, indentation, outer, false, [left, none],
          .scalar .doubleQuoted content :: reversed⟩ := by
  refine keyScalar?_row free ?_
  simp only [reads, Option.map_some, Bool.false_eq_true, if_false]

theorem token?_startsName {first : Char} (bound : scan.cursor.atDocumentBound = false)
    (start : StartsName first) : scan.token? first = scan.plainScalar? := by
  have away : ∀ mark ∈ ":?#,[]\x7b\x7d&*!|>'\"%@`".toList, (first == mark) = false := by
    intro mark member
    rw [beq_eq_false_iff_ne]
    rintro rfl
    exact not_mem_of_isNameCharacter start.name (mem_of_all (by decide) member)
  have dash : (first == '-') = false := beq_eq_false_iff_ne.mpr start.dash
  have unlisted : ",[]\x7b\x7d#&*!|>'\"%@`".toList.contains first = false := by
    rw [Bool.eq_false_iff, ne_eq, List.contains_iff_mem]
    exact fun member => not_mem_of_isNameCharacter start.name (mem_of_all (by decide) member)
  obtain ⟨dashes, dots⟩ := Bool.or_eq_false_iff.mp bound
  have starts : scan.startsPlain first = true := by
    simp only [startsPlain, isSeparator_of_isNameCharacter start.name, dash, away '?' (by decide),
      away ':' (by decide), unlisted, Bool.or_self, Bool.false_eq_true, if_false, Bool.not_false]
  simp only [token?, dashes, dots, dash, starts, away '%' (by decide), away '[' (by decide),
    away '\x7b' (by decide), away ']' (by decide), away '\x7d' (by decide), away ',' (by decide),
    away '?' (by decide), away ':' (by decide), away '*' (by decide), away '&' (by decide),
    away '!' (by decide), away '|' (by decide), away '>' (by decide), away '\'' (by decide),
    away '"' (by decide), Bool.false_and, Bool.and_false, Bool.false_eq_true, if_false, if_true]

theorem opens_item (written : item.isWritten = true) (after : List Char) :
    Opens (item.written ++ after) := by
  cases item with
  | name word =>
    obtain ⟨first, rest, same, start⟩ := exists_startsName written
    rw [RowItem.written, same]
    exact opens_of_startsName start
  | quoted content => exact opens_cons (by decide)

/-- An item of a row is taken as its token, up to what ends it. -/
theorem step_item (count : Nat) (written : item.isWritten = true) (ends : EndsItem stop)
    (free : Free pending) (inside : 0 < column) :
    ∃ column' index' left, 0 < column' ∧ Free left ∧
      Step ⟨⟨indent count ++ (item.written ++ stop :: after), line, column, index⟩, indentation,
          outer, true, [pending, none], reversed⟩
        ⟨⟨stop :: after, line, column', index'⟩, indentation, outer, false, [left, none],
          item.token :: reversed⟩ := by
  obtain ⟨kept, freeKept, settles⟩ := settle?_row count (opens_item written (stop :: after)) free
    line column index indentation outer true reversed
  have right : 0 < column + count := Nat.lt_of_lt_of_le inside (Nat.le_add_right _ _)
  have bound (text : List Char) :
      (⟨text, line, column + count, index + count⟩ : Cursor).atDocumentBound = false :=
    Cursor.atDocumentBound_of_pos right
  cases item with
  | name word =>
    obtain ⟨first, rest, same, start⟩ := exists_startsName written
    obtain ⟨left, freeLeft, taken⟩ := plainScalar?_row freeKept
      (readPlain?_name written ends after (indentation + 1).toNat line (index + count) right)
    refine ⟨_, _, left, Nat.lt_of_lt_of_le right (Nat.le_add_right _ _), freeLeft, _, first,
      settles, ?_, (token?_startsName (bound _) start).trans taken, ?_⟩
    · rw [Cursor.next?, RowItem.written, same]
      rfl
    · rw [RowItem.written, same]
      simp only [List.length_append, List.length_cons]
      omega
  | quoted content =>
    have text_eq : (RowItem.quoted content).written ++ stop :: after =
        '"' :: (content.toList.flatMap escapeDouble ++ '"' :: stop :: after) := by
      simp [RowItem.written, doubleQuoted]
    rw [text_eq] at settles ⊢
    have long := length_le_flatMap_escapeDouble content.toList
    have enough : content.toList.length < ('"' :: (content.toList.flatMap escapeDouble ++
        '"' :: stop :: after)).length + 1 := by
      rw [List.length_cons, List.length_append]
      omega
    obtain ⟨column', index', further, read⟩ := readQuoted?_double content.toList (stop :: after)
      enough [] line (column + count + 1) (index + count + 1) (Nat.succ_pos _)
    obtain ⟨left, freeLeft, taken⟩ := quotedScalar?_row freeKept read
    rw [List.reverse_nil, List.nil_append, String.ofList_toList] at taken
    refine ⟨column', index', left, further, freeLeft, _, '"', settles, rfl,
      (token?_doubleQuote (bound _)).trans taken, ?_⟩
    simp only [List.length_append, List.length_cons]
    omega

/-- The comma behind an item is a token. -/
theorem step_comma (free : Free pending) (inside : 0 < column) :
    Step ⟨⟨',' :: after, line, column, index⟩, indentation, outer, keyAllowed, [pending, none],
        reversed⟩
      ⟨⟨after, line, column + 1, index + 1⟩, indentation, outer, true, [none, none],
        .flowEntry :: reversed⟩ := by
  have opens : Opens (',' :: after) := opens_cons (by decide)
  obtain ⟨left, freeLeft, settles⟩ := settle?_row 0 opens free line column index indentation outer
    keyAllowed reversed
  have bound : (⟨',' :: after, line, column, index⟩ : Cursor).atDocumentBound = false :=
    Cursor.atDocumentBound_of_pos inside
  obtain ⟨dashes, dots⟩ := Bool.or_eq_false_iff.mp bound
  refine ⟨_, ',', settles, rfl, ?_, Nat.lt_succ_self _⟩
  simp [token?, dashes, dots, dropPending?_row freeLeft, indicator, push, Cursor.advance]

/-- The bracket behind a row closes it. -/
theorem step_close (free : Free pending) (inside : 0 < column) :
    Step ⟨⟨']' :: after, line, column, index⟩, indentation, outer, keyAllowed, [pending, none],
        reversed⟩
      ⟨⟨after, line, column + 1, index + 1⟩, indentation, outer, false, [none],
        .flowSequenceEnd :: reversed⟩ := by
  have opens : Opens (']' :: after) := opens_cons (by decide)
  obtain ⟨left, freeLeft, settles⟩ := settle?_row 0 opens free line column index indentation outer
    keyAllowed reversed
  have bound : (⟨']' :: after, line, column, index⟩ : Cursor).atDocumentBound = false :=
    Cursor.atDocumentBound_of_pos inside
  obtain ⟨dashes, dots⟩ := Bool.or_eq_false_iff.mp bound
  refine ⟨_, ']', settles, rfl, ?_, Nat.lt_succ_self _⟩
  simp [token?, dashes, dots, closeFlow?, dropPending?_row freeLeft, inFlow, indicator, push,
    Cursor.advance]

theorem exists_endsItem (items : List RowItem) (after : List Char) :
    ∃ stop more, rowRest items ++ after = stop :: more ∧ EndsItem stop := by
  cases items with
  | nil => exact ⟨_, _, rfl, .inr rfl⟩
  | cons item rest => exact ⟨_, _, rfl, .inl rfl⟩

/-- The rest of a row is taken item by item. -/
theorem steps_rowRest (written : ∀ item ∈ items, item.isWritten = true) (free : Free pending)
    (inside : 0 < column) :
    ∃ column' index', Steps ⟨⟨rowRest items ++ after, line, column, index⟩, indentation, outer,
        keyAllowed, [pending, none], reversed⟩
      ⟨⟨after, line, column', index'⟩, indentation, outer, false, [none],
        (rowRestTokens items).reverse ++ reversed⟩ := by
  induction items generalizing column index keyAllowed pending reversed with
  | nil => exact ⟨_, _, .single (step_close free inside)⟩
  | cons item rest ih =>
    obtain ⟨own, others⟩ := List.forall_mem_cons.mp written
    obtain ⟨stop, more, behind, ends⟩ := exists_endsItem rest after
    have text_eq : rowRest (item :: rest) ++ after =
        ',' :: (indent 1 ++ (item.written ++ stop :: more)) := by
      rw [← behind, rowRest]
      simp [indent]
    obtain ⟨column', index', left, right, freeLeft, item⟩ := step_item 1 own ends free_none
      (Nat.succ_pos column)
    obtain ⟨last, final, steps⟩ := ih others freeLeft right
    rw [behind] at steps
    refine ⟨last, final, ?_⟩
    rw [text_eq]
    refine .head (step_comma free inside) (.head item ?_)
    simpa [rowRestTokens] using steps

/-- The bracket behind a blank opens a row. -/
theorem step_open {around : Nat} (inside : around < column) :
    Step ⟨⟨' ' :: '[' :: after, line, column, index⟩, around, outer, false, [none], reversed⟩
      ⟨⟨after, line, column + 2, index + 2⟩, around, outer, true, [none, none],
        .flowSequenceStart :: reversed⟩ := by
  have settles : settle? ⟨⟨' ' :: '[' :: after, line, column, index⟩, around, outer, false, [none],
      reversed⟩ = some ⟨⟨'[' :: after, line, column + 1, index + 1⟩, around, outer, false, [none],
        reversed⟩ :=
    settle?_indent 1 (opens_cons (by decide)) (by omega) rfl
  have bound : (⟨'[' :: after, line, column + 1, index + 1⟩ : Cursor).atDocumentBound = false :=
    Cursor.atDocumentBound_of_pos (Nat.succ_pos column)
  obtain ⟨dashes, dots⟩ := Bool.or_eq_false_iff.mp bound
  refine ⟨_, '[', settles, rfl, ?_, Nat.lt_succ_self _⟩
  simp [token?, dashes, dots, openFlow?, savePending?, indicator, push, Cursor.advance]

end Scan

/-- A row is scanned as its tokens. -/
theorem follows_row {around : Nat} {remarks : List Remark}
    (written : ∀ item ∈ items, item.isWritten = true) (lines : AreLines remarks) :
    Follows around (' ' :: (rowText items ++ '\n' :: remarksText remarks)) (rowTokens items) := by
  intro line column index outer reversed after leads inside
  have text_eq (row : List Char) :
      ' ' :: ('[' :: row ++ '\n' :: remarksText remarks) ++ after =
        ' ' :: '[' :: (row ++ '\n' :: (remarksText remarks ++ after)) := by
    simp
  have right : 0 < column + 2 := Nat.succ_pos _
  cases items with
  | nil =>
    obtain ⟨column', index', steps⟩ := Scan.steps_rowRest written Scan.free_none right
    rw [rowText, text_eq]
    refine ⟨_, .head (Scan.step_open inside) steps, ?_⟩
    simpa [rowTokens] using Scan.atLine_newline_remarks lines leads (Scan.passed_none _)
  | cons item rest =>
    obtain ⟨own, others⟩ := List.forall_mem_cons.mp written
    obtain ⟨stop, more, behind, ends⟩ :=
      Scan.exists_endsItem rest ('\n' :: (remarksText remarks ++ after))
    obtain ⟨place, index', left, further, freeLeft, first⟩ := Scan.step_item 0 own ends
      Scan.free_none right
    obtain ⟨last, final, steps⟩ := Scan.steps_rowRest others freeLeft further
    rw [behind] at steps
    rw [rowText, text_eq, List.append_assoc, behind]
    refine ⟨_, .head (Scan.step_open inside) (.head first steps), ?_⟩
    simpa [rowTokens] using Scan.atLine_newline_remarks lines leads (Scan.passed_none _)

end PowerTest.Yaml
