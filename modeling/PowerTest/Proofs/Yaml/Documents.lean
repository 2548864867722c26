import PowerTest.Proofs.Yaml.Scalars

/-!
# Documents that are scanned

The tokens of a document are those of its entries in order, with the bounds of the mappings that
its indentation shows (`tokens?_document`). Each entry leaves the scanner at the start of the line
after it, in the block that it stands in, so lines are scanned one behind the other
(`Lines.append`), and remarks may stand before them (`tokens?_lines`).
-/

namespace PowerTest.Yaml

/-! ## What is written -/

/-- Whether a text can be a key without quotes: a name of letters, digits and a few marks. -/
def isName (key : String) : Bool :=
  key.toList.head?.any (· != '-') && key.toList.all isNameCharacter &&
    decide (key.toList.length ≤ Scan.longestKey)

mutual

/-- What is written without quotes is a plain scalar, and keys are names. -/
def Entry.Written : Entry → Prop
  | .plain written => IsPlain written.toList
  | .text _ => True
  | .texts _ => True
  | .nested entries => EntriesWritten entries

/-- Keys are names, and what stands behind them can be written. -/
def EntriesWritten : List (String × Entry) → Prop
  | [] => True
  | (key, entry) :: rest => isName key = true ∧ entry.Written ∧ EntriesWritten rest

end

/-- The tokens of items. -/
def itemTokens : List String → List Token
  | [] => []
  | content :: rest => .blockEntry :: .scalar (styleOf content) content :: itemTokens rest

mutual

/-- The tokens of an entry. -/
def Entry.tokens : Entry → List Token
  | .plain written => [.scalar .plain written]
  | .text content => [.scalar (styleOf content) content]
  | .texts [] => [.flowSequenceStart, .flowSequenceEnd]
  | .texts (first :: rest) => itemTokens (first :: rest)
  | .nested [] => [.flowMappingStart, .flowMappingEnd]
  | .nested (first :: rest) => .blockMappingStart :: entryTokens (first :: rest) ++ [.blockEnd]

/-- The tokens of keys and their entries. -/
def entryTokens : List (String × Entry) → List Token
  | [] => []
  | (key, entry) :: rest =>
    .key :: .scalar .plain key :: .value :: entry.tokens ++ entryTokens rest

end

variable {text after : List Char} {line column index count around : Nat} {outer : List Int}
  {keyAllowed : Bool} {indentation : Int} {reversed : List Token} {scan : Scan} {key : String}

open Scan

/-! ## Keys -/

/-- A line that starts with some other character bounds no document. -/
theorem atDocumentBound_of_ne {first : Char} (dash : first ≠ '-') (dot : first ≠ '.')
    (rest : List Char) (line column index : Nat) :
    (⟨first :: rest, line, column, index⟩ : Cursor).atDocumentBound = false := by
  simp [Cursor.atDocumentBound, Cursor.atDocumentMark, dash, dot]

/-- The first character of a key. -/
structure StartsName (first : Char) : Prop where
  name : isNameCharacter first = true
  dash : first ≠ '-'

theorem exists_startsName (name : isName key = true) :
    ∃ first rest, key.toList = first :: rest ∧ StartsName first := by
  simp only [isName, Bool.and_eq_true] at name
  obtain ⟨⟨start, all⟩, -⟩ := name
  cases same : key.toList with
  | nil =>
    rw [same] at start
    cases start
  | cons first rest =>
    rw [same] at start all
    exact ⟨first, rest, rfl, List.all_eq_true.mp all first List.mem_cons_self, bne_iff_ne.mp start⟩

theorem isWord_of_isName (name : isName key = true) : IsWord key.toList ':' := by
  obtain ⟨first, rest, same, start⟩ := exists_startsName name
  simp only [isName, Bool.and_eq_true] at name
  have names : ∀ character ∈ key.toList, isNameCharacter character = true :=
    List.all_eq_true.mp name.1.2
  refine ⟨⟨first, rest, same, ?_⟩, ?_,
    isChain_unmarked (fun character member => .inl (names character member)) ':'⟩
  · rintro rfl
    exact not_mem_of_isNameCharacter start.name (by decide)
  · exact fun character member => isSeparator_of_isNameCharacter (names character member)

theorem opens_of_startsName {first : Char} {rest : List Char} (start : StartsName first) :
    Opens (first :: rest) := by
  refine opens_cons ⟨isSeparator_of_isNameCharacter start.name, ?_, ?_⟩
  · rintro rfl
    exact not_mem_of_isNameCharacter start.name (by decide)
  · rintro rfl
    exact not_mem_of_isNameCharacter start.name (by decide)

/-- The columns of the blocks around a key. -/
def opened (indentation : Int) (column : Nat) (outer : List Int) : List Int :=
  if indentation < column then indentation :: outer else outer

/-- A key that is indented more than the block around it starts a mapping. -/
def opening (indentation : Int) (column : Nat) (reversed : List Token) : List Token :=
  if indentation < column then .blockMappingStart :: reversed else reversed

theorem valueMark?_key {required : Bool} {place : Nat} (inside : indentation ≤ count) :
    (⟨⟨':' :: text, line, column, index⟩, indentation, outer, false,
        [some ⟨required, reversed.length, line, count, place⟩],
        .scalar .plain key :: reversed⟩ : Scan).valueMark? =
      some ⟨⟨text, line, column + 1, index + 1⟩, count, opened indentation count outer, false,
        [none], .value :: .scalar .plain key :: .key :: opening indentation count reversed⟩ := by
  by_cases less : indentation < count
  · have behind : reversed.length + 1 + 1 - reversed.length = 2 := by omega
    simp [valueMark?, insertAt, openBlock, indicator, push, opened, opening, less, inFlow,
      Cursor.advance, behind]
  · obtain rfl : indentation = count := by omega
    simp [valueMark?, insertAt, openBlock, indicator, push, opened, opening, inFlow, Cursor.advance]

theorem token?_colon {scan : Scan} (block : scan.inFlow = false)
    (bound : scan.cursor.atDocumentBound = false) (separated : scan.cursor.separatedAt 1 = true) :
    scan.token? ':' = scan.valueMark? := by
  obtain ⟨dashes, dots⟩ := Bool.or_eq_false_iff.mp bound
  simp [token?, block, dashes, dots, separated]

/-- A name in a column, as far as it can turn out to be a key. -/
def keyHere (indentation : Int) (position line column index : Nat) : PendingKey :=
  ⟨indentation == column, position, line, column, index⟩

/-- A name is taken up to the colon behind it. -/
theorem step_name (name : isName key = true)
    (separated : ∀ character ∈ after.head?, isSeparator character = true)
    (settles : scan.settle? = some ⟨⟨key.toList ++ ':' :: after, line, column, index⟩, indentation,
      outer, true, [none], reversed⟩) :
    Step scan ⟨⟨':' :: after, line, column + key.toList.length, index + key.toList.length⟩,
      indentation, outer, false, [some (keyHere indentation reversed.length line column index)],
      .scalar .plain key :: reversed⟩ := by
  obtain ⟨first, rest, same, start⟩ := exists_startsName name
  have bound : (⟨key.toList ++ ':' :: after, line, column, index⟩ : Cursor).atDocumentBound =
      false := by
    rw [same]
    refine atDocumentBound_of_ne start.dash ?_ _ _ _ _
    rintro rfl
    exact not_mem_of_isNameCharacter start.name (by decide)
  have read : readPlain? false (indentation + 1).toNat ((key.toList ++ ':' :: after).length + 1) []
      .none ⟨key.toList ++ ':' :: after, line, column, index⟩ = _ :=
    readPlain?_word (isWord_of_isName name) (.inr ⟨rfl, separated⟩) _ [] .none line column index
      bound
  have whole : String.ofList ([].reverse ++ (Gap.none.folded ++ key.toList)) = key :=
    String.ofList_toList
  rw [if_neg (by decide), whole] at read
  refine ⟨_, first, settles, ?_, (token?_plain rfl bound
    (isSeparator_of_isNameCharacter start.name) ?_ ?_).trans ?_, ?_⟩
  · simp only [Cursor.next?, same]
    rfl
  · exact Solid.unlisted (.inl start.name)
  · exact fun marked => absurd marked (Solid.unmarked (.inl start.name) start.dash)
  · simp only [plainScalar?, keyScalar?, savePending?, dropPending?, if_true,
      Option.bind_eq_bind, Option.bind_some, Bool.not_false, Bool.true_and,
      List.drop_succ_cons, List.drop_zero, inFlow, List.length_cons, List.length_nil,
      Nat.lt_irrefl, decide_false, read, Option.map_some, push, keyHere]
  · simp only [same, List.length_append, List.length_cons]
    omega

/-- The colon behind a name makes a key of it, which starts a mapping if it is indented more than
the block around it. -/
theorem step_colon (separated : ∀ character ∈ after.head?, isSeparator character = true)
    (inside : indentation ≤ column) {length : Nat} (short : length ≤ longestKey) :
    Step ⟨⟨':' :: after, line, column + length, index + length⟩, indentation, outer, false,
        [some (keyHere indentation reversed.length line column index)],
        .scalar .plain key :: reversed⟩
      ⟨⟨after, line, column + length + 1, index + length + 1⟩, column,
        opened indentation column outer, false, [none],
        .value :: .scalar .plain key :: .key :: opening indentation column reversed⟩ := by
  have near : isStale ⟨':' :: after, line, column + length, index + length⟩
      (keyHere indentation reversed.length line column index) = false := by
    simp only [isStale, keyHere, Nat.lt_irrefl, decide_false, Bool.false_or]
    exact decide_eq_false (by omega)
  have fresh : dropStale? ⟨':' :: after, line, column + length, index + length⟩
      [some (keyHere indentation reversed.length line column index)] =
        some [some (keyHere indentation reversed.length line column index)] := by
    simp only [dropStale?, near, Bool.false_eq_true, if_false, Option.map_some]
  have settles : settle? ⟨⟨':' :: after, line, column + length, index + length⟩, indentation,
      outer, false, [some (keyHere indentation reversed.length line column index)],
      .scalar .plain key :: reversed⟩ =
        some ⟨⟨':' :: after, line, column + length, index + length⟩, indentation, outer, false,
          [some (keyHere indentation reversed.length line column index)],
          .scalar .plain key :: reversed⟩ :=
    settle?_here (opens_cons (by decide)) (by omega) fresh
  refine ⟨_, ':', settles, rfl, (token?_colon rfl ?_ ?_).trans (valueMark?_key inside),
    Nat.lt_succ_self _⟩
  · exact atDocumentBound_of_ne (by decide) (by decide) _ _ _ _
  · exact (separatedAt_one ..).mpr separated

theorem steps_key (name : isName key = true)
    (separated : ∀ character ∈ after.head?, isSeparator character = true)
    (inside : indentation ≤ column)
    (place : AtLine (indent column ++ (key.toList ++ ':' :: after)) indentation outer reversed
      scan) :
    ∃ line column' index, column < column' ∧
      Steps scan ⟨⟨after, line, column', index⟩, column, opened indentation column outer, false,
        [none], .value :: .scalar .plain key :: .key :: opening indentation column reversed⟩ := by
  obtain ⟨first, rest, same, start⟩ := exists_startsName name
  have opens : Opens (key.toList ++ ':' :: after) := by
    rw [same]
    exact opens_of_startsName start
  obtain ⟨line, index, settles⟩ := place
  rw [lead_indent opens.blankless, drop_indent, closeBlocks_of_le inside] at settles
  have short : key.toList.length ≤ longestKey := by
    simp only [isName, Bool.and_eq_true, decide_eq_true_eq] at name
    exact name.2
  refine ⟨line, _, _, ?_, .head (step_name name separated settles)
    (.single (step_colon separated inside short))⟩
  omega

/-! ## Items -/

theorem step_dash
    (place : AtLine (indent column ++ '-' :: ' ' :: after) column outer reversed scan) :
    ∃ line index, Step scan ⟨⟨' ' :: after, line, column + 1, index⟩, column, outer, true, [none],
      .blockEntry :: reversed⟩ := by
  have opens : Opens ('-' :: ' ' :: after) := opens_cons (by decide)
  obtain ⟨line, index, settles⟩ := place
  rw [lead_indent opens.blankless, drop_indent, closeBlocks_of_le (Int.le_refl _)] at settles
  refine ⟨line, index + 1, _, '-', settles, rfl, ?_, Nat.lt_succ_self _⟩
  have separated : (⟨'-' :: ' ' :: after, line, column, index⟩ : Cursor).separatedAt 1 = true := rfl
  simp [token?, Cursor.atDocumentMark, separated, blockEntry?, openBlock, dropPending?, indicator,
    push, inFlow, Cursor.advance]

theorem leads_textItems (leads : Leads column after) (contents : List String) :
    Leads column (textItems column contents ++ after) := by
  cases contents with
  | nil => exact leads
  | cons content rest =>
    rw [textItems, List.append_assoc, List.append_assoc]
    exact leads_indent (opens_cons (by decide)) (Nat.le_refl column)

theorem steps_textItems (leads : Leads column after) (contents : List String)
    (place : AtLine (textItems column contents ++ after) column outer reversed scan) :
    ∃ next, Steps scan next ∧
      AtLine after column outer ((itemTokens contents).reverse ++ reversed) next := by
  induction contents generalizing reversed scan with
  | nil => exact ⟨scan, .refl, place⟩
  | cons content rest ih =>
    rw [textItems, List.append_assoc, List.append_assoc] at place
    obtain ⟨line, index, dash⟩ := step_dash place
    obtain ⟨next, scalar, place'⟩ := (readsAs_textScalar column content).step
      (leads_textItems leads rest) (Nat.le_succ column)
    obtain ⟨last, steps, done⟩ := ih place'
    refine ⟨last, .head dash (.head scalar steps), ?_⟩
    simpa [itemTokens] using done

/-! ## Entries -/

theorem isSeparator_head?_entryText (column : Nat) (entry : Entry) (after : List Char) :
    ∀ character ∈ (entryText column entry ++ after).head?, isSeparator character = true := by
  intro character member
  cases entry with
  | plain written =>
    cases member
    rfl
  | text content =>
    cases member
    rfl
  | texts contents =>
    cases contents <;> cases member <;> rfl
  | nested entries =>
    cases entries <;> cases member <;> rfl

theorem leads_entriesText (leads : Leads column after) {entries : List (String × Entry)}
    (written : EntriesWritten entries) : Leads column (entriesText column entries ++ after) := by
  cases entries with
  | nil => exact leads
  | cons entry rest =>
    obtain ⟨key, entry⟩ := entry
    obtain ⟨first, more, same, start⟩ := exists_startsName written.1
    rw [entriesText, List.append_assoc, List.append_assoc, List.append_assoc, same]
    exact leads_indent (opens_of_startsName start) (Nat.le_refl column)

theorem Leads.mono {less : Nat} (leads : Leads less after) (le : less ≤ column) :
    Leads column after :=
  ⟨Nat.le_trans leads.bound le, leads.opens⟩

/-- What stands behind a colon is scanned as some tokens, up to the line after it. -/
def Follows (around : Nat) (written : List Char) (tokens : List Token) : Prop :=
  ∀ {line column index outer reversed after}, Leads around after → around < column →
    ∃ next, Steps ⟨⟨written ++ after, line, column, index⟩, around, outer, false, [none],
        reversed⟩ next ∧
      AtLine after around outer (tokens.reverse ++ reversed) next

/-- The lines of a block in a column are scanned as some tokens. They start a mapping if they are
indented more than the block around them. -/
def Lines (column : Nat) (written : List Char) (tokens : List Token) : Prop :=
  ∀ {indentation : Int} {outer reversed after scan}, indentation ≤ column → Leads column after →
    AtLine (written ++ after) indentation outer reversed scan →
    ∃ next, Steps scan next ∧
      AtLine after column (opened indentation column outer)
        (tokens.reverse ++ opening indentation column reversed) next

theorem follows_scalar {written : List Char} {token : Token}
    (reads : ReadsAs around written token) : Follows around (' ' :: written) [token] := by
  intro line column index outer reversed after leads inside
  obtain ⟨next, step, place⟩ := reads.step leads (Nat.le_of_lt inside)
  exact ⟨next, .single step, place⟩

/-- An empty collection is written as two brackets. -/
theorem follows_brackets {first last : Char} {start stop : Token} (openFirst : Opens [first])
    (openLast : Opens [last])
    (starts : ∀ scan : Scan, scan.cursor.atDocumentMark '-' = false →
      scan.cursor.atDocumentMark '.' = false → scan.token? first = scan.openFlow? start)
    (stops : ∀ scan : Scan, scan.cursor.atDocumentMark '-' = false →
      scan.cursor.atDocumentMark '.' = false → scan.token? last = scan.closeFlow? stop) :
    Follows around [' ', first, last, '\n'] [start, stop] := by
  intro line column index outer reversed after leads inside
  have marks (text : List Char) (place index : Nat) :
      (⟨text, line, column + 1 + place, index⟩ : Cursor).atDocumentMark '-' = false ∧
        (⟨text, line, column + 1 + place, index⟩ : Cursor).atDocumentMark '.' = false :=
    Bool.or_eq_false_iff.mp (Cursor.atDocumentBound_of_pos (by omega))
  have settles : settle? ⟨⟨' ' :: first :: last :: '\n' :: after, line, column, index⟩, around,
      outer, false, [none], reversed⟩ = some ⟨⟨first :: last :: '\n' :: after, line, column + 1,
        index + 1⟩, around, outer, false, [none], reversed⟩ :=
    settle?_indent 1 (opens_cons (openFirst first rfl)) (by omega) rfl
  have settles' : settle? ⟨⟨last :: '\n' :: after, line, column + 1 + 1, index + 1 + 1⟩, around,
      outer, true, [none, none], start :: reversed⟩ = some ⟨⟨last :: '\n' :: after, line,
        column + 1 + 1, index + 1 + 1⟩, around, outer, true, [none, none], start :: reversed⟩ := by
    have flow : (⟨⟨last :: '\n' :: after, line, column + 1 + 1, index + 1 + 1⟩, around, outer,
      true, [none, none], start :: reversed⟩ : Scan).inFlow = true := rfl
    have skipped : skipToToken true ((last :: '\n' :: after).length + 1) true
        ⟨last :: '\n' :: after, line, column + 1 + 1, index + 1 + 1⟩ =
          (true, ⟨last :: '\n' :: after, line, column + 1 + 1, index + 1 + 1⟩) :=
      skipToToken_indent true (opens_cons (openLast last rfl)) _ true 0 _ _ _
    rw [settle?, flow]
    simp only [skipped, dropStale?, Option.map_some, closeBlocks, flow, if_true]
  obtain ⟨dashes, dots⟩ := marks (first :: last :: '\n' :: after) 0 (index + 1)
  obtain ⟨dashes', dots'⟩ := marks (last :: '\n' :: after) 1 (index + 1 + 1)
  refine ⟨_, .head ⟨_, first, settles, rfl, (starts _ dashes dots).trans rfl, Nat.lt_succ_self _⟩
    (.single ⟨_, last, settles', rfl, (stops _ dashes' dots').trans rfl, Nat.lt_succ_self _⟩),
    atLine_newline leads (passed_none _)⟩

theorem follows_texts (contents : List String) :
    Follows around ('\n' :: textItems around contents) (itemTokens contents) := by
  intro line column index outer reversed after leads inside
  exact steps_textItems leads contents
    (atLine_newline (leads_textItems leads contents) (passed_none _))

/-- A mapping behind a colon, with remarks before its first line, ends where a line is indented
less. -/
theorem follows_remarks_lines {remarks : List Remark} {written : List Char} {tokens : List Token}
    (areLines : AreLines remarks)
    (starts : ∀ {after}, Leads (around + 2) after → Leads (around + 2) (written ++ after))
    (lines : Lines (around + 2) written tokens) :
    Follows around ('\n' :: (remarksText remarks ++ written))
      (.blockMappingStart :: tokens ++ [.blockEnd]) := by
  intro line column index outer reversed after leads inside
  have deeper := leads.mono (Nat.le_add_right around 2)
  have less : (around : Int) < (around + 2 : Nat) := by omega
  rw [List.cons_append, List.append_assoc]
  -- The first key opens the mapping; the line after the last entry closes it.
  obtain ⟨next, steps, place⟩ := lines (Int.le_of_lt less) deeper
    (atLine_newline_remarks areLines (starts deeper) (passed_none _))
  rw [opened, opening, if_pos less, if_pos less] at place
  have bound := leads.bound
  refine ⟨next, steps, ?_⟩
  simpa using place.closeBlock (by omega)

theorem follows_lines {written : List Char} {tokens : List Token}
    (starts : ∀ {after}, Leads (around + 2) after → Leads (around + 2) (written ++ after))
    (lines : Lines (around + 2) written tokens) :
    Follows around ('\n' :: written) (.blockMappingStart :: tokens ++ [.blockEnd]) :=
  follows_remarks_lines areLines_nil starts lines

/-- A key and what follows it are lines of a block. -/
theorem lines_key {written : List Char} {tokens : List Token} (name : isName key = true)
    (separated : ∀ {after : List Char}, ∀ character ∈ (written ++ after).head?,
      isSeparator character = true) (follows : Follows column written tokens) :
    Lines column (indent column ++ (key.toList ++ ':' :: written))
      (.key :: .scalar .plain key :: .value :: tokens) := by
  intro indentation outer reversed after scan inside leads place
  have text_eq : indent column ++ (key.toList ++ ':' :: written) ++ after =
      indent column ++ (key.toList ++ ':' :: (written ++ after)) := by
    simp
  rw [text_eq] at place
  obtain ⟨line, column', index, right, keySteps⟩ := steps_key name separated inside place
  obtain ⟨next, steps, place⟩ := follows leads right
  refine ⟨next, keySteps.trans steps, ?_⟩
  simpa using place

/-- Lines of a block are scanned one behind the other. -/
theorem Lines.append {written others : List Char} {tokens more : List Token}
    (first : Lines column written tokens)
    (starts : ∀ {after}, Leads column after → Leads column (others ++ after))
    (rest : Lines column others more) : Lines column (written ++ others) (tokens ++ more) := by
  intro indentation outer reversed after scan inside leads place
  rw [List.append_assoc] at place
  obtain ⟨next, steps, place⟩ := first inside (starts leads) place
  -- The other keys stand in the column of the first one, so they open no mapping.
  obtain ⟨final, further, place⟩ := rest (Int.le_refl _) leads place
  rw [opened, opening, if_neg (Int.lt_irrefl _), if_neg (Int.lt_irrefl _)] at place
  refine ⟨final, steps.trans further, ?_⟩
  simpa using place

/-- A key is written on a line of its own. -/
theorem leads_key (name : isName key = true) (column : Nat) (written : List Char) :
    Leads column (indent column ++ (key.toList ++ ':' :: written)) := by
  obtain ⟨first, rest, same, start⟩ := exists_startsName name
  rw [same]
  exact leads_indent (opens_of_startsName start) (Nat.le_refl column)

theorem lines_cons {entry : Entry} {rest : List (String × Entry)} (name : isName key = true)
    (first : Follows column (entryText column entry) entry.tokens)
    (written : EntriesWritten rest)
    (others : rest ≠ [] → Lines column (entriesText column rest) (entryTokens rest)) :
    Lines column (entriesText column ((key, entry) :: rest))
      (entryTokens ((key, entry) :: rest)) := by
  have own : Lines column _ (.key :: .scalar .plain key :: .value :: entry.tokens) :=
    lines_key name (isSeparator_head?_entryText column entry _) first
  have text_eq : entriesText column ((key, entry) :: rest) =
      indent column ++ (key.toList ++ ':' :: entryText column entry) ++
        entriesText column rest := by
    simp [entriesText]
  rw [text_eq]
  intro indentation outer reversed after scan
  cases rest with
  | nil =>
    rw [entriesText, List.append_nil, entryTokens, entryTokens, List.append_nil]
    exact own
  | cons next rest =>
    exact own.append (leads_entriesText · written) (others (List.cons_ne_nil next rest))

theorem follows_noTexts : Follows around [' ', '[', ']', '\n']
    [.flowSequenceStart, .flowSequenceEnd] := by
  refine follows_brackets (opens_cons (by decide)) (opens_cons (by decide)) ?_ ?_
  · exact fun scan dashes dots => by simp [token?, dashes, dots]
  · exact fun scan dashes dots => by simp [token?, dashes, dots]

theorem follows_noEntries : Follows around [' ', '\x7b', '\x7d', '\n']
    [.flowMappingStart, .flowMappingEnd] := by
  refine follows_brackets (opens_cons (by decide)) (opens_cons (by decide)) ?_ ?_
  · exact fun scan dashes dots => by simp [token?, dashes, dots]
  · exact fun scan dashes dots => by simp [token?, dashes, dots]

mutual

/-- An entry is scanned as its tokens. -/
theorem follows_entry : ∀ {entry : Entry}, entry.Written → ∀ around,
    Follows around (entryText around entry) entry.tokens
  | .plain written, plain, around => by
    have reads : ReadsAs around (written.toList ++ ['\n'])
        (.scalar .plain (String.ofList written.toList)) := readsAs_plain plain
    rw [String.ofList_toList] at reads
    exact follows_scalar reads
  | .text content, _, around => follows_scalar (readsAs_textScalar around content)
  | .texts [], _, _ => follows_noTexts
  | .texts (first :: rest), _, around => follows_texts (first :: rest)
  | .nested [], _, _ => follows_noEntries
  | .nested (first :: rest), written, around =>
    follows_lines (leads_entriesText · written)
      (lines_entries written (List.cons_ne_nil first rest) (around + 2))

/-- Entries are scanned as their tokens. -/
theorem lines_entries : ∀ {entries : List (String × Entry)}, EntriesWritten entries →
    entries ≠ [] → ∀ column, Lines column (entriesText column entries) (entryTokens entries)
  | [], _, nonempty, _ => absurd rfl nonempty
  | (_, _) :: _, ⟨name, first, others⟩, _, column =>
    lines_cons name (follows_entry first column) others
      fun nonempty => lines_entries others nonempty column

end

/-! ## Characters -/

/-- A text of characters that a text may hold. -/
def Allowed (text : List Char) : Prop := ∀ character ∈ text, isAllowed character = true

theorem allowed_append {first rest : List Char} :
    Allowed (first ++ rest) ↔ Allowed first ∧ Allowed rest := List.forall_mem_append

theorem allowed_cons {first : Char} {rest : List Char} :
    Allowed (first :: rest) ↔ isAllowed first = true ∧ Allowed rest := List.forall_mem_cons

theorem allowed_nil : Allowed [] := List.forall_mem_nil _

theorem isAllowed_of_isPrintable {character : Char} (printable : isPrintable character = true) :
    isAllowed character = true := by
  simp only [isPrintable, Bool.or_eq_true, Bool.and_eq_true, beq_iff_eq, bne_iff_ne,
    decide_eq_true_eq] at printable
  simp only [isAllowed, Bool.or_eq_true, Bool.and_eq_true, beq_iff_eq, decide_eq_true_eq]
  omega

theorem allowed_of_printable (printable : ∀ character ∈ text, isPrintable character = true) :
    Allowed text :=
  fun character member => isAllowed_of_isPrintable (printable character member)

theorem allowed_indent (count : Nat) : Allowed (indent count) := by
  intro character member
  rw [List.eq_of_mem_replicate member]
  rfl

theorem allowed_singleQuotedRun (width : Nat) (afterBreak : Bool) (allowed : Allowed text) :
    Allowed (singleQuotedRun width afterBreak text) := by
  induction text generalizing afterBreak with
  | nil =>
    rw [singleQuotedRun]
    split
    · exact allowed_indent width
    · exact allowed_nil
  | cons first rest ih =>
    obtain ⟨own, others⟩ := allowed_cons.mp allowed
    rw [singleQuotedRun]
    split
    · exact allowed_cons.mpr ⟨own, ih true others⟩
    · refine allowed_append.mpr ⟨allowed_append.mpr ⟨?_, ?_⟩, ih false others⟩
      · split
        · exact allowed_indent width
        · exact allowed_nil
      · split
        · exact allowed_cons.mpr ⟨rfl, allowed_cons.mpr ⟨rfl, allowed_nil⟩⟩
        · exact allowed_cons.mpr ⟨own, allowed_nil⟩

theorem allowed_literalLines (width : Nat) (afterBreak : Bool) (allowed : Allowed text) :
    Allowed (literalLines width afterBreak text) := by
  induction text generalizing afterBreak with
  | nil => exact allowed_nil
  | cons first rest ih =>
    obtain ⟨own, others⟩ := allowed_cons.mp allowed
    rw [literalLines]
    split
    · exact allowed_cons.mpr ⟨own, ih true others⟩
    · refine allowed_append.mpr ⟨?_, allowed_cons.mpr ⟨own, ih false others⟩⟩
      split
      · exact allowed_indent width
      · exact allowed_nil

theorem allowed_escapeDouble (character : Char) : Allowed (escapeDouble character) := by
  have escaped := escaped_escapeDouble character
  generalize escapeDouble character = written at escaped ⊢
  cases escaped with
  | raw printable => exact allowed_cons.mpr ⟨isAllowed_of_isPrintable printable, allowed_nil⟩
  | @letter letter member =>
    have letters : Allowed escapeLetters := List.all_eq_true.mp (by decide)
    exact allowed_cons.mpr ⟨rfl, allowed_cons.mpr ⟨letters letter member, allowed_nil⟩⟩
  | @code mark digits kind =>
    have capitals : Allowed "0123456789ABCDEF".toList := List.all_eq_true.mp (by decide)
    have marks : ∀ known ∈ [('x', 2), ('u', 4), ('U', 8)], isAllowed known.1 = true := by decide
    have own : isAllowed mark = true := marks (mark, digits) kind
    have written : Allowed (Text.capitalHexadecimal digits character.toNat).toList :=
      fun digit member => capitals digit (Text.mem_capitalHexadecimal member)
    exact allowed_cons.mpr ⟨rfl, allowed_cons.mpr ⟨own, written⟩⟩

theorem allowed_textScalar (width : Nat) (content : String) :
    Allowed (textScalar width content) := by
  have newline : Allowed ['\n'] := allowed_cons.mpr ⟨rfl, allowed_nil⟩
  cases styled content with
  | plain style plain _ =>
    simp only [textScalar, style]
    exact allowed_append.mpr ⟨allowed_of_printable plain.printable, newline⟩
  | single style single =>
    simp only [textScalar, style, singleQuoted]
    have run := allowed_singleQuotedRun width false (allowed_of_printable single.printable)
    exact allowed_append.mpr ⟨allowed_append.mpr ⟨allowed_cons.mpr ⟨rfl, run⟩,
      allowed_cons.mpr ⟨rfl, allowed_nil⟩⟩, newline⟩
  | double style =>
    simp only [textScalar, style, doubleQuoted]
    have run : Allowed (content.toList.flatMap escapeDouble) := by
      intro character member
      obtain ⟨source, -, written⟩ := List.mem_flatMap.mp member
      exact allowed_escapeDouble source character written
    exact allowed_append.mpr ⟨allowed_append.mpr ⟨allowed_cons.mpr ⟨rfl, run⟩,
      allowed_cons.mpr ⟨rfl, allowed_nil⟩⟩, newline⟩
  | literal style some printable =>
    simp only [textScalar, style, literal_eq]
    have lines := allowed_literalLines width true (allowed_of_printable printable)
    have hint : Allowed (indentationHint content.toList) := by
      unfold indentationHint
      split
      · exact allowed_cons.mpr ⟨rfl, allowed_nil⟩
      · exact allowed_nil
    have mark : Allowed (chompingMark content.toList) := by
      rcases chompingMark_cases content.toList with ⟨mark, -⟩ | ⟨mark, -⟩ | ⟨mark, -⟩ <;> rw [mark]
      · exact allowed_nil
      · exact allowed_cons.mpr ⟨rfl, allowed_nil⟩
      · exact allowed_cons.mpr ⟨rfl, allowed_nil⟩
    refine allowed_append.mpr ⟨allowed_cons.mpr ⟨rfl, allowed_append.mpr ⟨hint,
      allowed_append.mpr ⟨mark, allowed_cons.mpr ⟨rfl, lines⟩⟩⟩⟩, ?_⟩
    split
    · exact allowed_nil
    · exact newline

theorem allowed_textItems (width : Nat) (contents : List String) :
    Allowed (textItems width contents) := by
  induction contents with
  | nil => exact allowed_nil
  | cons content rest ih =>
    rw [textItems]
    exact allowed_append.mpr ⟨allowed_append.mpr ⟨allowed_indent width, allowed_cons.mpr ⟨rfl,
      allowed_cons.mpr ⟨rfl, allowed_textScalar _ content⟩⟩⟩, ih⟩

theorem isAllowed_of_isNameCharacter {character : Char} (name : isNameCharacter character = true) :
    isAllowed character = true :=
  isAllowed_of_isPrintable (isPrintable_of_isNameCharacter name)

mutual

theorem allowed_entryText : ∀ {entry : Entry}, entry.Written → ∀ width,
    Allowed (entryText width entry)
  | .plain written, plain, _ => by
    rw [entryText]
    exact allowed_append.mpr ⟨allowed_cons.mpr ⟨rfl, allowed_of_printable plain.printable⟩,
      allowed_cons.mpr ⟨rfl, allowed_nil⟩⟩
  | .text content, _, width => allowed_cons.mpr ⟨rfl, allowed_textScalar (width + 2) content⟩
  | .texts [], _, _ => by
    have brackets : Allowed [' ', '[', ']', '\n'] := List.all_eq_true.mp (by decide)
    exact brackets
  | .texts (first :: rest), _, width =>
    allowed_cons.mpr ⟨rfl, allowed_textItems width (first :: rest)⟩
  | .nested [], _, _ => by
    have brackets : Allowed [' ', '\x7b', '\x7d', '\n'] := List.all_eq_true.mp (by decide)
    exact brackets
  | .nested (first :: rest), written, width =>
    allowed_cons.mpr ⟨rfl, allowed_entriesText written (width + 2)⟩

theorem allowed_entriesText : ∀ {entries : List (String × Entry)}, EntriesWritten entries →
    ∀ width, Allowed (entriesText width entries)
  | [], _, _ => allowed_nil
  | (key, entry) :: rest, ⟨name, first, others⟩, width => by
    rw [entriesText]
    simp only [isName, Bool.and_eq_true] at name
    have key : Allowed key.toList := fun character member =>
      isAllowed_of_isNameCharacter (List.all_eq_true.mp name.1.2 character member)
    exact allowed_append.mpr ⟨allowed_append.mpr ⟨allowed_append.mpr ⟨allowed_indent width, key⟩,
      allowed_cons.mpr ⟨rfl, allowed_entryText first width⟩⟩, allowed_entriesText others width⟩

end

/-! ## Documents -/

/-- Lines of a block, with remarks before them, are scanned as a mapping. -/
theorem run?_lines {remarks : List Remark} {written : List Char} {tokens : List Token}
    (areLines : AreLines remarks) (leads : Leads 0 written) (lines : Lines 0 written tokens) :
    ∃ final, run? ((remarksText remarks ++ written).length + 1)
        (Scan.start (remarksText remarks ++ written)) = some final ∧
      final.reversed.reverse = .blockMappingStart :: tokens ++ [.blockEnd] := by
  have start : AtLine (written ++ []) (-1) [] []
      (Scan.start (remarksText remarks ++ written)) := by
    rw [List.append_nil]
    exact atLine_remarks areLines leads (passed_none 0)
  obtain ⟨next, steps, line, index, settles⟩ := lines (by decide) (leads_nil 0) start
  have settled : next.settle? = some ⟨⟨[], line, 0, index⟩, 0, [-1], true, [none],
      tokens.reverse ++ [.blockMappingStart]⟩ :=
    settles.trans (congrArg some (closeBlocks_of_le (Int.le_refl 0)))
  have closed : closeBlocks ⟨⟨[], line, 0, index⟩, 0, [-1], true, [none],
      tokens.reverse ++ [.blockMappingStart]⟩ (-1) =
        ⟨⟨[], line, 0, index⟩, -1, [], true, [none],
          .blockEnd :: (tokens.reverse ++ [.blockMappingStart])⟩ :=
    (closeBlocks_of_lt (by decide)).trans (closeBlocks_of_le (by decide))
  have finished : finish? ⟨⟨[], line, 0, index⟩, 0, [-1], true, [none],
      tokens.reverse ++ [.blockMappingStart]⟩ =
        some ⟨⟨[], line, 0, index⟩, -1, [], false, [none],
          .blockEnd :: (tokens.reverse ++ [.blockMappingStart])⟩ := by
    simp only [finish?, closed, dropPending?, Option.bind_eq_bind, Option.bind_some]
  refine ⟨_, ends_of_steps steps (ends_of_settle? settled rfl finished) _ (Nat.lt_succ_self _), ?_⟩
  simp

/-- The tokens of a text of lines, with remarks before them, are those of the lines. -/
theorem tokens?_lines {remarks : List Remark} {written : List Char} {tokens : List Token}
    (areLines : AreLines remarks) (leads : Leads 0 written) (lines : Lines 0 written tokens)
    (allowed : Allowed (remarksText remarks ++ written)) :
    tokens? (String.ofList (remarksText remarks ++ written)) =
      some (.blockMappingStart :: tokens ++ [.blockEnd]) := by
  obtain ⟨final, run, reversed⟩ := run?_lines areLines leads lines
  have permitted : (remarksText remarks ++ written).all isAllowed = true :=
    List.all_eq_true.mpr allowed
  have unmarked : (remarksText remarks ++ written).head? ≠ some byteOrderMark := by
    have opens := leads.opens
    rw [Nat.le_zero.mp leads.bound] at opens
    exact head?_remarksText_ne remarks fun marked => (opens _ marked).2.2 rfl
  unfold tokens?
  rw [String.toList_ofList]
  generalize remarksText remarks ++ written = text at *
  cases text with
  | nil => simp only [run, reversed, permitted, if_true, Option.map_some]
  | cons first rest =>
    have plain : (first == byteOrderMark) = false :=
      beq_eq_false_iff_ne.mpr fun same => unmarked (congrArg some same)
    simp only [plain, run, reversed, permitted, Bool.false_eq_true, if_false, if_true,
      Option.map_some]

/-- The tokens of a document are those of its entries. -/
theorem tokens?_document {entries : List (String × Entry)} (written : EntriesWritten entries)
    (nonempty : entries ≠ []) :
    tokens? (document entries) =
      some (.blockMappingStart :: entryTokens entries ++ [.blockEnd]) := by
  have leads := leads_entriesText (leads_nil 0) written
  rw [List.append_nil] at leads
  have bare : remarksText [] ++ entriesText 0 entries = entriesText 0 entries := rfl
  rw [document, ← bare]
  refine tokens?_lines areLines_nil leads (lines_entries written nonempty 0) ?_
  rw [bare]
  exact allowed_entriesText written 0

end PowerTest.Yaml
