import Mathlib.Logic.Relation
import PowerTest.Yaml.Token
import PowerTest.Proofs.Yaml.Gaps

/-!
# Steps of the scanner

The scanner first passes blanks and breaks and closes the blocks that end there (`Scan.settle?`),
and then takes one token. A run gives what it gives after any number of these steps
(`Scan.ends_of_steps`). `Scan.AtLine` says where the scanner stands between two lines of a block,
whatever the token before them has left of the break.
-/

namespace PowerTest.Yaml

variable {text after : List Char} {line column index count : Nat}

/-! ## Starts of lines -/

/-- A text that starts with something other than blanks, breaks and comments. -/
def Opens (text : List Char) : Prop :=
  ∀ character ∈ text.head?,
    isSeparator character = false ∧ character ≠ '#' ∧ character ≠ byteOrderMark

theorem Opens.noGap (opens : Opens text) : NoGap text :=
  fun character member => (opens character member).1

theorem opens_nil : Opens [] := by
  intro character member
  cases member

theorem opens_cons {character : Char} {rest : List Char}
    (starts : isSeparator character = false ∧ character ≠ '#' ∧ character ≠ byteOrderMark) :
    Opens (character :: rest) := by
  intro other member
  cases member
  exact starts

theorem Opens.append {written : List Char} (opens : Opens written) (some : written ≠ [])
    (rest : List Char) : Opens (written ++ rest) := by
  obtain ⟨first, others, rfl⟩ := List.exists_cons_of_ne_nil some
  exact opens_cons (opens first rfl)

/-- The count of blanks at the start of a text. -/
def lead (text : List Char) : Nat := (text.takeWhile (· == ' ')).length

theorem lead_indent (blankless : ∀ character ∈ after.head?, character ≠ ' ') (count : Nat) :
    lead (indent count ++ after) = count := by
  rw [lead, takeWhile_indent, takeWhile_eq_nil blankless, List.append_nil, indent,
    List.length_replicate]

theorem drop_indent (count : Nat) (after : List Char) :
    (indent count ++ after).drop count = after :=
  List.drop_left' List.length_replicate

theorem Opens.blankless (opens : Opens text) : ∀ character ∈ text.head?, character ≠ ' ' := by
  rintro _ member rfl
  exact absurd (opens ' ' member).1 (by decide)

theorem indent_lead (text : List Char) : indent (lead text) ++ text.drop (lead text) = text := by
  obtain ⟨count, after, rfl, blankless⟩ := exists_indent text
  rw [lead_indent blankless, drop_indent]

/-- A text whose first line is indented at most to a column. -/
structure Leads (column : Nat) (text : List Char) : Prop where
  bound : lead text ≤ column
  opens : Opens (text.drop (lead text))

theorem leads_indent (opens : Opens after) (bound : count ≤ column) :
    Leads column (indent count ++ after) := by
  have own := lead_indent opens.blankless count
  refine ⟨by rwa [own], ?_⟩
  rw [own, drop_indent]
  exact opens

theorem leads_nil (column : Nat) : Leads column [] := ⟨Nat.zero_le column, opens_nil⟩

namespace Scan

variable {scan next final settled : Scan}

/-! ## Runs -/

/-- The state in front of the next token. -/
def settle? (scan : Scan) : Option Scan :=
  let (keyAllowed, cursor) :=
    skipToToken scan.inFlow (scan.cursor.rest.length + 1) scan.keyAllowed scan.cursor
  (dropStale? cursor scan.pending).map fun pending =>
    { scan with keyAllowed, cursor, pending }.closeBlocks cursor.column

theorem cursor_closeBlocks (scan : Scan) (column : Int) :
    (scan.closeBlocks column).cursor = scan.cursor := by
  unfold closeBlocks
  split <;> rfl

theorem run?_succ (fuel : Nat) (scan : Scan) :
    run? (fuel + 1) scan = scan.settle?.bind fun settled =>
      match settled.cursor.next? with
      | none => settled.finish?
      | some character => (settled.token? character).bind (run? fuel) := by
  rw [run?, settle?]
  generalize skipToToken scan.inFlow (scan.cursor.rest.length + 1) scan.keyAllowed scan.cursor =
    skipped
  obtain ⟨keyAllowed, cursor⟩ := skipped
  cases dropped : dropStale? cursor scan.pending with
  | none => simp only [dropped, Option.bind_eq_bind, Option.bind_none, Option.map_none]
  | some pending =>
    cases next : cursor.next? <;>
      simp only [dropped, Option.bind_eq_bind, Option.bind_some, Option.map_some,
        cursor_closeBlocks, next]

/-- A token is taken. -/
def Step (scan next : Scan) : Prop :=
  ∃ settled character, scan.settle? = some settled ∧ settled.cursor.next? = some character ∧
    settled.token? character = some next ∧
    next.cursor.rest.length < settled.cursor.rest.length

/-- Tokens are taken one after the other. -/
abbrev Steps : Scan → Scan → Prop := Relation.ReflTransGen Step

/-- What a run gives, if it has fuel for all characters. -/
def Ends (scan final : Scan) : Prop :=
  ∀ fuel, scan.cursor.rest.length < fuel → run? fuel scan = some final

theorem length_skipBreak_le (cursor : Cursor) :
    cursor.skipBreak.rest.length ≤ cursor.rest.length := by
  obtain ⟨rest, line, column, index⟩ := cursor
  unfold Cursor.skipBreak Cursor.takeBreak
  split
  · rename_i same
    simp only at same
    rw [same]
    simp only [List.length_cons]
    omega
  · rename_i same
    simp only at same
    rw [same]
    split
    · simp only [List.length_cons]
      omega
    · exact Nat.le_refl _
  · exact Nat.le_refl _

theorem length_skipToToken_le (flow : Bool) (fuel : Nat) (keyAllowed : Bool) (cursor : Cursor) :
    (skipToToken flow fuel keyAllowed cursor).2.rest.length ≤ cursor.rest.length := by
  have advanced (count : Nat) (cursor : Cursor) :
      (cursor.advance count).rest.length ≤ cursor.rest.length := by
    rw [Cursor.advance, List.length_drop]
    exact Nat.sub_le _ _
  have skipped (test : Char → Bool) (cursor : Cursor) :
      (cursor.skipWhile test).rest.length ≤ cursor.rest.length := advanced _ _
  induction fuel generalizing keyAllowed cursor with
  | zero => exact Nat.le_refl _
  | succ fuel ih =>
    unfold skipToToken
    extract_lets marked blanks comment
    have first : marked.rest.length ≤ cursor.rest.length := by
      unfold marked
      split
      · exact advanced 1 cursor
      · exact Nat.le_refl _
    have second : blanks.rest.length ≤ marked.rest.length := skipped _ _
    have third : comment.rest.length ≤ blanks.rest.length := by
      unfold comment
      split
      · exact skipped _ _
      · exact Nat.le_refl _
    have all : comment.rest.length ≤ cursor.rest.length :=
      Nat.le_trans third (Nat.le_trans second first)
    split
    · exact Nat.le_trans (ih _ _) (Nat.le_trans (length_skipBreak_le comment) all)
    · exact all

theorem length_settle?_le (settles : scan.settle? = some settled) :
    settled.cursor.rest.length ≤ scan.cursor.rest.length := by
  rw [settle?, Option.map_eq_some_iff] at settles
  obtain ⟨pending, -, rfl⟩ := settles
  rw [cursor_closeBlocks]
  exact length_skipToToken_le _ _ _ _

theorem Step.ends (step : Step scan next) (ends : Ends next final) : Ends scan final := by
  obtain ⟨settled, character, settles, at_, taken, shorter⟩ := step
  intro fuel enough
  obtain ⟨fuel, rfl⟩ : ∃ less, fuel = less + 1 := ⟨fuel - 1, by omega⟩
  have := length_settle?_le settles
  rw [run?_succ, settles]
  simp only [Option.bind_some, at_, taken]
  exact ends fuel (by omega)

/-- A run gives what it gives after some steps. -/
theorem ends_of_steps (steps : Steps scan next) (ends : Ends next final) : Ends scan final := by
  induction steps using Relation.ReflTransGen.head_induction_on with
  | refl => exact ends
  | head step _ ih => exact step.ends ih

/-- A run gives what the last step leaves, finished. -/
theorem ends_of_settle? (settles : scan.settle? = some settled) (done : settled.cursor.rest = [])
    (finished : settled.finish? = some final) : Ends scan final := by
  intro fuel enough
  obtain ⟨fuel, rfl⟩ : ∃ less, fuel = less + 1 := ⟨fuel - 1, by omega⟩
  have next : settled.cursor.next? = none := by
    rw [Cursor.next?, done]
    rfl
  rw [run?_succ, settles]
  simp only [Option.bind_some, next, finished]

/-! ## Blanks and breaks in front of a token -/

theorem isAt_of_opens {character : Char} (opens : Opens after)
    (out : isSeparator character = true ∨ character = '#' ∨ character = byteOrderMark) :
    (⟨after, line, column, index⟩ : Cursor).isAt character = false := by
  refine beq_eq_false_iff_ne.mpr fun same => ?_
  obtain ⟨solid, sign, mark⟩ := opens character same
  rcases out with separator | rfl | rfl
  · rw [solid] at separator
    cases separator
  · exact sign rfl
  · exact mark rfl

theorem skipToToken_indent (flow : Bool) (opens : Opens after) (fuel : Nat) (keyAllowed : Bool)
    (count line column index : Nat) :
    skipToToken flow (fuel + 1) keyAllowed ⟨indent count ++ after, line, column, index⟩ =
      (keyAllowed, ⟨after, line, column + count, index + count⟩) := by
  have mark : (⟨indent count ++ after, line, column, index⟩ : Cursor).isAt byteOrderMark =
      false := by
    cases count with
    | zero => exact isAt_of_opens opens (.inr (.inr rfl))
    | succ count => rfl
  have taken : (indent count ++ after).takeWhile (fun character =>
      character == ' ' || ((flow || !keyAllowed) && character == '\t')) = indent count := by
    have blank : ∀ character ∈ indent count, (character == ' ' ||
        ((flow || !keyAllowed) && character == '\t')) = true := fun character member => by
      rw [List.eq_of_mem_replicate member]
      rfl
    rw [List.takeWhile_append_of_pos blank]
    cases after with
    | nil => exact List.append_nil _
    | cons first rest =>
      obtain ⟨solid, -⟩ := opens first rfl
      rw [isSeparator, isSpaceOrTab, Bool.or_eq_false_iff, Bool.or_eq_false_iff] at solid
      rw [List.takeWhile_cons_of_neg, List.append_nil]
      simp only [solid.1.1, solid.1.2, Bool.and_false, Bool.or_self, Bool.false_eq_true,
        not_false_eq_true]
  have sign : (⟨after, line, column + count, index + count⟩ : Cursor).isAt '#' = false :=
    isAt_of_opens opens (.inr (.inl rfl))
  have length : (indent count).length = count := List.length_replicate ..
  simp only [skipToToken, mark, Bool.and_false, Bool.false_eq_true, if_false, Cursor.skipWhile,
    Cursor.takeWhile, taken, length, Cursor.advance_indent, sign,
    Cursor.atBreak_of_noGap opens.noGap]

theorem skipToToken_newline (fuel : Nat) (keyAllowed : Bool) (rest : List Char)
    (line column index : Nat) :
    skipToToken false (fuel + 1) keyAllowed ⟨'\n' :: rest, line, column, index⟩ =
      skipToToken false fuel true ⟨rest, line + 1, 0, index + 1⟩ := by
  have mark : (⟨'\n' :: rest, line, column, index⟩ : Cursor).isAt byteOrderMark = false := rfl
  have taken : ('\n' :: rest).takeWhile (fun character =>
      character == ' ' || ((false || !keyAllowed) && character == '\t')) = [] :=
    List.takeWhile_cons_of_neg (by cases keyAllowed <;> decide)
  have sign : (⟨'\n' :: rest, line, column, index⟩ : Cursor).isAt '#' = false := rfl
  have broken : (⟨'\n' :: rest, line, column, index⟩ : Cursor).atBreak = true := rfl
  have kept : (⟨'\n' :: rest, line, column, index⟩ : Cursor).advance 0 =
      ⟨'\n' :: rest, line, column, index⟩ := rfl
  have skipped : (⟨'\n' :: rest, line, column, index⟩ : Cursor).skipBreak =
      ⟨rest, line + 1, 0, index + 1⟩ := rfl
  simp only [skipToToken, mark, Bool.and_false, Bool.false_eq_true, if_false, Cursor.skipWhile,
    Cursor.takeWhile, taken, List.length_nil, kept, sign, broken, skipped, if_true, Bool.not_false,
    Bool.or_true]

/-! ## Blocks that end -/

variable {indentation : Int} {outer : List Int} {keyAllowed : Bool}
  {pending : Option PendingKey} {reversed : List Token} {cursor : Cursor}

theorem closeBlocks_of_le {place : Int} (inside : indentation ≤ place) :
    (⟨cursor, indentation, outer, keyAllowed, [pending], reversed⟩ : Scan).closeBlocks place =
      ⟨cursor, indentation, outer, keyAllowed, [pending], reversed⟩ := by
  have kept : closed place indentation outer = (0, indentation, outer) := by
    cases outer with
    | nil => rfl
    | cons next rest => exact if_neg (Int.not_lt.mpr inside)
  have block : (⟨cursor, indentation, outer, keyAllowed, [pending], reversed⟩ : Scan).inFlow =
    false := rfl
  simp only [closeBlocks, block, Bool.false_eq_true, if_false, kept, List.replicate_zero,
    List.nil_append]

/-- A block that ends is closed before those around it. -/
theorem closeBlocks_of_lt {place around : Int} (left : place < indentation) :
    (⟨cursor, indentation, around :: outer, keyAllowed, [pending], reversed⟩ : Scan).closeBlocks
        place =
      (⟨cursor, around, outer, keyAllowed, [pending], .blockEnd :: reversed⟩ : Scan).closeBlocks
        place := by
  have inner : (⟨cursor, indentation, around :: outer, keyAllowed, [pending], reversed⟩ :
    Scan).inFlow = false := rfl
  have block : (⟨cursor, around, outer, keyAllowed, [pending], .blockEnd :: reversed⟩ :
    Scan).inFlow = false := rfl
  have counted : closed place indentation (around :: outer) =
      ((closed place around outer).1 + 1, (closed place around outer).2) := if_pos left
  simp only [closeBlocks, inner, block, Bool.false_eq_true, if_false, counted,
    List.replicate_succ', List.append_assoc, List.cons_append, List.nil_append]

/-! ## Lines -/

/-- A token that can still turn out to be a key, but need not and stands on an earlier line. -/
def Passed (line : Nat) (pending : Option PendingKey) : Prop :=
  ∀ key ∈ pending, key.required = false ∧ key.line < line

theorem passed_none (line : Nat) : Passed line none := by
  intro key member
  cases member

theorem Passed.mono {later : Nat} (passed : Passed line pending) (le : line ≤ later) :
    Passed later pending := by
  intro key member
  obtain ⟨free, earlier⟩ := passed key member
  exact ⟨free, Nat.lt_of_lt_of_le earlier le⟩

theorem dropStale?_of_passed (passed : Passed line pending) :
    dropStale? ⟨after, line, column, index⟩ [pending] = some [none] := by
  cases pending with
  | none => rfl
  | some key =>
    obtain ⟨free, earlier⟩ := passed key rfl
    have stale : isStale ⟨after, line, column, index⟩ key = true := by
      rw [isStale, decide_eq_true earlier, Bool.true_or]
    simp only [dropStale?, stale, free, if_true, Bool.false_eq_true, if_false, Option.map_some]

/-- The scanner will stand at the start of a text's first line, inside blocks that may end there. -/
def AtLine (text : List Char) (indentation : Int) (outer : List Int) (reversed : List Token)
    (scan : Scan) : Prop :=
  ∃ line index, scan.settle? =
    some ((⟨⟨text.drop (lead text), line, lead text, index⟩, indentation, outer, true, [none],
      reversed⟩ : Scan).closeBlocks (lead text))

/-- It stands there once blanks and breaks are passed. -/
theorem atLine_of_skipToToken
    (skipped : skipToToken false (cursor.rest.length + 1) keyAllowed cursor =
      (true, ⟨text.drop (lead text), line, lead text, index⟩)) (passed : Passed line pending) :
    AtLine text indentation outer reversed
      ⟨cursor, indentation, outer, keyAllowed, [pending], reversed⟩ := by
  refine ⟨line, index, ?_⟩
  have block : (⟨cursor, indentation, outer, keyAllowed, [pending], reversed⟩ : Scan).inFlow =
    false := rfl
  rw [settle?]
  simp only [block, skipped, dropStale?_of_passed passed, Option.map_some]

theorem atLine_behind (leads : Leads column text) (passed : Passed line pending) :
    AtLine text indentation outer reversed
      ⟨⟨text.drop (lead text), line, lead text, index⟩, indentation, outer, true, [pending],
        reversed⟩ :=
  atLine_of_skipToToken
    (skipToToken_indent false leads.opens (text.drop (lead text)).length true 0 line _ index) passed

theorem atLine_newline (leads : Leads column text) (passed : Passed (line + 1) pending)
    {place : Nat} :
    AtLine text indentation outer reversed
      ⟨⟨'\n' :: text, line, place, index⟩, indentation, outer, keyAllowed, [pending],
        reversed⟩ := by
  have skipped := skipToToken_indent false leads.opens text.length true (lead text) (line + 1) 0
    (index + 1)
  rw [indent_lead, Nat.zero_add] at skipped
  exact atLine_of_skipToToken ((skipToToken_newline ..).trans skipped) passed

/-- The innermost block ends in front of a line that is indented less. -/
theorem AtLine.closeBlock {around : Int} (left : (lead text : Int) < indentation)
    (place : AtLine text indentation (around :: outer) reversed scan) :
    AtLine text around outer (.blockEnd :: reversed) scan := by
  obtain ⟨line, index, settles⟩ := place
  exact ⟨line, index, settles.trans (congrArg _ (closeBlocks_of_lt left))⟩

end Scan

end PowerTest.Yaml
