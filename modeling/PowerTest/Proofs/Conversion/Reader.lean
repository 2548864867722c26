import Mathlib.Data.List.Forall2
import PowerTest.Proofs.Conversion.Reading

/-!
# Reading on after a failure

The items of a file are what a reader gives that goes from byte to byte and stops at each line
that is not blank (`reads_iff`). Each line gives the item of its own bytes (`Gives`), and behind a
newline the file is read afresh (`items_append`), so a line that is no text changes no other item.
`items_resynchronise` puts this together, with the last line that nothing ends and with line ends
that have a carriage return.
-/

namespace PowerTest.Record

open Text

variable {path : String} {content line before rest : Bytes}
  {found : List (Except Failure Record)}

/-- The next item of a reader and the bytes behind its line, if there is another line that is not
blank. The reader knows the bytes of the line that it stands in, in reverse. -/
def next? (path : String) (line : Bytes) : Bytes → Option (Except Failure Record × Bytes)
  | [] => (ofBytes? path line.reverse).map (·, [])
  | byte :: rest =>
    if byte = 10 then
      match ofBytes? path (dropEnd 13 line.reverse) with
      | some item => some (item, rest)
      | none => next? path [] rest
    else next? path (byte :: line) rest

/-- A reader gives these items, one call after another, before it has no more. -/
inductive Reads (path : String) : Bytes → List (Except Failure Record) → Prop
  | ended {content : Bytes} (none : next? path [] content = none) : Reads path content []
  | item {content rest : Bytes} {item : Except Failure Record}
    {later : List (Except Failure Record)}
    (some : next? path [] content = some (item, rest)) (after : Reads path rest later) :
    Reads path content (item :: later)

/-- What a stripped line that is not blank gives: the fields of its text, or a failure at the file
that it is in. -/
inductive Gives (path : String) : Bytes → Except Failure Record → Prop
  | record (text : String) : Gives path (encode text) (.ok (ofLine text))
  | undecodable {line : Bytes} (unreadable : decode? line = none) :
    Gives path line (.error (.inputOutput path .undecodable))

/-- The same lines with a carriage return before each newline. -/
def withCarriageReturns (content : Bytes) : Bytes :=
  content.flatMap fun byte => if byte = 10 then [13, 10] else [byte]

/-! ## One line -/

/-- A blank line gives nothing, and every other line one item. -/
theorem ofStripped?_cases (path : String) (line : Bytes) :
    (line = [] ∧ ofStripped? path line = none) ∨
      line ≠ [] ∧ ∃ item, ofStripped? path line = some item ∧ Gives path line item := by
  rw [ofStripped?]
  cases read : decode? line with
  | none =>
    refine .inr ⟨fun blank => ?_, _, rfl, .undecodable read⟩
    rw [blank] at read
    cases read
  | some text =>
    obtain rfl := decode?_eq_some_iff.mp read
    by_cases blank : text = ""
    · subst blank
      exact .inl ⟨rfl, rfl⟩
    · refine .inr ⟨fun same => blank (encode_injective same), _, if_neg blank, .record text⟩

theorem forall₂_filterMap_ofStripped? (path : String) (lines : List Bytes) :
    List.Forall₂ (Gives path) (lines.filter (· ≠ [])) (lines.filterMap (ofStripped? path)) := by
  induction lines with
  | nil => exact .nil
  | cons line others ih =>
    rcases ofStripped?_cases path line with ⟨rfl, nothing⟩ | ⟨some, item, one, gives⟩
    · rw [List.filterMap_cons, nothing]
      exact ih
    · rw [List.filterMap_cons, one, List.filter_cons, if_pos (decide_eq_true some)]
      exact .cons gives ih

/-- A line without a newline behind it is read as it is. -/
theorem items_of_not_mem (path : String) (whole : 10 ∉ line) :
    items path line = (ofBytes? path line).toList := by
  cases line with
  | nil => rfl
  | cons first others =>
    rw [items, physicalLines, lines_of_not_mem (List.cons_ne_nil _ _) whole, List.filterMap_cons]
    cases ofBytes? path (first :: others) <;> rfl

/-- A line that a newline ends is read without its line end, and the rest behind it. -/
theorem items_append_cons (path : String) (whole : 10 ∉ line) (rest : Bytes) :
    items path (line ++ 10 :: rest) =
      (ofBytes? path (dropEnd 13 line)).toList ++ items path rest := by
  rw [items, physicalLines, lines_append_cons whole, List.filterMap_cons]
  cases ofBytes? path (dropEnd 13 line) <;> rfl

/-- Behind a newline, or at its start, a file is read afresh. -/
theorem items_append (path : String) (complete : ∀ last ∈ before.getLast?, last = 10)
    (rest : Bytes) : items path (before ++ rest) = items path before ++ items path rest := by
  rw [items, physicalLines, lines_append complete, List.filterMap_append, items, items,
    physicalLines, physicalLines]

/-- There are not more items than bytes. -/
theorem length_items_le (path : String) (content : Bytes) :
    (items path content).length ≤ content.length := by
  have atMost : ∀ line : Bytes, (ofBytes? path line).toList.length ≤ 1 := by
    intro line
    cases ofBytes? path line <;> simp
  obtain ⟨found, isLines⟩ : ∃ found, IsLines 10 13 content found := ⟨_, isLines_lines 10 13 content⟩
  induction isLines with
  | none => exact Nat.le_refl 0
  | unended some whole =>
    rw [items_of_not_mem path whole]
    exact Nat.le_trans (atMost _) (List.length_pos_iff.mpr some)
  | @ended line rest _ whole _ ih =>
    have one := atMost (dropEnd 13 line)
    rw [items_append_cons path whole, List.length_append, List.length_append, List.length_cons]
    omega

/-! ## Calls of a reader -/

/-- What a reader gives next is the first item of what it has before it. -/
theorem items_eq_next? (path : String) (whole : 10 ∉ line.reverse) (content : Bytes) :
    items path (line.reverse ++ content) =
      match next? path line content with
      | none => []
      | some (item, rest) => item :: items path rest := by
  induction content generalizing line with
  | nil =>
    rw [List.append_nil, items_of_not_mem path whole, next?]
    cases ofBytes? path line.reverse <;> rfl
  | cons byte rest ih =>
    rw [next?]
    by_cases newline : byte = 10
    · rw [if_pos newline, newline, items_append_cons path whole]
      cases ofBytes? path (dropEnd 13 line.reverse) with
      | none =>
        have fresh : 10 ∉ ([] : Bytes).reverse := List.not_mem_nil
        exact ih fresh
      | some item => rfl
    · have longer : 10 ∉ (byte :: line).reverse := by
        rw [List.mem_reverse] at whole ⊢
        exact List.not_mem_cons_of_ne_of_not_mem (Ne.symm newline) whole
      rw [if_neg newline, ← ih longer, List.reverse_cons, List.append_assoc, List.singleton_append]

/-- A reader comes to its end, and gives the items of the file before. -/
theorem reads_iff : Reads path content found ↔ items path content = found := by
  have fresh : 10 ∉ ([] : Bytes).reverse := List.not_mem_nil
  have step : ∀ content : Bytes, items path content = _ := items_eq_next? path fresh
  constructor
  · intro reads
    induction reads with
    | ended none => rw [step, none]
    | item some _ ih =>
      rw [step, some, ← ih]
  · intro same
    induction found generalizing content with
    | nil =>
      refine .ended ?_
      rw [step] at same
      cases read : next? path [] content with
      | none => rfl
      | some next =>
        rw [read] at same
        cases same
    | cons item later ih =>
      rw [step] at same
      cases read : next? path [] content with
      | none =>
        rw [read] at same
        cases same
      | some next =>
        rw [read] at same
        obtain ⟨rfl, behind⟩ := List.cons.inj same
        exact .item read (ih behind)

theorem untilFailures_of_length_lt {patience : Nat} (enough : found.length < patience) :
    Source.untilFailures patience found = found := by
  induction found generalizing patience with
  | nil => cases patience <;> rfl
  | cons item later ih =>
    obtain ⟨fewer, rfl⟩ := Nat.exists_eq_add_one_of_ne_zero (Nat.ne_zero_of_lt enough)
    rw [List.length_cons] at enough
    cases item with
    | ok record => rw [Source.untilFailures, ih (by omega)]
    | error failure => rw [Source.untilFailures, ih (by omega)]

/-! ## Carriage returns -/

theorem withCarriageReturns_of_not_mem (whole : 10 ∉ line) : withCarriageReturns line = line := by
  induction line with
  | nil => rfl
  | cons first others ih =>
    rw [List.mem_cons, not_or] at whole
    rw [withCarriageReturns, List.flatMap_cons, if_neg (Ne.symm whole.1)]
    exact congrArg (first :: ·) (ih whole.2)

theorem withCarriageReturns_append_cons (whole : 10 ∉ line) (rest : Bytes) :
    withCarriageReturns (line ++ 10 :: rest) =
      (line ++ [13]) ++ 10 :: withCarriageReturns rest := by
  have same := withCarriageReturns_of_not_mem whole
  rw [withCarriageReturns] at same ⊢
  rw [List.flatMap_append, List.flatMap_cons, same, if_pos rfl, withCarriageReturns]
  simp only [List.append_assoc, List.cons_append, List.nil_append]

/-- A line end with a carriage return is read like one without, unless the line has one of its own
before its line end. -/
theorem items_withCarriageReturns (path : String) (content : Bytes)
    (single : ¬ [13, 13, 10] <:+: content) :
    items path (withCarriageReturns content) = items path content := by
  obtain ⟨found, isLines⟩ : ∃ found, IsLines 10 13 content found := ⟨_, isLines_lines 10 13 content⟩
  induction isLines with
  | none => rfl
  | unended _ whole => rw [withCarriageReturns_of_not_mem whole]
  | @ended line rest _ whole _ ih =>
    have behind : rest <:+: line ++ 10 :: rest :=
      ((List.suffix_cons 10 rest).trans (List.suffix_append line _)).isInfix
    have later := ih fun within => single (within.trans behind)
    have longer : 10 ∉ line ++ [13] := by simpa using whole
    have once : dropEnd 13 (dropEnd 13 line) = dropEnd 13 line := by
      refine dropEnd_of_getLast?_ne fun twice => single ?_
      by_cases ended : line.getLast? = some 13
      · obtain ⟨front, rfl⟩ := List.getLast?_eq_some_iff.mp ended
        rw [dropEnd_concat] at twice
        obtain ⟨start, rfl⟩ := List.getLast?_eq_some_iff.mp twice
        exact ⟨start, rest, by simp⟩
      · rw [dropEnd_of_getLast?_ne ended] at twice
        exact absurd twice ended
    rw [withCarriageReturns_append_cons whole, items_append_cons path longer,
      items_append_cons path whole, dropEnd_concat, later, ofBytes?_eq_ofStripped?,
      ofBytes?_eq_ofStripped?, once]

/-! ## A whole file -/

/-- A reader finds back into a file at each of its lines. -/
structure Resynchronises (path : String) (content : Bytes) : Prop where
  /-- A reader that goes on after failures ends, and gives exactly the items of the file. -/
  ends : ∀ found, Reads path content found ↔ items path content = found
  /-- Going on after as many failures as the file has bytes is going on to its end. -/
  patient : ∀ patience, content.length < patience →
    (Source.file content).items path patience = items path content
  /-- The items are what the lines give that are not blank without their line ends, in order. -/
  lines : ∃ lines, IsStripped content lines ∧
    List.Forall₂ (Gives path) (lines.filter (· ≠ [])) (items path content)
  /-- What stands behind a newline has its items, whatever stands before it. -/
  afresh : ∀ before rest, content = before ++ rest → (∀ last ∈ before.getLast?, last = 10) →
    items path content = items path before ++ items path rest
  /-- A line that is no text is one failure between the items on both sides of it. -/
  undecodable : ∀ before bad rest, content = before ++ (bad ++ 10 :: rest) →
    (∀ last ∈ before.getLast?, last = 10) → 10 ∉ bad → decode? bad = none →
    items path content =
      items path before ++ .error (.inputOutput path .undecodable) :: items path rest
  /-- The last line gives its item also where no newline ends it. -/
  unended : ∀ before last, content = before ++ last → (∀ last ∈ before.getLast?, last = 10) →
    10 ∉ last → dropEnd 13 last ≠ [] →
    ∃ item, Gives path (dropEnd 13 last) item ∧ items path content = items path before ++ [item]
  /-- Carriage returns before all newlines make no difference. -/
  carriageReturns : ¬ [13, 13, 10] <:+: content →
    items path (withCarriageReturns content) = items path content

/-- **A reader finds back into every file at each of its lines.** -/
theorem items_resynchronise (path : String) (content : Bytes) : Resynchronises path content where
  ends _ := reads_iff
  patient patience enough :=
    untilFailures_of_length_lt (Nat.lt_of_le_of_lt (length_items_le path content) enough)
  lines := by
    obtain ⟨lines, stripped⟩ := exists_isStripped content
    rw [items_of_isStripped stripped path]
    exact ⟨lines, stripped, forall₂_filterMap_ofStripped? path lines⟩
  afresh before rest same complete := by rw [same, items_append path complete]
  undecodable before bad rest same complete whole unreadable := by
    have strippedToo : decode? (dropEnd 13 bad) = none := by
      rw [decode?_dropEnd, unreadable, Option.map_none]
    rw [same, items_append path complete, items_append_cons path whole,
      ofBytes?_of_decode?_eq_none path strippedToo]
    rfl
  unended before last same complete whole some := by
    obtain ⟨_, item, one, gives⟩ :=
      (ofStripped?_cases path (dropEnd 13 last)).resolve_left fun blank => some blank.1
    refine ⟨item, gives, ?_⟩
    rw [same, items_append path complete, items_of_not_mem path whole, ofBytes?_eq_ofStripped?, one]
    rfl
  carriageReturns := items_withCarriageReturns path content

end PowerTest.Record
