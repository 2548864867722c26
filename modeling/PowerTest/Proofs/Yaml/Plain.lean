import Mathlib.Data.List.Chain
import PowerTest.Proofs.Yaml.Gaps

/-!
# Plain scalars that are read

A plain scalar is read word by word: a word ends at a separator or at a colon in front of one, and
the blanks between two words belong to the scalar. So a word is read up to the colon behind a key
(`readPlain?_word`), and a line of words up to what follows it, if that is indented less
(`readPlain?_words`). `IsPlain` says which texts can be written without quotes.
-/

namespace PowerTest.Yaml

variable {text word after : List Char} {line column index limit : Nat}

/-- Neither a colon in front of a separator nor a number sign behind one. -/
def Unmarked (before after : Char) : Prop :=
  (before = ':' → isSeparator after = false) ∧ (isSeparator before = true → after ≠ '#')

/-! ## Words -/

/-- A place where a word of a plain scalar ends. -/
def EndsWord (stop : Char) (after : List Char) : Prop :=
  isSeparator stop = true ∨ stop = ':' ∧ ∀ character ∈ after.head?, isSeparator character = true

theorem separatedAt_one (first : Char) (after : List Char) (line column index : Nat) :
    (⟨first :: after, line, column, index⟩ : Cursor).separatedAt 1 = true ↔
      ∀ character ∈ after.head?, isSeparator character = true := by
  cases after with
  | nil =>
    refine ⟨fun _ character member => ?_, fun _ => rfl⟩
    cases member
  | cons second rest =>
    refine ⟨fun separated character member => ?_, fun each => each second rfl⟩
    cases member
    exact separated

/-- The characters of a word are read up to its end. -/
theorem readPlainRun?_word {stop : Char}
    (inside : ∀ character ∈ word, isSeparator character = false)
    (unmarked : (word ++ [stop]).IsChain Unmarked) (ends : EndsWord stop after) {fuel : Nat}
    (enough : word.length < fuel) (known : List Char) (line column index : Nat) :
    readPlainRun? false fuel known ⟨word ++ stop :: after, line, column, index⟩ =
      some (word.reverse ++ known,
        ⟨stop :: after, line, column + word.length, index + word.length⟩) := by
  induction word generalizing fuel known column index with
  | nil =>
    obtain ⟨fuel, rfl⟩ : ∃ less, fuel = less + 1 := ⟨fuel - 1, by omega⟩
    simp only [List.nil_append, readPlainRun?, Cursor.next?, List.head?_cons, Bool.false_and,
      Bool.false_eq_true, if_false, Bool.or_false]
    by_cases separator : isSeparator stop = true
    · rw [if_pos separator]
      rfl
    · obtain ⟨rfl, separated⟩ := ends.resolve_left separator
      have colon := (separatedAt_one ':' after line column index).mpr separated
      rw [if_neg separator, colon]
      rfl
  | cons first word ih =>
    obtain ⟨fuel, rfl⟩ : ∃ less, fuel = less + 1 := ⟨fuel - 1, by omega⟩
    have own := inside first List.mem_cons_self
    rw [List.cons_append, List.isChain_cons] at unmarked
    have colon : (first == ':' &&
        Cursor.separatedAt ⟨first :: (word ++ stop :: after), line, column, index⟩ 1) = false := by
      rw [Bool.and_eq_false_iff, beq_eq_false_iff_ne, or_iff_not_imp_left, not_not]
      intro marked
      rw [Bool.eq_false_iff, ne_eq, separatedAt_one]
      intro separated
      cases word with
      | nil =>
        have no := (unmarked.1 stop rfl).1 marked
        exact Bool.false_ne_true (no.symm.trans (separated stop rfl))
      | cons second word =>
        have no := (unmarked.1 second rfl).1 marked
        exact Bool.false_ne_true (no.symm.trans (separated second rfl))
    have rest := ih (fun character member => inside character (List.mem_cons_of_mem _ member))
      unmarked.2 (Nat.lt_of_succ_lt_succ enough) (first :: known) (column + 1) (index + 1)
    simp only [List.cons_append, readPlainRun?, Cursor.next?, List.head?_cons, own, colon,
      Bool.false_and, Bool.false_eq_true, if_false, Bool.or_false]
    refine rest.trans ?_
    rw [List.reverse_cons, List.append_assoc, List.length_cons, Nat.add_assoc, Nat.add_assoc,
      Nat.add_comm 1]
    rfl

/-! ## Lines of words -/

/-- The rest of a line that holds words with blanks between them. -/
structure Words (text : List Char) : Prop where
  starts : ∃ first rest, text = first :: rest ∧ isSeparator first = false ∧ first ≠ '#'
  blanks : ∀ character ∈ text, isSeparator character = true → character = ' '
  ends : text.getLast? ≠ some ' '
  unmarked : (text ++ ['\n']).IsChain Unmarked

/-- A word at the start of which a plain scalar can go on. -/
structure IsWord (word : List Char) (stop : Char) : Prop where
  starts : ∃ first rest, word = first :: rest ∧ first ≠ '#'
  inside : ∀ character ∈ word, isSeparator character = false
  unmarked : (word ++ [stop]).IsChain Unmarked

/-- What stands behind a blank of a line of words is a line of words if it starts with no blank. -/
theorem Words.right {front more : List Char} (words : Words (front ++ more))
    (last : front.getLast? = some ' ') (blankless : ∀ character ∈ more.head?, character ≠ ' ') :
    Words more := by
  cases more with
  | nil =>
    rw [List.append_nil] at words
    exact absurd last words.ends
  | cons second others =>
    have unmarked := words.unmarked
    rw [List.append_assoc, List.isChain_append] at unmarked
    refine ⟨⟨second, others, rfl, ?_, ?_⟩, ?_, ?_, unmarked.2.1⟩
    · rw [Bool.eq_false_iff]
      intro separator
      exact blankless second rfl
        (words.blanks second (List.mem_append_right _ List.mem_cons_self) separator)
    · exact (unmarked.2.2 ' ' last second rfl).2 rfl
    · exact fun character member => words.blanks character (List.mem_append_right _ member)
    · have ends := words.ends
      rwa [List.getLast?_append_of_ne_nil _ (List.cons_ne_nil _ _)] at ends

/-- A line of words is one word, or a word and blanks before more words. -/
theorem Words.split (words : Words text) :
    ∃ word, text = word ∧ IsWord word '\n' ∨ IsWord word ' ' ∧
      ∃ count more, Words more ∧ text = word ++ ' ' :: (indent count ++ more) := by
  obtain ⟨first, rest, text_eq, own, start⟩ := words.starts
  obtain ⟨word, left, rfl, inside, stop⟩ := exists_span (!isSeparator ·) text
  have inside : ∀ character ∈ word, isSeparator character = false := fun character member => by
    rw [← Bool.not_eq_true', inside character member]
  have starts : ∃ first rest, word = first :: rest ∧ first ≠ '#' := by
    cases word with
    | nil =>
      have no := stop first (by rw [← List.nil_append left, text_eq]; rfl)
      rw [own] at no
      cases no
    | cons other word =>
      obtain ⟨rfl, -⟩ := List.cons.inj text_eq
      exact ⟨other, word, rfl, start⟩
  refine ⟨word, ?_⟩
  by_cases single : left = []
  · subst single
    rw [List.append_nil] at words
    exact .inl ⟨List.append_nil word, starts, inside, words.unmarked⟩
  · right
    obtain ⟨count, more, rfl, blankless⟩ := exists_indent left
    have separators : ∀ character ∈ (indent count ++ more).head?, character = ' ' := by
      intro character member
      have separator := stop character member
      rw [Bool.not_eq_false'] at separator
      exact words.blanks character
        (List.mem_append_right _ (List.mem_of_mem_head? member)) separator
    have some : 0 < count := by
      refine Nat.pos_of_ne_zero ?_
      rintro rfl
      cases more with
      | nil => exact single rfl
      | cons second others => exact blankless second rfl (separators second rfl)
    obtain ⟨less, rfl⟩ : ∃ less, count = less + 1 := ⟨count - 1, by omega⟩
    have last : (word ++ indent (less + 1)).getLast? = .some ' ' := by
      rw [indent, List.replicate_succ', ← List.append_assoc, List.getLast?_concat]
    have unmarked := words.unmarked
    rw [List.append_assoc] at unmarked
    have next : (word ++ [' ']).IsChain Unmarked :=
      (List.isChain_split.mp unmarked).1
    rw [← List.append_assoc] at words
    exact ⟨⟨starts, inside, next⟩, less, more, words.right last blankless, rfl⟩

/-! ## Lines -/

/-- One word of a plain scalar is read. -/
theorem readPlain?_word {stop : Char} (whole : IsWord word stop) (ends : EndsWord stop after)
    (fuel : Nat) (known : List Char) (gap : Gap) (line column index : Nat)
    (unbound : (⟨word ++ stop :: after, line, column, index⟩ : Cursor).atDocumentBound = false) :
    readPlain? false limit (fuel + 1) known gap ⟨word ++ stop :: after, line, column, index⟩ =
      if isSeparator stop then
        (Gap.read? limit (after.length + 2) .none
          ⟨stop :: after, line, column + word.length, index + word.length⟩).bind fun next =>
            if next.2.column < limit then
              some (String.ofList (known.reverse ++ (gap.folded ++ word)), next.1.broken, next.2)
            else readPlain? false limit fuel (word.reverse ++ (gap.folded.reverse ++ known)) next.1
              next.2
      else some (String.ofList (known.reverse ++ (gap.folded ++ word)), false,
        ⟨stop :: after, line, column + word.length, index + word.length⟩) := by
  obtain ⟨first, rest, word_eq, start⟩ := whole.starts
  have run := readPlainRun?_word whole.inside whole.unmarked ends
    (Nat.lt_of_le_of_lt (Nat.le_add_right _ (stop :: after).length) (Nat.lt_succ_self _)) []
    line column index
  rw [← List.length_append] at run
  obtain ⟨last, others, reversed⟩ : ∃ last others, word.reverse ++ [] = last :: others := by
    refine List.exists_cons_of_ne_nil ?_
    rw [word_eq]
    simp
  have plain : (⟨word ++ stop :: after, line, column, index⟩ : Cursor).isAt '#' = false := by
    rw [word_eq]
    exact beq_eq_false_iff_ne.mpr fun same => start (Option.some.inj same)
  have text_eq : (word.reverse ++ (gap.folded.reverse ++ known)).reverse =
      known.reverse ++ (gap.folded ++ word) := by
    simp
  have known_eq : last :: others ++ (gap.folded.reverse ++ known) =
      word.reverse ++ (gap.folded.reverse ++ known) := by
    rw [← reversed, List.append_nil]
  have stopped : (⟨stop :: after, line, column + word.length, index + word.length⟩ :
      Cursor).satisfies 0 isSeparator = isSeparator stop := rfl
  rw [reversed] at run
  simp only [readPlain?, unbound, plain, run, stopped, text_eq, known_eq, Bool.or_self,
    Bool.false_eq_true, if_false, Bool.not_false, Bool.true_and, List.length_cons]
  split
  · cases Gap.read? limit (after.length + 2) Gap.none
      ⟨stop :: after, line, column + word.length, index + word.length⟩ with
    | none => rfl
    | some next =>
      obtain ⟨gap', cursor⟩ := next
      simp only [Option.bind_some, decide_eq_true_eq]
  · rfl

/-- The last word of a scalar is read, and the breaks behind it with the blanks of the line that
follows, which is indented less or is a comment. -/
theorem readPlain?_lastWord (whole : IsWord word '\n') (none : NoGap after) {count : Nat}
    (stops : count < limit ∨ after.head? = some '#') (fuel breaks : Nat) (known : List Char)
    (gap : Gap) (line column index : Nat) (positive : 0 < column) :
    readPlain? false limit (fuel + 2) known gap
        ⟨word ++ '\n' :: (List.replicate breaks '\n' ++ (indent count ++ after)), line, column,
          index⟩ =
      some (String.ofList (known.reverse ++ (gap.folded ++ word)), true,
        ⟨after, line + (breaks + 1), count, index + (word.length + (breaks + count + 1))⟩) := by
  have kept : ∀ other ∈ '\n' :: List.replicate breaks '\n', Kept other := by
    rw [← List.replicate_succ]
    exact fun other member => .inl (List.eq_of_mem_replicate member)
  have enoughGap : (List.replicate breaks '\n').length + count <
      (List.replicate breaks '\n' ++ (indent count ++ after)).length + 2 := by
    simp only [List.length_append, indent, List.length_replicate]
    omega
  rw [readPlain?_word whole (.inl rfl) (fuel + 1) known gap line column index
      (Cursor.atDocumentBound_of_pos positive),
    if_pos (by rfl), Gap.read?_lines none kept enoughGap, Option.bind_some, List.length_replicate]
  simp only [Nat.add_assoc]
  rcases stops with outdented | comment
  · rw [if_pos outdented]
  · have sign (line column index : Nat) :
        (⟨after, line, column, index⟩ : Cursor).isAt '#' = true := beq_iff_eq.mpr comment
    rw [readPlain?, sign, Bool.or_true, if_pos rfl]
    split
    · rfl
    · simp

/-- The words of a line are read as a last word is. -/
theorem readPlain?_words (words : Words text) (none : NoGap after) {count : Nat}
    (stops : count < limit ∨ after.head? = some '#') {fuel : Nat} (enough : text.length < fuel)
    (breaks : Nat) (known : List Char) (gap : Gap) (line column index : Nat)
    (inside : limit ≤ column) (positive : 0 < column) :
    readPlain? false limit fuel known gap
        ⟨text ++ '\n' :: (List.replicate breaks '\n' ++ (indent count ++ after)), line, column,
          index⟩ =
      some (String.ofList (known.reverse ++ (gap.folded ++ text)), true,
        ⟨after, line + (breaks + 1), count, index + (text.length + (breaks + count + 1))⟩) := by
  induction fuel generalizing text known gap column index with
  | zero => exact absurd enough (Nat.not_lt_zero _)
  | succ fuel ih =>
    obtain ⟨word, ⟨rfl, whole⟩ | ⟨whole, blanks, more, words', rfl⟩⟩ := words.split
    · obtain ⟨fuel, rfl⟩ : ∃ less, fuel = less + 1 := by
        obtain ⟨first, rest, rfl, -⟩ := words.starts
        exact ⟨fuel - 1, by rw [List.length_cons] at enough; omega⟩
      exact readPlain?_lastWord whole none stops fuel breaks known gap line column index positive
    · have noGap : NoGap (more ++
          '\n' :: (List.replicate breaks '\n' ++ (indent count ++ after))) := by
        obtain ⟨second, others, rfl, own, -⟩ := words'.starts
        exact noGap_cons own
      rw [List.length_append, List.length_cons, List.length_append] at enough
      rw [List.append_assoc, List.cons_append, List.append_assoc,
        readPlain?_word whole (.inl rfl) fuel known gap line column index
          (Cursor.atDocumentBound_of_pos positive),
        if_pos (by rfl), Gap.read?_indent noGap (by simp [indent]; omega), Option.bind_some,
        if_neg (by simp only; omega)]
      simp only
      rw [ih words' (by omega) _ _ (column + word.length + (blanks + 1)) _ (by omega) (by omega)]
      have text_eq : (word.reverse ++ (gap.folded.reverse ++ known)).reverse ++
          ((⟨indent (blanks + 1), false, [], []⟩ : Gap).folded ++ more) =
            known.reverse ++ (gap.folded ++ (word ++ ' ' :: (indent blanks ++ more))) := by
        have blank : indent (blanks + 1) = ' ' :: indent blanks := rfl
        simp [Gap.folded, blank]
      have index_eq : index + word.length + (blanks + 1) + (more.length + (breaks + count + 1)) =
          index + ((word ++ ' ' :: (indent blanks ++ more)).length + (breaks + count + 1)) := by
        simp only [List.length_append, List.length_cons, indent, List.length_replicate]
        omega
      rw [text_eq, index_eq]

/-! ## Texts that are written plainly -/

theorem anyPair_eq_false_iff {first second : Char → Bool} :
    Traits.anyPair first second text = false ↔
      text.IsChain fun before after => first before = true → second after = false := by
  induction text with
  | nil => exact ⟨fun _ => .nil, fun _ => rfl⟩
  | cons character rest ih =>
    cases rest with
    | nil => exact ⟨fun _ => .singleton _, fun _ => rfl⟩
    | cons other rest =>
      have step : Traits.anyPair first second (character :: other :: rest) =
          (first character && second other || Traits.anyPair first second (other :: rest)) := rfl
      rw [step, Bool.or_eq_false_iff, ih, List.isChain_cons_cons, Bool.and_eq_false_imp]

theorem isChain_and {first second : Char → Char → Prop} (one : text.IsChain first)
    (other : text.IsChain second) :
    text.IsChain fun before after => first before after ∧ second before after := by
  induction one with
  | nil => exact .nil
  | singleton => exact .singleton _
  | cons_cons pair _ ih =>
    rw [List.isChain_cons_cons] at other
    exact .cons_cons ⟨pair, other.1⟩ (ih other.2)

/-- A text that can be written without quotes. -/
structure IsPlain (text : List Char) : Prop where
  words : Words text
  printable : ∀ character ∈ text, isPrintable character = true
  starts : Traits.startsIndicator text = false

theorem isPlain_of_allowPlain (some : text ≠ [])
    (allowed : Traits.allowPlain (Traits.ofText text) = true) : IsPlain text := by
  simp only [Traits.allowPlain, Traits.ofText, Traits.hasIndicator, Bool.not_eq_true',
    Bool.or_eq_false_iff, Bool.not_eq_false'] at allowed
  obtain ⟨⟨⟨⟨⟨⟨⟨-, starts⟩, ⟨colons, last⟩, signs⟩, special⟩, breaks⟩, ends⟩, -⟩, -⟩ := allowed
  have printable : ∀ character ∈ text, isPrintable character = true := List.all_eq_true.mp special
  have blanks : ∀ character ∈ text, isSeparator character = true → character = ' ' := by
    intro character member separator
    refine eq_blank_of_isPrintable (printable character member) separator ?_
    exact Bool.eq_false_iff.mpr fun broken => Bool.eq_false_iff.mp breaks
      (List.any_eq_true.mpr ⟨character, member, broken⟩)
  obtain ⟨first, rest, rfl⟩ := List.exists_cons_of_ne_nil some
  refine ⟨⟨⟨first, rest, rfl, ?_, ?_⟩, blanks, ?_, ?_⟩, printable, starts⟩
  · rw [Bool.eq_false_iff]
    intro separator
    rw [blanks first List.mem_cons_self separator] at ends
    cases ends.1
  · rintro rfl
    cases starts
  · intro blank
    rw [blank] at ends
    cases ends.2
  · rw [List.isChain_append]
    refine ⟨?_, .singleton _, fun before member after behind => ?_⟩
    · refine (isChain_and (anyPair_eq_false_iff.mp colons)
        (anyPair_eq_false_iff.mp signs)).imp fun before after marks => ⟨fun colon => ?_, ?_⟩
      · exact marks.1 (beq_iff_eq.mpr colon)
      · exact fun separator => beq_eq_false_iff_ne.mp (marks.2 separator)
    · cases behind
      refine ⟨fun colon => ?_, fun _ => by decide⟩
      subst colon
      cases rest with
      | nil =>
        cases member
        cases starts
      | cons second rest =>
        rw [Option.mem_def.mp member] at last
        cases last

/-! ## Names -/

theorem not_mem_of_all {marks : List Char} {test : Char → Bool} {character : Char}
    (none : marks.all (!test ·) = true) (passes : test character = true) : character ∉ marks := by
  intro member
  have fails := List.all_eq_true.mp none character member
  rw [passes] at fails
  cases fails

theorem mem_of_all {marks others : List Char} {character : Char}
    (all : marks.all others.contains = true) (member : character ∈ marks) : character ∈ others :=
  List.contains_iff_mem.mp (List.all_eq_true.mp all character member)

theorem isSeparator_of_isNameCharacter {character : Char}
    (name : isNameCharacter character = true) : isSeparator character = false := by
  have none : character ∉ [' ', '\t', '\n', '\r', '\u0085', '\u2028', '\u2029'] :=
    not_mem_of_all (by decide) name
  refine Bool.eq_false_iff.mpr fun separator => none ?_
  simp only [isSeparator, isSpaceOrTab, isBreak, Bool.or_eq_true, beq_iff_eq] at separator
  simp only [List.mem_cons, List.not_mem_nil, or_false]
  tauto

theorem not_mem_of_isNameCharacter {character : Char} (name : isNameCharacter character = true) :
    character ∉ ":?#,[]\x7b\x7d&*!|>'\"%@`.\uFEFF".toList :=
  not_mem_of_all (by decide) name

theorem isPrintable_of_isNameCharacter {character : Char}
    (name : isNameCharacter character = true) : isPrintable character = true := by
  have ascii (low : 0x20 ≤ character.val.toNat) (high : character.val.toNat ≤ 0x7E) :
      isPrintable character = true := by
    simp only [isPrintable, Bool.or_eq_true, Bool.and_eq_true, decide_eq_true_eq]
    exact .inl (.inl (.inl (.inr ⟨low, high⟩)))
  simp only [isNameCharacter, Bool.or_eq_true, Bool.and_eq_true, decide_eq_true_eq, beq_iff_eq,
    Char.le_def, UInt32.le_iff_toNat_le] at name
  rcases name with (((⟨low, high⟩ | ⟨low, high⟩) | ⟨low, high⟩) | rfl) | rfl
  · have first : '0'.val.toNat = 0x30 := rfl
    have last : '9'.val.toNat = 0x39 := rfl
    exact ascii (by omega) (by omega)
  · have first : 'A'.val.toNat = 0x41 := rfl
    have last : 'Z'.val.toNat = 0x5A := rfl
    exact ascii (by omega) (by omega)
  · have first : 'a'.val.toNat = 0x61 := rfl
    have last : 'z'.val.toNat = 0x7A := rfl
    exact ascii (by omega) (by omega)
  · rfl
  · rfl

/-- A character of a number or a name. -/
def Solid (character : Char) : Prop := isNameCharacter character = true ∨ character = '.'

theorem Solid.isSeparator_eq_false {character : Char} (solid : Solid character) :
    isSeparator character = false := by
  rcases solid with name | rfl
  · exact isSeparator_of_isNameCharacter name
  · rfl

theorem Solid.not_mem {character : Char} (solid : Solid character) :
    character ∉ ":?#,[]\x7b\x7d&*!|>'\"%@`".toList := by
  rcases solid with name | rfl
  · exact fun member => not_mem_of_isNameCharacter name (mem_of_all (by decide) member)
  · decide

/-- It is no indicator that starts something else. -/
theorem Solid.unlisted {character : Char} (solid : Solid character) :
    character ∉ "#,[]\x7b\x7d&*!|>'\"%@`".toList :=
  fun member => solid.not_mem (mem_of_all (by decide) member)

theorem Solid.unmarked {character : Char} (solid : Solid character) (dash : character ≠ '-') :
    character ∉ "?:-".toList := by
  intro member
  have marks : character ∈ ['?', ':'] := by
    have three : "?:-".toList = ['?', ':', '-'] := rfl
    rw [three] at member
    simpa [dash] using member
  exact solid.not_mem (mem_of_all (by decide) marks)

theorem isChain_unmarked {word : List Char} (solid : ∀ character ∈ word, Solid character)
    (stop : Char) : (word ++ [stop]).IsChain Unmarked := by
  induction word with
  | nil => exact .singleton _
  | cons first rest ih =>
    have own := solid first List.mem_cons_self
    refine List.isChain_cons.mpr ⟨fun second _ => ⟨?_, fun separator => ?_⟩,
      ih fun character member => solid character (List.mem_cons_of_mem _ member)⟩
    · rintro rfl
      exact absurd (by decide) own.not_mem
    · rw [own.isSeparator_eq_false] at separator
      cases separator

/-- Numbers and names can be written without quotes, but for a dash alone. -/
theorem isPlain_of_solid {first : Char} {rest : List Char}
    (solid : ∀ character ∈ first :: rest, Solid character) (dash : first = '-' → rest ≠ []) :
    IsPlain (first :: rest) := by
  have own := solid first List.mem_cons_self
  have inside : ∀ character ∈ first :: rest, isSeparator character = false :=
    fun character member => (solid character member).isSeparator_eq_false
  refine ⟨⟨⟨first, rest, rfl, own.isSeparator_eq_false, ?_⟩, ?_, ?_, isChain_unmarked solid _⟩,
    ?_, ?_⟩
  · rintro rfl
    exact own.not_mem (by decide)
  · intro character member separator
    rw [inside character member] at separator
    cases separator
  · intro blank
    exact absurd (inside ' ' (List.mem_of_getLast? blank)) (by decide)
  · intro character member
    rcases solid character member with name | rfl
    · exact isPrintable_of_isNameCharacter name
    · rfl
  · have unlisted := Bool.eq_false_iff.mpr (mt List.contains_iff_mem.mp own.unlisted)
    simp only [Traits.startsIndicator, unlisted, Bool.false_or, Bool.and_eq_false_imp]
    intro separated
    rw [Bool.eq_false_iff, ne_eq, List.contains_iff_mem]
    by_cases same : first = '-'
    · obtain ⟨second, others, rfl⟩ := List.exists_cons_of_ne_nil (dash same)
      have no := inside second (List.mem_cons_of_mem _ List.mem_cons_self)
      exact absurd separated (Bool.eq_false_iff.mp no)
    · exact own.unmarked same

end PowerTest.Yaml
