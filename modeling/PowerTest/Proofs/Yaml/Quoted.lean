import PowerTest.Proofs.Text.Digits
import PowerTest.Proofs.Yaml.Plain

/-!
# Quoted scalars that are read

Between quotes a text is read up to the quote that ends it: a quote between single quotes is
written twice, and breaks keep their place because what follows them is indented
(`readQuoted?_single`); between double quotes everything that cannot stand for itself is escaped,
and each escape stands for its character (`readQuoted?_double`).
-/

namespace PowerTest.Yaml

variable {text word after : List Char} {line column index : Nat}

/-- What has been written of a quoted scalar is read up to a quote or a separator. -/
theorem readQuoted?_word {single : Bool} {written known : List Char} {stop : Char}
    (run : readQuotedRun? single ((written ++ stop :: after).length + 1) known
        ⟨written ++ stop :: after, line, column, index⟩ =
      some (word.reverse ++ known, false,
        ⟨stop :: after, line, column + written.length, index + written.length⟩))
    (inside : 0 < column) (fuel : Nat) :
    readQuoted? single (fuel + 1) known ⟨written ++ stop :: after, line, column, index⟩ =
      if stop = quoteMark single then
        some (String.ofList (known.reverse ++ word),
          ⟨after, line, column + written.length + 1, index + written.length + 1⟩)
      else
        (Gap.read? 0 (after.length + 2) .none
          ⟨stop :: after, line, column + written.length, index + written.length⟩).bind fun rest =>
            readQuoted? single fuel (rest.1.folded.reverse ++ (word.reverse ++ known)) rest.2 := by
  have quoted : (⟨stop :: after, line, column + written.length,
      index + written.length⟩ : Cursor).isAt (quoteMark single) =
        (some stop == some (quoteMark single)) := rfl
  have text_eq : (word.reverse ++ known).reverse = known.reverse ++ word := by
    rw [List.reverse_append, List.reverse_reverse]
  simp only [readQuoted?, Cursor.atDocumentBound_of_pos inside, Cursor.atEnd_append, run, quoted,
    text_eq, Bool.or_self, Bool.false_eq_true, if_false, beq_iff_eq, Option.some.injEq]
  split
  · rfl
  · rw [← Gap.none, List.length_cons]
    cases Gap.read? 0 (after.length + 1 + 1) .none
      ⟨stop :: after, line, column + written.length, index + written.length⟩ with
    | none => rfl
    | some rest => rfl

/-! ## Single quotes -/

/-- A character between single quotes. -/
def quoteSingle (character : Char) : List Char :=
  if character == '\'' then ['\'', '\''] else [character]

theorem unbroken {word : List Char} (inside : ∀ character ∈ word, isSeparator character = false) :
    ∀ character ∈ word, isBreak character = false := fun character member =>
  (Bool.or_eq_false_iff.mp (inside character member)).2

theorem singleQuotedRun_append (column : Nat) {word : List Char}
    (unbroken : ∀ character ∈ word, isBreak character = false) (rest : List Char) :
    singleQuotedRun column false (word ++ rest) =
      word.flatMap quoteSingle ++ singleQuotedRun column false rest := by
  induction word with
  | nil => rfl
  | cons first word ih =>
    have own := unbroken first List.mem_cons_self
    have rest_eq := ih fun character member => unbroken character (List.mem_cons_of_mem _ member)
    rw [List.cons_append, singleQuotedRun, if_neg (Bool.eq_false_iff.mp own), rest_eq,
      List.flatMap_cons]
    simp only [Bool.false_eq_true, if_false, List.nil_append, List.append_assoc]
    rfl

theorem singleQuotedRun_word (column : Nat) {word : List Char}
    (inside : ∀ character ∈ word, isSeparator character = false) :
    singleQuotedRun column false word = word.flatMap quoteSingle := by
  have text_eq : singleQuotedRun column false (word ++ []) =
      word.flatMap quoteSingle ++ singleQuotedRun column false [] :=
    singleQuotedRun_append column (unbroken inside) []
  simpa [singleQuotedRun] using text_eq

theorem singleQuotedRun_blanks (column count : Nat) (rest : List Char) :
    singleQuotedRun column false (indent count ++ rest) =
      indent count ++ singleQuotedRun column false rest := by
  induction count with
  | zero => rfl
  | succ count ih => exact congrArg (' ' :: ·) ih

/-- What follows a break is indented. -/
theorem singleQuotedRun_indent (column : Nat)
    (stop : ∀ character ∈ text.head?, isBreak character = false) :
    singleQuotedRun column true text = indent column ++ singleQuotedRun column false text := by
  cases text with
  | nil =>
    simp only [singleQuotedRun, if_true, Bool.false_eq_true, if_false, List.append_nil]
  | cons first rest =>
    have own := stop first rfl
    simp only [singleQuotedRun, own, if_true, Bool.false_eq_true, if_false, List.nil_append,
      List.append_assoc]

theorem singleQuotedRun_breaks (column : Nat) {first : Char} {breaks rest : List Char}
    (broken : ∀ character ∈ first :: breaks, isBreak character = true)
    (stop : ∀ character ∈ rest.head?, isBreak character = false) (afterBreak : Bool) :
    singleQuotedRun column afterBreak (first :: breaks ++ rest) =
      first :: (breaks ++ (indent column ++ singleQuotedRun column false rest)) := by
  induction breaks generalizing first afterBreak with
  | nil =>
    rw [List.cons_append, singleQuotedRun, if_pos (broken first List.mem_cons_self)]
    exact congrArg _ (singleQuotedRun_indent column stop)
  | cons second breaks ih =>
    rw [List.cons_append, singleQuotedRun, if_pos (broken first List.mem_cons_self)]
    exact congrArg _ (ih (fun character member => broken character (List.mem_cons_of_mem _ member))
      true)

/-- What ends a word between single quotes: a separator, or the quote that ends the scalar. -/
def EndsSingle (stop : Char) (after : List Char) : Prop :=
  isSeparator stop = true ∨ stop = '\'' ∧ after.head? ≠ some '\''

theorem readQuotedRun?_single {stop : Char} (after : List Char)
    (inside : ∀ character ∈ word, isSeparator character = false) (ends : EndsSingle stop after)
    {fuel : Nat} (enough : word.length < fuel) (known : List Char) (line column index : Nat) :
    readQuotedRun? true fuel known
        ⟨word.flatMap quoteSingle ++ stop :: after, line, column, index⟩ =
      some (word.reverse ++ known, false,
        ⟨stop :: after, line, column + (word.flatMap quoteSingle).length,
          index + (word.flatMap quoteSingle).length⟩) := by
  induction word generalizing fuel known column index with
  | nil =>
    obtain ⟨fuel, rfl⟩ : ∃ less, fuel = less + 1 := ⟨fuel - 1, by omega⟩
    by_cases separator : isSeparator stop = true
    · simp only [List.flatMap_nil, List.nil_append, readQuotedRun?, Cursor.next?,
        List.head?_cons, separator, if_true]
      rfl
    · obtain ⟨rfl, single⟩ := ends.resolve_left separator
      have once : ((⟨'\'' :: after, line, column, index⟩ : Cursor).peek? 1 == some '\'') =
          false := by
        rw [beq_eq_false_iff_ne]
        rwa [List.head?_eq_getElem?] at single
      simp only [List.flatMap_nil, List.nil_append, readQuotedRun?, Cursor.next?,
        List.head?_cons, separator, once, Bool.and_false, Bool.false_eq_true, if_false]
      rfl
  | cons first word ih =>
    obtain ⟨fuel, rfl⟩ : ∃ less, fuel = less + 1 := ⟨fuel - 1, by omega⟩
    have own := inside first List.mem_cons_self
    have rest := ih (fun character member => inside character (List.mem_cons_of_mem _ member))
      (Nat.lt_of_succ_lt_succ enough)
    by_cases quote : first = '\''
    · subst quote
      have text_eq : ('\'' :: word).flatMap quoteSingle ++ stop :: after =
          '\'' :: '\'' :: (word.flatMap quoteSingle ++ stop :: after) := rfl
      have step : readQuotedRun? true (fuel + 1) known
          ⟨'\'' :: '\'' :: (word.flatMap quoteSingle ++ stop :: after), line, column, index⟩ =
            readQuotedRun? true fuel ('\'' :: known)
              ⟨word.flatMap quoteSingle ++ stop :: after, line, column + 2, index + 2⟩ := rfl
      rw [text_eq, step, rest]
      simp [quoteSingle, Nat.add_assoc, Nat.add_comm 2]
    · have plain : (first == '\'') = false := beq_eq_false_iff_ne.mpr quote
      have word_eq : quoteSingle first = [first] := if_neg (Bool.eq_false_iff.mp plain)
      have step : readQuotedRun? true (fuel + 1) known
          ⟨first :: (word.flatMap quoteSingle ++ stop :: after), line, column, index⟩ =
            readQuotedRun? true fuel (first :: known)
              ⟨word.flatMap quoteSingle ++ stop :: after, line, column + 1, index + 1⟩ := by
        simp only [readQuotedRun?, Cursor.next?, List.head?_cons, own, plain, quoteMark,
          Bool.and_false, Bool.false_and, Bool.not_true, Bool.false_eq_true, if_false, if_true]
        rfl
      rw [List.flatMap_cons, word_eq, List.cons_append, List.nil_append, List.cons_append, step,
        rest]
      simp [Nat.add_assoc, Nat.add_comm 1]

/-- A text that can be written between single quotes. -/
structure IsSingle (text : List Char) : Prop where
  printable : ∀ character ∈ text, isPrintable character = true
  lines : '\n' ∉ text
  starts : text.IsChain fun before after => isBreak before = true → after ≠ ' '
  ends : text.IsChain fun before after => before = ' ' → isBreak after = false

theorem isSingle_of_allowSingle (lines : '\n' ∉ text)
    (allowed : Traits.allowSingle (Traits.ofText text) = true) : IsSingle text := by
  simp only [Traits.allowSingle, Traits.ofText, Bool.not_eq_true', Bool.or_eq_false_iff,
    Bool.not_eq_false'] at allowed
  obtain ⟨⟨special, breaks⟩, blanks⟩ := allowed
  refine ⟨List.all_eq_true.mp special, lines, ?_, ?_⟩
  · exact (anyPair_eq_false_iff.mp breaks).imp fun before after pair broken =>
      beq_eq_false_iff_ne.mp (pair broken)
  · exact (anyPair_eq_false_iff.mp blanks).imp fun before after pair blank =>
      pair (beq_iff_eq.mpr blank)

/-- A text between single quotes is a word, or a word and blanks or breaks before more text. -/
inductive SingleParts : List Char → Prop
  | word {word : List Char} (inside : ∀ character ∈ word, isSeparator character = false) :
    SingleParts word
  | blanks {word more : List Char} {count : Nat}
    (inside : ∀ character ∈ word, isSeparator character = false) (starts : NoGap more)
    (rest : IsSingle more) : SingleParts (word ++ ' ' :: (indent count ++ more))
  | breaks {word breaks more : List Char} {first : Char}
    (inside : ∀ character ∈ word, isSeparator character = false)
    (kept : ∀ character ∈ first :: breaks, Kept character) (line : first ≠ '\n')
    (starts : NoGap more) (rest : IsSingle more) :
    SingleParts (word ++ (first :: breaks ++ more))

theorem IsSingle.right {before : List Char} (single : IsSingle (before ++ text)) :
    IsSingle text where
  printable character member := single.printable character (List.mem_append_right _ member)
  lines member := single.lines (List.mem_append_right _ member)
  starts := single.starts.right_of_append
  ends := single.ends.right_of_append

/-- What follows a run of blanks or of breaks is no separator. -/
theorem noGap_of_isPrintable (printable : ∀ character ∈ text, isPrintable character = true)
    (blank : ∀ character ∈ text.head?, character ≠ ' ')
    (unbroken : ∀ character ∈ text.head?, isBreak character = false) : NoGap text := by
  intro character member
  rw [Bool.eq_false_iff]
  intro separator
  exact blank character member (eq_blank_of_isPrintable
    (printable character (List.mem_of_mem_head? member)) separator (unbroken character member))

theorem IsSingle.parts (single : IsSingle text) : SingleParts text := by
  obtain ⟨word, left, rfl, inside, stop⟩ := exists_span (!isSeparator ·) text
  have inside : ∀ character ∈ word, isSeparator character = false := fun character member => by
    rw [← Bool.not_eq_true', inside character member]
  cases left with
  | nil =>
    rw [List.append_nil]
    exact .word inside
  | cons first rest =>
    have separator : isSeparator first = true := by
      have no := stop first rfl
      rwa [Bool.not_eq_false'] at no
    have member : first ∈ word ++ first :: rest := List.mem_append_right _ List.mem_cons_self
    have printable := single.right.printable
    by_cases broken : isBreak first = true
    · obtain ⟨run, more, split, all, unbroken⟩ := exists_span isBreak (first :: rest)
      cases run with
      | nil =>
        rw [List.nil_append] at split
        have no := unbroken first (by rw [← split]; rfl)
        exact absurd broken (Bool.eq_false_iff.mp no)
      | cons other breaks =>
        rw [split] at single printable ⊢
        obtain ⟨rfl, -⟩ := List.cons.inj split
        have behind := single.right.starts
        rw [List.isChain_append] at behind
        refine .breaks inside (fun character member => ?_) ?_ ?_ single.right.right
        · exact kept_of_isPrintable (printable character (List.mem_append_left _ member))
            (all character member)
        · rintro rfl
          exact single.right.lines List.mem_cons_self
        · refine noGap_of_isPrintable single.right.right.printable (fun character member => ?_)
            unbroken
          exact behind.2.2 _ (List.getLast?_eq_some_getLast (List.cons_ne_nil first breaks))
            character member (all _ (List.getLast_mem _))
    · have blank := eq_blank_of_isPrintable (single.printable first member) separator
        (Bool.eq_false_iff.mpr broken)
      subst blank
      obtain ⟨count, more, rfl, blankless⟩ := exists_indent rest
      have whole : ' ' :: (indent count ++ more) = indent (count + 1) ++ more := rfl
      have last : (indent (count + 1)).getLast? = some ' ' := by
        rw [indent, List.replicate_succ', List.getLast?_concat]
      rw [whole] at single
      have behind := single.right.ends
      rw [List.isChain_append] at behind
      refine .blanks inside (noGap_of_isPrintable single.right.right.printable blankless ?_)
        single.right.right
      exact fun character member => behind.2.2 ' ' last character member rfl

theorem noGap_singleQuoted (column : Nat) (none : NoGap text) (after : List Char) :
    NoGap (singleQuotedRun column false text ++ '\'' :: after) := by
  cases text with
  | nil => exact noGap_cons rfl
  | cons first rest =>
    have own := none first rfl
    have unbroken : isBreak first = false := (Bool.or_eq_false_iff.mp own).2
    simp only [singleQuotedRun, unbroken, Bool.false_eq_true, if_false, List.nil_append]
    split
    · exact noGap_cons rfl
    · exact noGap_cons own

theorem length_le_flatMap_quoteSingle (word : List Char) :
    word.length ≤ (word.flatMap quoteSingle).length := by
  induction word with
  | nil => exact le_rfl
  | cons first word ih =>
    rw [List.flatMap_cons, List.length_append, List.length_cons, quoteSingle]
    split <;> simp only [List.length_cons, List.length_nil] <;> omega

/-- A word between single quotes is read up to what ends it. -/
theorem readQuotedRun?_singleWord {stop : Char} (after : List Char)
    (inside : ∀ character ∈ word, isSeparator character = false) (ends : EndsSingle stop after)
    (known : List Char) (line column index : Nat) :
    readQuotedRun? true ((word.flatMap quoteSingle ++ stop :: after).length + 1) known
        ⟨word.flatMap quoteSingle ++ stop :: after, line, column, index⟩ =
      some (word.reverse ++ known, false,
        ⟨stop :: after, line, column + (word.flatMap quoteSingle).length,
          index + (word.flatMap quoteSingle).length⟩) := by
  refine readQuotedRun?_single after inside ends ?_ known line column index
  have := length_le_flatMap_quoteSingle word
  rw [List.length_append]
  omega

/-- A word and the blanks behind it are read in one step. -/
theorem readQuoted?_blanks {more : List Char}
    (own : ∀ character ∈ word, isSeparator character = false) (starts : NoGap more)
    (after : List Char) (count width fuel : Nat) (known : List Char) (line column index : Nat)
    (inside : 0 < column) :
    readQuoted? true (fuel + 1) known
        ⟨singleQuotedRun width false (word ++ ' ' :: (indent count ++ more)) ++ '\'' :: after, line,
          column, index⟩ =
      readQuoted? true fuel ((indent (count + 1)).reverse ++ (word.reverse ++ known))
        ⟨singleQuotedRun width false more ++ '\'' :: after, line,
          column + (word.flatMap quoteSingle).length + (count + 1),
          index + (word.flatMap quoteSingle).length + (count + 1)⟩ := by
  have text_eq : singleQuotedRun width false (word ++ ' ' :: (indent count ++ more)) =
      word.flatMap quoteSingle ++ ' ' :: (indent count ++ singleQuotedRun width false more) :=
    (singleQuotedRun_append width (unbroken own) _).trans
      (congrArg _ (singleQuotedRun_blanks width (count + 1) more))
  have run := readQuotedRun?_singleWord
    (indent count ++ (singleQuotedRun width false more ++ '\'' :: after)) own
    (.inl (show isSeparator ' ' = true from rfl)) known line column index
  have read := readQuoted?_word run inside fuel
  have folded : (⟨indent (count + 1), false, [], []⟩ : Gap).folded = ' ' :: indent count := rfl
  rw [text_eq, List.append_assoc, List.cons_append, List.append_assoc, read, if_neg (by decide),
    Gap.read?_indent (noGap_singleQuoted width starts after) (by simp [indent]; omega),
    Option.bind_some, folded]
  rfl

/-- A word, the breaks behind it and the indentation of the next line are read in one step. -/
theorem readQuoted?_breaks {breaks more : List Char} {first : Char}
    (own : ∀ character ∈ word, isSeparator character = false)
    (kept : ∀ character ∈ first :: breaks, Kept character) (newline : first ≠ '\n')
    (starts : NoGap more) (after : List Char) (width fuel : Nat) (known : List Char)
    (line column index : Nat) (inside : 0 < column) :
    readQuoted? true (fuel + 1) known
        ⟨singleQuotedRun width false (word ++ (first :: breaks ++ more)) ++ '\'' :: after, line,
          column, index⟩ =
      readQuoted? true fuel ((first :: breaks).reverse ++ (word.reverse ++ known))
        ⟨singleQuotedRun width false more ++ '\'' :: after, line + (breaks.length + 1), width,
          index + (word.flatMap quoteSingle).length + (breaks.length + width + 1)⟩ := by
  have broken : ∀ character ∈ first :: breaks, isBreak character = true := by
    intro character member
    rcases kept character member with rfl | rfl | rfl <;> rfl
  have text_eq : singleQuotedRun width false (word ++ (first :: breaks ++ more)) =
      word.flatMap quoteSingle ++
        first :: (breaks ++ (indent width ++ singleQuotedRun width false more)) :=
    (singleQuotedRun_append width (unbroken own) _).trans
      (congrArg _ (singleQuotedRun_breaks width broken
        (fun character member => (Bool.or_eq_false_iff.mp (starts character member)).2) false))
  have run := readQuotedRun?_singleWord
    (breaks ++ (indent width ++ (singleQuotedRun width false more ++ '\'' :: after))) own
    (.inl (isSeparator_of_isBreak (broken first List.mem_cons_self))) known line column index
  have read := readQuoted?_word run inside fuel
  have quote : first ≠ quoteMark true := by
    rintro rfl
    exact absurd (broken _ List.mem_cons_self) (by decide)
  have folded : (⟨[], true, [first], breaks⟩ : Gap).folded = first :: breaks := by
    simp [Gap.folded, newline]
  rw [text_eq]
  simp only [List.append_assoc, List.cons_append]
  rw [read, if_neg quote,
    Gap.read?_lines (noGap_singleQuoted width starts after) kept (by simp [indent]; omega),
    Option.bind_some, folded]

/-- A text between single quotes is read back. -/
theorem readQuoted?_single (single : IsSingle text) (quote : after.head? ≠ some '\'')
    {width : Nat} (indented : 0 < width) {fuel : Nat} (enough : text.length < fuel)
    (known : List Char) (line column index : Nat) (inside : 0 < column) :
    ∃ line' column' index', line ≤ line' ∧
      readQuoted? true fuel known
          ⟨singleQuotedRun width false text ++ '\'' :: after, line, column, index⟩ =
        some (String.ofList (known.reverse ++ text), ⟨after, line', column', index'⟩) := by
  induction fuel generalizing text known line column index with
  | zero => exact absurd enough (Nat.not_lt_zero _)
  | succ fuel ih =>
    cases single.parts with
    | word own =>
      have run := readQuotedRun?_singleWord after own (.inr ⟨rfl, quote⟩) known line column index
      have read := readQuoted?_word run inside fuel
      rw [if_pos (show '\'' = quoteMark true from rfl), ← singleQuotedRun_word width own] at read
      exact ⟨_, _, _, le_rfl, read⟩
    | @blanks word more count own starts rest =>
      rw [List.length_append, List.length_cons, List.length_append] at enough
      rw [readQuoted?_blanks own starts after count width fuel known line column index inside]
      obtain ⟨line', column', index', later, rest⟩ := ih rest (by omega)
        ((indent (count + 1)).reverse ++ (word.reverse ++ known)) line
        (column + (word.flatMap quoteSingle).length + (count + 1))
        (index + (word.flatMap quoteSingle).length + (count + 1)) (by omega)
      refine ⟨line', column', index', later, rest.trans ?_⟩
      have blank : indent (count + 1) = ' ' :: indent count := rfl
      simp [blank]
    | @breaks word breaks more first own kept newline starts rest =>
      rw [List.length_append, List.length_append, List.length_cons] at enough
      rw [readQuoted?_breaks own kept newline starts after width fuel known line column index inside]
      obtain ⟨line', column', index', later, rest⟩ := ih rest (by omega)
        ((first :: breaks).reverse ++ (word.reverse ++ known)) (line + (breaks.length + 1)) width
        (index + (word.flatMap quoteSingle).length + (breaks.length + width + 1)) indented
      refine ⟨line', column', index', by omega, rest.trans ?_⟩
      simp

/-! ## Double quotes -/

/-- The letters that stand for a character behind a backslash when they are written. -/
def escapeLetters : List Char := "0abtnvfre\"\\NLP".toList

/-- An escape is read as its character. -/
theorem readEscape?_letter {letter character : Char}
    (known : escape? letter = some (.character character)) (rest : List Char)
    (line column index : Nat) :
    readEscape? ⟨'\\' :: letter :: rest, line, column, index⟩ =
      some (character, ⟨rest, line, column + 2, index + 2⟩) := by
  have next : (⟨'\\' :: letter :: rest, line, column, index⟩ : Cursor).peek? 1 = some letter := rfl
  simp only [readEscape?, next, known]
  rfl

theorem readEscape?_code {mark character : Char} {digits : Nat} (some : digits ≠ 0)
    (known : escape? mark = .some (.code digits)) (fits : character.toNat < 16 ^ digits)
    (rest : List Char) (line column index : Nat) :
    readEscape? ⟨'\\' :: mark ::
        ((Text.capitalHexadecimal digits character.toNat).toList ++ rest), line, column, index⟩ =
      .some (character, ⟨rest, line, column + (2 + digits), index + (2 + digits)⟩) := by
  have next : (⟨'\\' :: mark :: ((Text.capitalHexadecimal digits character.toNat).toList ++ rest),
      line, column, index⟩ : Cursor).peek? 1 = .some mark := rfl
  have length := Text.length_capitalHexadecimal digits character.toNat
  have value := Text.ofDigits?_capitalHexadecimal some fits
  have code : ofCode? character.toNat = .some character := by
    rw [ofCode?, if_pos (show character.toNat.isValidChar from character.valid), Char.ofNat_toNat]
  generalize (Text.capitalHexadecimal digits character.toNat).toList = written at *
  have taken : (('\\' :: mark :: (written ++ rest)).drop 2).take digits = written :=
    List.take_left' length
  have left : ('\\' :: mark :: (written ++ rest)).drop (2 + digits) = rest := by
    rw [Nat.add_comm]
    exact List.drop_left' length
  simp only [readEscape?, next, known, taken, length, if_true, value, Option.bind_some, code,
    Option.map_some, Cursor.advance, left]

theorem escape?_letter_of_find? {letter character : Char}
    (found : (escapeLetters.find? fun letter =>
      match escape? letter with
      | some (.character known) => known == character
      | _ => false) = some letter) :
    letter ∈ escapeLetters ∧ escape? letter = some (.character character) := by
  refine ⟨List.mem_of_find?_eq_some found, ?_⟩
  have test := List.find?_some found
  split at test
  · rename_i known same
    rw [same, beq_iff_eq.mp test]
  · cases test

/-- How a character is written between double quotes: as itself, by a letter, or by its code. -/
inductive Escaped (character : Char) : List Char → Prop
  | raw (printable : isPrintable character = true) (unbroken : isBreak character = false)
    (quote : character ≠ '"') (slash : character ≠ '\\') : Escaped character [character]
  | letter {letter : Char} (member : letter ∈ escapeLetters)
    (known : escape? letter = some (.character character)) : Escaped character ['\\', letter]
  | code {mark : Char} {digits : Nat} (kind : (mark, digits) ∈ [('x', 2), ('u', 4), ('U', 8)])
    (fits : character.toNat < 16 ^ digits) :
    Escaped character ('\\' :: mark :: (Text.capitalHexadecimal digits character.toNat).toList)

theorem escaped_escapeDouble (character : Char) : Escaped character (escapeDouble character) := by
  unfold escapeDouble
  simp only
  split
  · rename_i raw
    simp only [Bool.and_eq_true, Bool.not_eq_true', bne_iff_ne] at raw
    obtain ⟨⟨⟨printable, unbroken⟩, quote⟩, slash⟩ := raw
    exact .raw printable unbroken quote slash
  split
  · rename_i letter found
    obtain ⟨member, known⟩ := escape?_letter_of_find? found
    exact .letter member known
  · have largest : character.toNat < 16 ^ 8 :=
      Nat.lt_of_lt_of_eq character.val.toNat_lt (by decide)
    by_cases byte : character.toNat < 0x100
    · simp only [byte, if_true]
      exact .code (by decide) byte
    · by_cases short : character.toNat < 0x10000
      · simp only [byte, short, if_true, if_false]
        exact .code (by decide) short
      · simp only [byte, short, if_false]
        exact .code (by decide) largest

/-- An escape between double quotes is read. -/
theorem readQuotedRun?_escape {mark character : Char} {rest : List Char} {next : Cursor}
    (unbroken : isBreak mark = false)
    (escape : readEscape? ⟨'\\' :: mark :: rest, line, column, index⟩ = some (character, next))
    (fuel : Nat) (known : List Char) :
    readQuotedRun? false (fuel + 1) known ⟨'\\' :: mark :: rest, line, column, index⟩ =
      readQuotedRun? false fuel (character :: known) next := by
  have kept : (⟨'\\' :: mark :: rest, line, column, index⟩ : Cursor).satisfies 1 isBreak = false :=
    unbroken
  have separator : isSeparator '\\' = false := by decide
  have quote : ('\\' == quoteMark false) = false := by decide
  simp only [readQuotedRun?, Cursor.next?, List.head?_cons, separator, quote, kept, escape,
    Bool.false_and, Bool.and_false, Bool.not_false, Bool.true_and, beq_self_eq_true,
    Bool.false_eq_true, if_false, if_true]

theorem readQuotedRun?_code {mark character : Char} {digits : Nat}
    (kind : (mark, digits) ∈ [('x', 2), ('u', 4), ('U', 8)])
    (fits : character.toNat < 16 ^ digits) (fuel : Nat) (known rest : List Char)
    (line column index : Nat) :
    readQuotedRun? false (fuel + 1) known
        ⟨'\\' :: mark :: (Text.capitalHexadecimal digits character.toNat).toList ++ rest, line,
          column, index⟩ =
      readQuotedRun? false fuel (character :: known)
        ⟨rest, line,
          column + ('\\' :: mark :: (Text.capitalHexadecimal digits character.toNat).toList).length,
          index +
            ('\\' :: mark :: (Text.capitalHexadecimal digits character.toNat).toList).length⟩ := by
  have width : ('\\' :: mark :: (Text.capitalHexadecimal digits character.toNat).toList).length =
      2 + digits := by
    rw [List.length_cons, List.length_cons, Text.length_capitalHexadecimal]
    omega
  have known_code : digits ≠ 0 ∧ escape? mark = some (.code digits) ∧ isBreak mark = false := by
    simp only [List.mem_cons, Prod.mk.injEq, List.not_mem_nil, or_false] at kind
    rcases kind with ⟨rfl, rfl⟩ | ⟨rfl, rfl⟩ | ⟨rfl, rfl⟩ <;> exact ⟨by decide, rfl, rfl⟩
  obtain ⟨some, code, unbroken⟩ := known_code
  rw [width]
  exact readQuotedRun?_escape unbroken (readEscape?_code some code fits rest line column index) fuel
    known

/-- One character between double quotes is read. -/
theorem readQuotedRun?_escapeDouble {character : Char} (solid : character ≠ ' ') (fuel : Nat)
    (known rest : List Char) (line column index : Nat) :
    readQuotedRun? false (fuel + 1) known ⟨escapeDouble character ++ rest, line, column, index⟩ =
      readQuotedRun? false fuel (character :: known)
        ⟨rest, line, column + (escapeDouble character).length,
          index + (escapeDouble character).length⟩ := by
  have escaped := escaped_escapeDouble character
  generalize escapeDouble character = written at escaped ⊢
  cases escaped with
  | raw printable unbroken quote slash =>
    have separator : isSeparator character = false := by
      rw [Bool.eq_false_iff]
      exact fun separator => solid (eq_blank_of_isPrintable printable separator unbroken)
    have quote' : (character == quoteMark false) = false := beq_eq_false_iff_ne.mpr quote
    have slash' : (character == '\\') = false := beq_eq_false_iff_ne.mpr slash
    simp only [List.cons_append, List.nil_append, readQuotedRun?, Cursor.next?, List.head?_cons,
      separator, quote', slash', Bool.false_and, Bool.and_false, Bool.false_eq_true, if_false]
    rfl
  | @letter letter member escape =>
    have unbroken : isBreak letter = false := by
      have none : escapeLetters.all (!isBreak ·) = true := by decide
      simpa using List.all_eq_true.mp none letter member
    exact readQuotedRun?_escape unbroken (readEscape?_letter escape rest line column index) fuel
      known
  | code kind fits => exact readQuotedRun?_code kind fits fuel known rest line column index

/-- A character between double quotes starts with no separator, if it is no blank. -/
theorem escapeDouble_eq_cons {character : Char} (solid : character ≠ ' ') :
    ∃ first rest, escapeDouble character = first :: rest ∧ isSeparator first = false := by
  have escaped := escaped_escapeDouble character
  generalize escapeDouble character = written at escaped ⊢
  cases escaped with
  | raw printable unbroken =>
    refine ⟨character, [], rfl, ?_⟩
    rw [Bool.eq_false_iff]
    exact fun separator => solid (eq_blank_of_isPrintable printable separator unbroken)
  | letter => exact ⟨_, _, rfl, by decide⟩
  | code => exact ⟨_, _, rfl, by decide⟩

theorem length_le_flatMap_escapeDouble (text : List Char) :
    text.length ≤ (text.flatMap escapeDouble).length := by
  induction text with
  | nil => exact le_rfl
  | cons first rest ih =>
    have some : 0 < (escapeDouble first).length := by
      by_cases blank : first = ' '
      · subst blank
        decide
      · obtain ⟨mark, more, written, -⟩ := escapeDouble_eq_cons blank
        rw [written]
        exact Nat.succ_pos _
    rw [List.flatMap_cons, List.length_append, List.length_cons]
    omega

theorem readQuotedRun?_double {stop : Char} (after : List Char)
    (solid : ∀ character ∈ word, character ≠ ' ')
    (ends : stop = '"' ∨ stop = ' ') {fuel : Nat} (enough : word.length < fuel)
    (known : List Char) (line column index : Nat) :
    readQuotedRun? false fuel known
        ⟨word.flatMap escapeDouble ++ stop :: after, line, column, index⟩ =
      some (word.reverse ++ known, false,
        ⟨stop :: after, line, column + (word.flatMap escapeDouble).length,
          index + (word.flatMap escapeDouble).length⟩) := by
  induction word generalizing fuel known column index with
  | nil =>
    obtain ⟨fuel, rfl⟩ : ∃ less, fuel = less + 1 := ⟨fuel - 1, by omega⟩
    rcases ends with rfl | rfl <;> rfl
  | cons first word ih =>
    obtain ⟨fuel, rfl⟩ : ∃ less, fuel = less + 1 := ⟨fuel - 1, by omega⟩
    rw [List.flatMap_cons, List.append_assoc,
      readQuotedRun?_escapeDouble (solid first List.mem_cons_self),
      ih (fun character member => solid character (List.mem_cons_of_mem _ member))
        (Nat.lt_of_succ_lt_succ enough)]
    simp [Nat.add_assoc]

/-- A word between double quotes is read up to what ends it. -/
theorem readQuotedRun?_doubleWord {stop : Char} (after : List Char)
    (solid : ∀ character ∈ word, character ≠ ' ') (ends : stop = '"' ∨ stop = ' ')
    (known : List Char) (line column index : Nat) :
    readQuotedRun? false ((word.flatMap escapeDouble ++ stop :: after).length + 1) known
        ⟨word.flatMap escapeDouble ++ stop :: after, line, column, index⟩ =
      some (word.reverse ++ known, false,
        ⟨stop :: after, line, column + (word.flatMap escapeDouble).length,
          index + (word.flatMap escapeDouble).length⟩) := by
  refine readQuotedRun?_double after solid ends ?_ known line column index
  have := length_le_flatMap_escapeDouble word
  rw [List.length_append]
  omega

theorem noGap_doubleQuoted (blank : ∀ character ∈ text.head?, character ≠ ' ') (after : List Char) :
    NoGap (text.flatMap escapeDouble ++ '"' :: after) := by
  cases text with
  | nil => exact noGap_cons rfl
  | cons first rest =>
    obtain ⟨mark, more, written, own⟩ := escapeDouble_eq_cons (blank first rfl)
    rw [List.flatMap_cons, written]
    exact noGap_cons own

theorem flatMap_escapeDouble_indent (count : Nat) :
    (indent count).flatMap escapeDouble = indent count := by
  induction count with
  | zero => rfl
  | succ count ih => exact congrArg (' ' :: ·) ih

/-- A text between double quotes is read back. -/
theorem readQuoted?_double (text after : List Char) {fuel : Nat} (enough : text.length < fuel)
    (known : List Char) (line column index : Nat) (inside : 0 < column) :
    ∃ column' index', 0 < column' ∧ readQuoted? false fuel known
        ⟨text.flatMap escapeDouble ++ '"' :: after, line, column, index⟩ =
      some (String.ofList (known.reverse ++ text), ⟨after, line, column', index'⟩) := by
  induction fuel generalizing text known column index with
  | zero => exact absurd enough (Nat.not_lt_zero _)
  | succ fuel ih =>
    obtain ⟨word, left, rfl, solid, stop⟩ := exists_span (· != ' ') text
    have solid : ∀ character ∈ word, character ≠ ' ' := fun character member =>
      bne_iff_ne.mp (solid character member)
    cases left with
    | nil =>
      have run := readQuotedRun?_doubleWord after solid (.inl rfl) known line column index
      have read := readQuoted?_word run inside fuel
      rw [if_pos (show '"' = quoteMark false from rfl)] at read
      rw [List.append_nil]
      exact ⟨_, _, Nat.succ_pos _, read⟩
    | cons first rest =>
      have blank : first = ' ' := by simpa using stop first rfl
      subst blank
      obtain ⟨count, more, rfl, blankless⟩ := exists_indent rest
      rw [List.length_append, List.length_cons, List.length_append] at enough
      have text_eq : (word ++ ' ' :: (indent count ++ more)).flatMap escapeDouble =
          word.flatMap escapeDouble ++ ' ' :: (indent count ++ more.flatMap escapeDouble) := by
        rw [List.flatMap_append, List.flatMap_cons, List.flatMap_append,
          flatMap_escapeDouble_indent]
        rfl
      have run := readQuotedRun?_doubleWord
        (indent count ++ (more.flatMap escapeDouble ++ '"' :: after)) solid (.inr rfl) known line
        column index
      have read := readQuoted?_word run inside fuel
      obtain ⟨column', index', right, rest⟩ := ih more (by omega)
        ((indent (count + 1)).reverse ++ (word.reverse ++ known))
        (column + (word.flatMap escapeDouble).length + (count + 1))
        (index + (word.flatMap escapeDouble).length + (count + 1)) (by omega)
      refine ⟨column', index', right, ?_⟩
      rw [text_eq, List.append_assoc, List.cons_append, List.append_assoc, read, if_neg (by decide),
        Gap.read?_indent (noGap_doubleQuoted blankless after) (by simp [indent]; omega),
        Option.bind_some]
      have folded : (⟨indent (count + 1), false, [], []⟩ : Gap).folded = ' ' :: indent count := rfl
      have blank : indent (count + 1) = ' ' :: indent count := rfl
      rw [folded]
      rw [blank] at rest
      refine rest.trans ?_
      simp

end PowerTest.Yaml
