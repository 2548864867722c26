import Mathlib.Data.List.Induction
import PowerTest.Fragment

/-!
# Fragments and the text they come from

Pieces that hold no blank line, and of which none but the last ends in a newline, are the pieces
of exactly one text: the one with a blank line between each of them and the next. In a run of
newlines every two make a blank line from the left, so it is the last piece that takes the newline
that is left over. `fragments_decompose` says that cutting a text finds such pieces, whatever the
text, and that it finds the pieces that a text was joined from.
-/

namespace PowerTest

/-- The characters of a blank line between two pieces. -/
def blankLine : List Char := ['\n', '\n']

/-- Pieces that blank lines can stand between without being mistaken. -/
structure ArePieces (pieces : List String) : Prop where
  whole : ∀ piece ∈ pieces, ¬blankLine <:+: piece.toList
  closed : ∀ piece ∈ pieces.dropLast, piece.toList.getLast? ≠ some '\n'

theorem arePieces_singleton {piece : String} :
    ArePieces [piece] ↔ ¬blankLine <:+: piece.toList := by
  constructor
  · intro pieces
    exact pieces.whole piece (List.mem_singleton_self piece)
  · intro whole
    exact ⟨List.forall_mem_singleton.mpr whole, List.forall_mem_nil _⟩

theorem arePieces_cons {piece : String} {others : List String} (more : others ≠ []) :
    ArePieces (piece :: others) ↔
      ¬blankLine <:+: piece.toList ∧ piece.toList.getLast? ≠ some '\n' ∧ ArePieces others := by
  constructor
  · rintro ⟨whole, closed⟩
    rw [List.dropLast_cons_of_ne_nil more] at closed
    obtain ⟨wholeFirst, wholeOthers⟩ := List.forall_mem_cons.mp whole
    obtain ⟨closedFirst, closedOthers⟩ := List.forall_mem_cons.mp closed
    exact ⟨wholeFirst, closedFirst, wholeOthers, closedOthers⟩
  · rintro ⟨wholeFirst, closedFirst, wholeOthers, closedOthers⟩
    refine ⟨List.forall_mem_cons.mpr ⟨wholeFirst, wholeOthers⟩, ?_⟩
    rw [List.dropLast_cons_of_ne_nil more]
    exact List.forall_mem_cons.mpr ⟨closedFirst, closedOthers⟩

/-- A character stays in the piece that is being read unless a blank line begins with it. -/
theorem blankLinePieces_cons {character : Char} {rest : List Char} (current : List Char)
    (within : ¬blankLine <+: character :: rest) :
    blankLinePieces current (character :: rest) = blankLinePieces (character :: current) rest := by
  rw [blankLinePieces]
  rintro others rfl rfl
  exact within (List.prefix_append blankLine others)

/-- What holds no blank line is one piece. -/
theorem blankLinePieces_of_whole {characters : List Char} (current : List Char)
    (whole : ¬blankLine <:+: characters) :
    blankLinePieces current characters = [current.reverse ++ characters] := by
  induction characters generalizing current with
  | nil => rw [blankLinePieces, List.append_nil]
  | cons character rest ih =>
    rw [List.infix_cons_iff, not_or] at whole
    rw [blankLinePieces_cons current whole.1, ih _ whole.2, List.reverse_cons, List.append_assoc,
      List.singleton_append]

/-- A piece that ends in no newline ends where the first blank line begins. -/
theorem blankLinePieces_append {piece : List Char} (current rest : List Char)
    (whole : ¬blankLine <:+: piece) (closed : piece.getLast? ≠ some '\n') :
    blankLinePieces current (piece ++ blankLine ++ rest) =
      (current.reverse ++ piece) :: blankLinePieces [] rest := by
  induction piece generalizing current with
  | nil => simp only [blankLine, List.nil_append, List.cons_append, blankLinePieces, List.append_nil]
  | cons character others ih =>
    rw [List.infix_cons_iff, not_or] at whole
    have within : ¬blankLine <+: character :: (others ++ blankLine ++ rest) := by
      rw [blankLine, List.cons_prefix_cons]
      rintro ⟨rfl, second⟩
      cases others with
      | nil => exact closed rfl
      | cons next later =>
        obtain ⟨rfl, _⟩ := List.cons_prefix_cons.mp second
        exact whole.1 (List.prefix_append blankLine later)
    have closedOthers : others.getLast? ≠ some '\n' := by
      intro last
      refine closed ?_
      rw [List.getLast?_cons, last]
      rfl
    rw [List.cons_append, List.cons_append, blankLinePieces_cons current within,
      ih _ whole.2 closedOthers, List.reverse_cons, List.append_assoc, List.singleton_append]

/-- A joined text begins with its first piece, and with a blank line behind it if there are more. -/
theorem toList_joined (piece : String) {others : List String} (more : others ≠ []) :
    ("\n\n".intercalate (piece :: others)).toList =
      piece.toList ++ blankLine ++ ("\n\n".intercalate others).toList := by
  rw [String.intercalate_cons_of_ne_nil more, String.toList_append, String.toList_append]
  rfl

/-- Cutting finds the pieces that a text was joined from. -/
theorem blankLinePieces_joined {pieces : List String} (some : pieces ≠ [])
    (proper : ArePieces pieces) :
    (blankLinePieces [] ("\n\n".intercalate pieces).toList).map String.ofList = pieces := by
  induction pieces with
  | nil => exact absurd rfl some
  | cons piece others ih =>
    by_cases more : others = []
    · subst more
      rw [String.intercalate_singleton, blankLinePieces_of_whole [] (arePieces_singleton.mp proper),
        List.reverse_nil, List.nil_append, List.map_singleton, String.ofList_toList]
    · obtain ⟨whole, closed, properOthers⟩ := (arePieces_cons more).mp proper
      rw [toList_joined piece more, blankLinePieces_append [] _ whole closed, List.map_cons,
        ih more properOthers, List.reverse_nil, List.nil_append, String.ofList_toList]

/-- A character in front of a text belongs to its first piece unless a blank line begins with it. -/
theorem arePieces_append {character : Char} {piece : String} {others : List String}
    (proper : ArePieces (piece :: others))
    (within : ¬blankLine <+: character :: ("\n\n".intercalate (piece :: others)).toList) :
    ArePieces ((String.singleton character ++ piece) :: others) := by
  have spelled : (String.singleton character ++ piece).toList = character :: piece.toList := by
    rw [String.toList_append, String.toList_singleton, List.singleton_append]
  have whole (wholePiece : ¬blankLine <:+: piece.toList)
      (start : piece.toList <+: ("\n\n".intercalate (piece :: others)).toList) :
      ¬blankLine <:+: (String.singleton character ++ piece).toList := by
    rw [spelled, List.infix_cons_iff, not_or]
    exact ⟨fun first => within (first.trans (List.cons_prefix_cons.mpr ⟨rfl, start⟩)), wholePiece⟩
  by_cases more : others = []
  · subst more
    rw [arePieces_singleton] at proper ⊢
    exact whole proper ⟨[], by rw [List.append_nil, String.intercalate_singleton]⟩
  · rw [toList_joined piece more] at within whole
    obtain ⟨wholePiece, closed, properOthers⟩ := (arePieces_cons more).mp proper
    refine (arePieces_cons more).mpr ⟨whole wholePiece ?_, ?_, properOthers⟩
    · rw [List.append_assoc]
      exact List.prefix_append _ _
    · rw [spelled, List.getLast?_cons]
      cases last : piece.toList.getLast? with
      | some final =>
        rw [last] at closed
        exact closed
      -- Behind an empty piece stands the first newline of the next blank line.
      | none =>
        rintro ⟨rfl⟩
        rw [List.getLast?_eq_none_iff.mp last] at within
        exact within (List.prefix_append blankLine _)

/-- A text that is joined from pieces. -/
def HasPieces (characters : List Char) : Prop :=
  ∃ preamble others, ArePieces (preamble :: others) ∧
    ("\n\n".intercalate (preamble :: others)).toList = characters

theorem HasPieces.cons {character : Char} {rest : List Char} (cut : HasPieces rest)
    (within : ¬blankLine <+: character :: rest) : HasPieces (character :: rest) := by
  obtain ⟨piece, others, proper, rfl⟩ := cut
  refine ⟨String.singleton character ++ piece, others, arePieces_append proper within, ?_⟩
  rw [String.intercalate_cons_append, String.toList_append, String.toList_singleton,
    List.singleton_append]

/-- Every text is joined from pieces. -/
theorem hasPieces (characters : List Char) : HasPieces characters := by
  have wholeEmpty : ¬blankLine <:+: "".toList :=
    fun blank => List.cons_ne_nil _ _ (List.infix_nil.mp blank)
  have nothing : HasPieces [] := by
    refine ⟨"", [], arePieces_singleton.mpr wholeEmpty, ?_⟩
    rw [String.intercalate_singleton]
    rfl
  -- A blank line takes two characters at a time.
  induction characters using List.twoStepInduction with
  | nil => exact nothing
  | singleton character =>
    refine nothing.cons fun blank => ?_
    have longer := blank.length_le
    simp [blankLine] at longer
  | cons_cons first second rest ih ihCons =>
    by_cases blank : blankLine <+: first :: second :: rest
    · obtain ⟨rfl, rfl⟩ : first = '\n' ∧ second = '\n' := by
        simpa [blankLine, eq_comm] using blank
      obtain ⟨preamble, others, proper, rfl⟩ := ih
      have more : preamble :: others ≠ [] := List.cons_ne_nil preamble others
      refine ⟨"", preamble :: others, (arePieces_cons more).mpr ⟨wholeEmpty, nofun, proper⟩, ?_⟩
      rw [toList_joined "" more]
      rfl
    · exact (ihCons second).cons blank

/-- The fragments of a text are the pieces behind its preamble, in the one way there is to cut the
text: what stands before the first blank line and the fragments are pieces that join to the text,
and the fragments of joined pieces are these pieces without the first. -/
theorem fragments_decompose :
    (∀ text, ∃ preamble, "\n\n".intercalate (preamble :: fragments text) = text ∧
      ArePieces (preamble :: fragments text) ∧
      (¬blankLine <:+: text.toList → preamble = text)) ∧
    ∀ preamble pieces, ArePieces (preamble :: pieces) →
      fragments ("\n\n".intercalate (preamble :: pieces)) = pieces := by
  have joined (preamble : String) (pieces : List String) (proper : ArePieces (preamble :: pieces)) :
      fragments ("\n\n".intercalate (preamble :: pieces)) = pieces := by
    rw [fragments, List.map_drop, blankLinePieces_joined (List.cons_ne_nil _ _) proper,
      List.drop_one, List.tail_cons]
  refine ⟨fun text => ?_, joined⟩
  obtain ⟨preamble, pieces, proper, spelled⟩ := hasPieces text.toList
  obtain rfl := String.toList_inj.mp spelled
  refine ⟨preamble, ?_⟩
  rw [joined preamble pieces proper]
  refine ⟨rfl, proper, fun unbroken => ?_⟩
  cases pieces with
  | nil => rw [String.intercalate_singleton]
  | cons next later =>
    -- A second piece stands behind a blank line.
    refine absurd ?_ unbroken
    rw [toList_joined preamble (List.cons_ne_nil next later)]
    exact List.infix_append _ _ _

/-- In a run of five newlines two blank lines enclose an empty piece, and the last newline begins
the last piece. -/
theorem fragments_decompose_newlines :
    ArePieces ["p", "", "\nlast\n"] ∧ fragments "p\n\n\n\n\nlast\n" = ["", "\nlast\n"] := by
  have proper : ArePieces ["p", "", "\nlast\n"] := by
    constructor
    · decide +kernel
    · decide +kernel
  have spelled : "\n\n".intercalate ["p", "", "\nlast\n"] = "p\n\n\n\n\nlast\n" := by decide +kernel
  refine ⟨proper, ?_⟩
  rw [← spelled]
  exact fragments_decompose.2 "p" ["", "\nlast\n"] proper

end PowerTest
