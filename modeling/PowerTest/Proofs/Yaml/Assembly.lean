import PowerTest.Yaml.Node
import PowerTest.Proofs.Yaml.Documents

/-!
# Documents that are read

The tokens of an entry, and no more, are taken as the node of the entry (`takes_entry`). So a
document that is written is read as the node of what was written (`parse?_document`).
-/

namespace PowerTest.Yaml

/-! ## What is read -/

/-- The node of a key or of something written without quotes. -/
def plainNode (written : String) : Node := .scalar .none .plain written

/-- The node of a text. -/
def textNode (content : String) : Node := .scalar .none (styleOf content) content

mutual

/-- The node of an entry. -/
def Entry.node : Entry → Node
  | .plain written => plainNode written
  | .text content => textNode content
  | .texts contents => .sequence .none (contents.map textNode)
  | .nested entries => .mapping .none (entryNodes entries)

/-- The nodes of keys and their entries. -/
def entryNodes : List (String × Entry) → List (Node × Node)
  | [] => []
  | (key, entry) :: rest => (plainNode key, entry.node) :: entryNodes rest

end

/-! ## Steps -/

open Assembler

variable {α β : Type} {tokens middle rest : List Token} {token : Token}

/-- A step takes tokens up to some rest and gives a value. -/
def Takes (step : Assembler α) (tokens rest : List Token) (value : α) : Prop :=
  ∀ anchors, step.run ⟨tokens, anchors⟩ = some (value, ⟨rest, anchors⟩)

theorem Takes.bind {first : Assembler α} {next : α → Assembler β} {value : α} {result : β}
    (one : Takes first tokens middle value) (two : Takes (next value) middle rest result) :
    Takes (first >>= next) tokens rest result := by
  intro anchors
  rw [StateT.run_bind, one anchors]
  exact two anchors

theorem takes_pure (value : α) : Takes (pure value) tokens tokens value := fun _ => rfl

theorem takes_peek : Takes peek tokens tokens tokens.head? := fun _ => rfl

theorem takes_skip : Takes skip (token :: rest) rest () := fun _ => rfl

theorem takes_take : Takes (take token) (token :: rest) rest true := by
  refine takes_peek.bind ?_
  rw [List.head?_cons, if_pos rfl]
  exact takes_skip.bind (takes_pure true)

theorem takes_take_other (other : tokens.head? ≠ some token) :
    Takes (take token) tokens tokens false := by
  refine takes_peek.bind ?_
  rw [if_neg other]
  exact takes_pure false

theorem takes_isNext {bounds : List Token} (other : token ∉ bounds) :
    Takes (isNext bounds) (token :: rest) (token :: rest) false := by
  refine takes_peek.bind ?_
  have no : bounds.contains token = false := by
    rw [Bool.eq_false_iff, ne_eq, List.contains_iff_mem]
    exact other
  simp only [List.head?_cons, no]
  exact takes_pure false

/-! ## Nodes -/

/-- A token that says nothing about the node after it and refers to no other. -/
def Token.isBare : Token → Bool
  | .reference _ | .anchor _ | .tag _ _ => false
  | _ => true

variable {handles : List (String × String)} {block asEntry : Bool} {fuel : Nat}

theorem takes_readAnchor (bare : token.isBare = true) :
    Takes readAnchor (token :: rest) (token :: rest) none := by
  refine takes_peek.bind ?_
  cases token <;> first
    | exact takes_pure none
    | cases bare

theorem takes_readTag (bare : token.isBare = true) :
    Takes (readTag handles) (token :: rest) (token :: rest) none := by
  refine takes_peek.bind ?_
  cases token <;> first
    | exact takes_pure none
    | cases bare

theorem takes_readProperties (bare : token.isBare = true) :
    Takes (readProperties handles) (token :: rest) (token :: rest) .none :=
  (takes_readAnchor bare).bind ((takes_readTag bare).bind
    ((takes_readAnchor bare).bind (takes_pure _)))

theorem takes_scalar (style : Style) (text : String) :
    Takes (readNode handles block asEntry (fuel + 1)) (.scalar style text :: rest) rest
      (.scalar .none style text) := by
  rw [readNode]
  refine takes_peek.bind ?_
  refine (takes_readProperties rfl).bind ?_
  refine takes_peek.bind ?_
  exact takes_skip.bind (takes_pure _)

/-- A list between brackets is taken with them if its items are. -/
theorem takes_sequence {nodes : List Node}
    (taken : Takes (readFlowItems handles true fuel) middle rest nodes) :
    Takes (readNode handles block asEntry (fuel + 1)) (.flowSequenceStart :: middle) rest
      (.sequence .none nodes) := by
  rw [readNode]
  refine takes_peek.bind ?_
  refine (takes_readProperties rfl).bind ?_
  refine takes_peek.bind ?_
  exact takes_skip.bind (taken.bind (takes_pure _))

theorem takes_closeSequence {first : Bool} :
    Takes (readFlowItems handles first (fuel + 1)) (.flowSequenceEnd :: rest) rest [] := by
  rw [readFlowItems]
  refine takes_take.bind ?_
  exact takes_pure _

theorem takes_noTexts :
    Takes (readNode handles block asEntry (fuel + 2))
      (.flowSequenceStart :: .flowSequenceEnd :: rest) rest (.sequence .none []) :=
  takes_sequence takes_closeSequence

theorem takes_noEntries :
    Takes (readNode handles block asEntry (fuel + 2)) (.flowMappingStart :: .flowMappingEnd :: rest)
      rest (.mapping .none []) := by
  have entries : Takes (readFlowEntries handles true (fuel + 1)) (.flowMappingEnd :: rest) rest
      [] := by
    rw [readFlowEntries]
    refine takes_take.bind ?_
    exact takes_pure _
  rw [readNode]
  refine takes_peek.bind ?_
  refine (takes_readProperties rfl).bind ?_
  refine takes_peek.bind ?_
  exact takes_skip.bind (entries.bind (takes_pure _))

theorem takes_readNodeUnless {bounds : List Token} {node : Node} (other : token ∉ bounds)
    (taken : Takes (readNode handles block asEntry fuel) (token :: middle) rest node) :
    Takes (readNodeUnless handles block asEntry bounds (fuel + 1)) (token :: middle) rest node := by
  rw [readNodeUnless]
  refine (takes_isNext other).bind ?_
  exact taken

/-- The items of a list are taken up to a token that is no dash. -/
theorem takes_items (stop : rest.head? ≠ some .blockEntry) (contents : List String)
    (enough : contents.length + 2 ≤ fuel) :
    Takes (readFlatItems handles fuel) (itemTokens contents ++ rest) rest
      (contents.map textNode) := by
  induction contents generalizing fuel with
  | nil =>
    obtain ⟨fuel, rfl⟩ : ∃ less, fuel = less + 1 := ⟨fuel - 1, by omega⟩
    rw [readFlatItems]
    refine (takes_take_other stop).bind ?_
    exact takes_pure _
  | cons content others ih =>
    rw [List.length_cons] at enough
    obtain ⟨fuel, rfl⟩ : ∃ less, fuel = less + 3 := ⟨fuel - 3, by omega⟩
    rw [readFlatItems]
    refine takes_take.bind ?_
    refine (takes_readNodeUnless (by simp) (takes_scalar _ _)).bind ?_
    exact (ih (by omega)).bind (takes_pure _)

theorem takes_texts (stop : rest.head? ≠ some .blockEntry) {contents : List String}
    (some : contents ≠ []) (enough : contents.length + 3 ≤ fuel) :
    Takes (readNode handles block true fuel) (itemTokens contents ++ rest) rest
      (.sequence .none (contents.map textNode)) := by
  obtain ⟨content, others, rfl⟩ := List.exists_cons_of_ne_nil some
  obtain ⟨fuel, rfl⟩ : ∃ less, fuel = less + 1 := ⟨fuel - 1, by omega⟩
  rw [readNode]
  refine takes_peek.bind ?_
  refine (takes_readProperties rfl).bind ?_
  refine takes_peek.bind ?_
  exact (takes_items stop (content :: others) (by omega)).bind (takes_pure _)

/-- A mapping is taken with its bounds if its entries are. -/
theorem takes_mapping {entries : List (Node × Node)}
    (taken : Takes (readBlockEntries handles fuel) middle rest entries) :
    Takes (readNode handles true asEntry (fuel + 1)) (.blockMappingStart :: middle) rest
      (.mapping .none entries) := by
  rw [readNode]
  refine takes_peek.bind ?_
  refine (takes_readProperties rfl).bind ?_
  refine takes_peek.bind ?_
  exact takes_skip.bind (taken.bind (takes_pure _))

theorem takes_blockEnd :
    Takes (readBlockEntries handles (fuel + 1)) (.blockEnd :: rest) rest [] := by
  rw [readBlockEntries]
  refine (takes_take_other (by simp)).bind ?_
  refine takes_take.bind ?_
  exact takes_pure _

/-- An entry of a key and a value is taken before the others. -/
theorem takes_cons {key : String} {node : Node} {others : List (Node × Node)} {left : List Token}
    (other : token ∉ [Token.key, .value, .blockEnd])
    (value : Takes (readNode handles true true (fuel + 1)) (token :: middle) left node)
    (more : Takes (readBlockEntries handles (fuel + 2)) left rest others) :
    Takes (readBlockEntries handles (fuel + 3))
      (.key :: .scalar .plain key :: .value :: token :: middle) rest
      ((plainNode key, node) :: others) := by
  rw [readBlockEntries]
  refine takes_take.bind ?_
  refine (takes_readNodeUnless (by simp) (takes_scalar _ _)).bind ?_
  refine takes_take.bind ?_
  refine (takes_readNodeUnless other value).bind ?_
  exact more.bind (takes_pure _)

/-- A key without a value has an empty one. -/
theorem takes_cons_empty {key : String} {others : List (Node × Node)}
    (bound : token ∈ [Token.key, .value, .blockEnd]) (left : List Token)
    (more : Takes (readBlockEntries handles (fuel + 2)) (token :: left) rest others) :
    Takes (readBlockEntries handles (fuel + 3))
      (.key :: .scalar .plain key :: .value :: token :: left) rest
      ((plainNode key, .empty .none) :: others) := by
  have empty : Takes (readNodeUnless handles true true [.key, .value, .blockEnd] (fuel + 2))
      (token :: left) (token :: left) (.empty .none) := by
    have known : [Token.key, .value, .blockEnd].contains token = true :=
      List.contains_iff_mem.mpr bound
    have next : Takes (isNext [.key, .value, .blockEnd]) (token :: left) (token :: left) true := by
      refine takes_peek.bind ?_
      simp only [List.head?_cons, known]
      exact takes_pure true
    rw [readNodeUnless]
    refine next.bind ?_
    exact takes_pure _
  rw [readBlockEntries]
  refine takes_take.bind ?_
  refine (takes_readNodeUnless (by simp) (takes_scalar _ _)).bind ?_
  refine takes_take.bind ?_
  refine empty.bind ?_
  exact more.bind (takes_pure _)

/-! ## Entries -/

theorem exists_tokens (entry : Entry) : ∃ first rest, entry.tokens = first :: rest ∧
    first ∉ [Token.key, .value, .blockEnd] := by
  cases entry with
  | plain written => exact ⟨_, _, rfl, by simp⟩
  | text content => exact ⟨_, _, rfl, by simp⟩
  | texts contents => cases contents <;> exact ⟨_, _, rfl, by simp⟩
  | nested entries => cases entries <;> exact ⟨_, _, rfl, by simp⟩

theorem length_itemTokens (contents : List String) :
    (itemTokens contents).length = 2 * contents.length := by
  induction contents with
  | nil => rfl
  | cons content rest ih =>
    rw [itemTokens, List.length_cons, List.length_cons, List.length_cons, ih]
    omega

theorem head?_entryTokens (entries : List (String × Entry)) (rest : List Token) :
    (entryTokens entries ++ .blockEnd :: rest).head? ≠ some .blockEntry := by
  cases entries with
  | nil => simp [entryTokens]
  | cons entry others =>
    obtain ⟨key, entry⟩ := entry
    simp [entryTokens]

mutual

/-- The tokens of an entry are taken as its node. -/
theorem takes_entry : ∀ {entry : Entry} {fuel : Nat} {rest : List Token},
    2 * entry.tokens.length ≤ fuel → rest.head? ≠ some .blockEntry →
    Takes (readNode handles true true fuel) (entry.tokens ++ rest) rest entry.node
  | .plain written, fuel, rest, enough, _ => by
    simp only [Entry.tokens, List.length_singleton] at enough
    obtain ⟨fuel, rfl⟩ : ∃ less, fuel = less + 1 := ⟨fuel - 1, by omega⟩
    exact takes_scalar .plain written
  | .text content, fuel, rest, enough, _ => by
    simp only [Entry.tokens, List.length_singleton] at enough
    obtain ⟨fuel, rfl⟩ : ∃ less, fuel = less + 1 := ⟨fuel - 1, by omega⟩
    exact takes_scalar (styleOf content) content
  | .texts [], fuel, rest, enough, _ => by
    simp only [Entry.tokens, List.length_cons, List.length_nil] at enough
    obtain ⟨fuel, rfl⟩ : ∃ less, fuel = less + 2 := ⟨fuel - 2, by omega⟩
    exact takes_noTexts
  | .texts (first :: others), fuel, rest, enough, stop => by
    rw [Entry.tokens, length_itemTokens, List.length_cons] at enough
    exact takes_texts stop (List.cons_ne_nil first others) (by rw [List.length_cons]; omega)
  | .nested [], fuel, rest, enough, _ => by
    simp only [Entry.tokens, List.length_cons, List.length_nil] at enough
    obtain ⟨fuel, rfl⟩ : ∃ less, fuel = less + 2 := ⟨fuel - 2, by omega⟩
    exact takes_noEntries
  | .nested (first :: others), fuel, rest, enough, _ => by
    simp only [Entry.tokens, List.length_append, List.length_cons, List.length_nil] at enough
    obtain ⟨fuel, rfl⟩ : ∃ less, fuel = less + 1 := ⟨fuel - 1, by omega⟩
    rw [Entry.tokens, List.cons_append, List.cons_append, List.append_assoc]
    exact takes_mapping (takes_entries (by omega))

/-- The tokens of entries and the bound behind them are taken as their nodes. -/
theorem takes_entries : ∀ {entries : List (String × Entry)} {fuel : Nat} {rest : List Token},
    2 * (entryTokens entries).length < fuel →
    Takes (readBlockEntries handles fuel) (entryTokens entries ++ .blockEnd :: rest) rest
      (entryNodes entries)
  | [], fuel, rest, enough => by
    obtain ⟨fuel, rfl⟩ : ∃ less, fuel = less + 1 := ⟨fuel - 1, by omega⟩
    exact takes_blockEnd
  | (key, entry) :: others, fuel, rest, enough => by
    simp only [entryTokens, List.cons_append, List.length_cons, List.length_append] at enough
    obtain ⟨fuel, rfl⟩ : ∃ less, fuel = less + 3 := ⟨fuel - 3, by omega⟩
    have value : Takes (readNode handles true true (fuel + 1)) (entry.tokens ++ _) _ entry.node :=
      takes_entry (by omega) (head?_entryTokens others rest)
    obtain ⟨first, more, same, other⟩ := exists_tokens entry
    rw [same] at value
    rw [entryTokens, same, List.append_assoc]
    exact takes_cons other value (takes_entries (by omega))

end

/-- A text that is scanned as a mapping is read as its entries, if their tokens are taken. -/
theorem parse?_mapping {text : String} {entries : List (Node × Node)}
    (scanned : tokens? text = some (.blockMappingStart :: tokens ++ [.blockEnd]))
    (taken : ∀ {fuel}, 2 * tokens.length < fuel →
      Takes (readBlockEntries standardHandles fuel) (tokens ++ [.blockEnd]) [] entries) :
    parse? text = some (some (.mapping .none entries)) := by
  have enough : 2 * tokens.length <
      4 * (Token.blockMappingStart :: tokens ++ [Token.blockEnd]).length + 3 := by
    simp only [List.cons_append, List.length_cons, List.length_append, List.length_nil]
    omega
  have root : Takes (readRoot (4 * (Token.blockMappingStart :: tokens ++
      [Token.blockEnd]).length + 4)) (.blockMappingStart :: tokens ++ [.blockEnd]) []
      (.mapping .none entries) := by
    refine takes_peek.bind ?_
    exact takes_mapping (taken enough)
  rw [parse?, scanned, Option.bind_eq_bind, Option.bind_some, if_neg (by simp), root []]
  rfl

/-- A document that is written is read as what was written. -/
theorem parse?_document {entries : List (String × Entry)} (written : EntriesWritten entries)
    (nonempty : entries ≠ []) :
    parse? (document entries) = some (some (Entry.nested entries).node) :=
  parse?_mapping (tokens?_document written nonempty) takes_entries

end PowerTest.Yaml
