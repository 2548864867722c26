import PowerTest.Proofs.Yaml.Assembly
import PowerTest.Proofs.Yaml.Rows

/-!
# Annotated documents

A document made for people has remarks between its lines, and writes its lists in rows. It is made
of blocks with a key each, whose lines are keys with values. A block may have no lines, and then its
key has an empty value. `parse?_annotated` says that such a document is read as what its blocks say,
the remarks left out.
-/

namespace PowerTest.Yaml

/-! ## What is written -/

/-- A value on the line of its key. -/
inductive Inline
  | plain (written : String)
  | quoted (content : String)
  | row (items : List RowItem)

/-- A key with its value, and the remarks behind it. -/
structure NotedLine where
  key : String
  value : Inline
  remarks : List Remark

/-- A key with lines below it, and the remarks before them. -/
structure NotedBlock where
  key : String
  remarks : List Remark
  lines : List NotedLine

/-- What is written for a value. -/
def Inline.written : Inline → List Char
  | plain written => written.toList
  | quoted content => doubleQuoted content.toList
  | row items => rowText items

/-- What is written for a line and its remarks. -/
def NotedLine.written (line : NotedLine) : List Char :=
  indent 2 ++ (line.key.toList ++
    ':' :: ' ' :: (line.value.written ++ '\n' :: remarksText line.remarks))

/-- What is written for a block. -/
def NotedBlock.written (block : NotedBlock) : List Char :=
  indent 0 ++ (block.key.toList ++
    ':' :: '\n' :: (remarksText block.remarks ++ block.lines.flatMap NotedLine.written))

/-- What is written for blocks with remarks before them. -/
def annotatedText (remarks : List Remark) (blocks : List NotedBlock) : List Char :=
  remarksText remarks ++ blocks.flatMap NotedBlock.written

/-- Whether a value is written as it can be read: without quotes only if it needs none. -/
def Inline.isWritten : Inline → Bool
  | plain written =>
    !written.toList.isEmpty && Traits.allowPlain (Traits.ofText written.toList)
  | quoted _ => true
  | row items => items.all RowItem.isWritten

/-- Whether a line is written as it can be read. -/
def NotedLine.isWritten (line : NotedLine) : Bool :=
  isName line.key && line.value.isWritten && line.remarks.all Remark.isLine

/-- Whether a block is written as it can be read. -/
def NotedBlock.isWritten (block : NotedBlock) : Bool :=
  isName block.key && block.remarks.all Remark.isLine && block.lines.all NotedLine.isWritten

/-! ## Its tokens -/

/-- The tokens of a value. -/
def Inline.tokens : Inline → List Token
  | plain written => [.scalar .plain written]
  | quoted content => [.scalar .doubleQuoted content]
  | row items => rowTokens items

/-- The tokens of a line. -/
def NotedLine.tokens (line : NotedLine) : List Token :=
  .key :: .scalar .plain line.key :: .value :: line.value.tokens

/-- The tokens of the lines below a key. -/
def blockTokens : List NotedLine → List Token
  | [] => []
  | first :: rest => .blockMappingStart :: (first :: rest).flatMap NotedLine.tokens ++ [.blockEnd]

/-- The tokens of a block. -/
def NotedBlock.tokens (block : NotedBlock) : List Token :=
  .key :: .scalar .plain block.key :: .value :: blockTokens block.lines

variable {column around : Nat} {line : NotedLine} {block : NotedBlock} {lines : List NotedLine}
  {blocks : List NotedBlock} {remarks : List Remark} {rest : List Token}

theorem NotedLine.isWritten_iff :
    line.isWritten = true ↔
      isName line.key = true ∧ line.value.isWritten = true ∧ AreLines line.remarks := by
  rw [isWritten, Bool.and_eq_true, Bool.and_eq_true, List.all_eq_true, and_assoc]
  rfl

theorem NotedBlock.isWritten_iff :
    block.isWritten = true ↔
      isName block.key = true ∧ AreLines block.remarks ∧
        ∀ line ∈ block.lines, line.isWritten = true := by
  rw [isWritten, Bool.and_eq_true, Bool.and_eq_true, List.all_eq_true, List.all_eq_true, and_assoc]
  rfl

/-- Lines of a block that are scanned one by one are scanned as a whole. -/
theorem lines_flatMap {α : Type} {text : α → List Char} {tokens : α → List Token} {all : List α}
    (some : all ≠ []) (starts : ∀ line ∈ all, ∀ after, Leads column (text line ++ after))
    (each : ∀ line ∈ all, Lines column (text line) (tokens line)) :
    Lines column (all.flatMap text) (all.flatMap tokens) := by
  induction all with
  | nil => exact absurd rfl some
  | cons line rest ih =>
    obtain ⟨own, others⟩ := List.forall_mem_cons.mp each
    obtain ⟨-, behind⟩ := List.forall_mem_cons.mp starts
    intro indentation outer reversed after scan
    rw [List.flatMap_cons, List.flatMap_cons]
    cases rest with
    | nil =>
      rw [List.flatMap_nil, List.append_nil, List.flatMap_nil, List.append_nil]
      exact own
    | cons next rest =>
      refine own.append (fun _ => ?_) (ih (List.cons_ne_nil next rest) behind others)
      rw [List.flatMap_cons, List.append_assoc]
      exact behind next List.mem_cons_self _

theorem leads_noted {key : String} (name : isName key = true) (written after : List Char) :
    Leads column (indent column ++ (key.toList ++ ':' :: written) ++ after) := by
  rw [List.append_assoc, List.append_assoc]
  exact leads_key name column (written ++ after)

theorem leads_line (written : line.isWritten = true) (after : List Char) :
    Leads 2 (line.written ++ after) :=
  leads_noted (NotedLine.isWritten_iff.mp written).1 _ after

theorem leads_block (written : block.isWritten = true) (after : List Char) :
    Leads 0 (block.written ++ after) :=
  leads_noted (NotedBlock.isWritten_iff.mp written).1 _ after

theorem follows_inline {value : Inline} (written : value.isWritten = true)
    (areLines : AreLines remarks) :
    Follows around (' ' :: (value.written ++ '\n' :: remarksText remarks)) value.tokens := by
  cases value with
  | plain content =>
    simp only [Inline.isWritten, Bool.and_eq_true, Bool.not_eq_true', List.isEmpty_eq_false_iff]
      at written
    have reads : ReadsAs around (content.toList ++ '\n' :: remarksText remarks)
        (.scalar .plain (String.ofList content.toList)) :=
      readsAs_plain_remarks (isPlain_of_allowPlain written.1 written.2) areLines
    rw [String.ofList_toList] at reads
    exact @follows_scalar around _ _ reads
  | quoted content =>
    have reads : ReadsAs around (doubleQuoted content.toList ++ '\n' :: remarksText remarks)
        (.scalar .doubleQuoted (String.ofList content.toList)) :=
      readsAs_doubleQuoted_remarks content.toList areLines
    rw [String.ofList_toList] at reads
    exact @follows_scalar around _ _ reads
  | row items => exact @follows_row items around remarks (List.all_eq_true.mp written) areLines

theorem lines_line (written : line.isWritten = true) : Lines 2 line.written line.tokens := by
  obtain ⟨name, value, areLines⟩ := NotedLine.isWritten_iff.mp written
  refine @lines_key 2 line.key _ _ name ?_ (follows_inline value areLines)
  intro after character member
  cases member
  rfl

/-- What stands behind a block's key is scanned as the tokens of its lines. -/
theorem follows_block (areLines : AreLines remarks)
    (written : ∀ line ∈ lines, line.isWritten = true) :
    Follows 0 ('\n' :: (remarksText remarks ++ lines.flatMap NotedLine.written))
      (blockTokens lines) := by
  cases lines with
  | nil =>
    intro line column index outer reversed after leads inside
    rw [List.flatMap_nil, List.append_nil]
    exact ⟨_, .refl, Scan.atLine_newline_remarks areLines leads (Scan.passed_none _)⟩
  | cons first rest =>
    have leads : ∀ line ∈ first :: rest, ∀ after, Leads 2 (line.written ++ after) :=
      fun line member => leads_line (written line member)
    refine @follows_remarks_lines 0 remarks _ _ areLines (fun _ => ?_)
      (lines_flatMap (List.cons_ne_nil first rest) leads fun line member =>
        lines_line (written line member))
    rw [List.flatMap_cons, List.append_assoc]
    exact leads first List.mem_cons_self _

theorem lines_block (written : block.isWritten = true) : Lines 0 block.written block.tokens := by
  obtain ⟨name, areLines, lines⟩ := NotedBlock.isWritten_iff.mp written
  refine @lines_key 0 block.key _ _ name ?_ (follows_block areLines lines)
  intro after character member
  cases member
  rfl

/-- An annotated document is scanned as the tokens of its blocks. -/
theorem tokens?_annotated (areLines : AreLines remarks) (some : blocks ≠ [])
    (written : ∀ block ∈ blocks, block.isWritten = true)
    (allowed : Allowed (annotatedText remarks blocks)) :
    tokens? (String.ofList (annotatedText remarks blocks)) =
      .some (.blockMappingStart :: blocks.flatMap NotedBlock.tokens ++ [.blockEnd]) := by
  have leads : ∀ block ∈ blocks, ∀ after, Leads 0 (block.written ++ after) :=
    fun block member => leads_block (written block member)
  have start : Leads 0 (blocks.flatMap NotedBlock.written) := by
    obtain ⟨first, rest, rfl⟩ := List.exists_cons_of_ne_nil some
    exact leads first List.mem_cons_self _
  exact tokens?_lines areLines start
    (lines_flatMap some leads fun block member => lines_block (written block member)) allowed

/-! ## Its nodes -/

/-- The node of an item. -/
def RowItem.node : RowItem → Node
  | name word => plainNode word
  | quoted content => .scalar .none .doubleQuoted content

/-- The node of a value. -/
def Inline.node : Inline → Node
  | plain written => plainNode written
  | quoted content => .scalar .none .doubleQuoted content
  | row items => .sequence .none (items.map RowItem.node)

/-- The nodes of a line's key and value. -/
def NotedLine.node (line : NotedLine) : Node × Node := (plainNode line.key, line.value.node)

/-- The node of the lines below a key. -/
def blockNode : List NotedLine → Node
  | [] => .empty .none
  | first :: rest => .mapping .none ((first :: rest).map NotedLine.node)

/-- The nodes of a block's key and its lines. -/
def NotedBlock.node (block : NotedBlock) : Node × Node :=
  (plainNode block.key, blockNode block.lines)

open Assembler

variable {handles : List (String × String)} {asEntry : Bool} {fuel : Nat} {token : Token}

theorem RowItem.exists_scalar (item : RowItem) : ∃ style content,
    item.token = .scalar style content ∧ item.node = .scalar .none style content := by
  cases item with
  | name word => exact ⟨_, _, rfl, rfl⟩
  | quoted content => exact ⟨_, _, rfl, rfl⟩

/-- An item that is the next one in a row is taken before the others. -/
theorem takes_item {first : Bool} {item : RowItem} {before left : List Token} {others : List Node}
    (more : before.head? ≠ some .flowSequenceEnd)
    (comma : Takes (takeUnless first .flowEntry) before (item.token :: left) true)
    (taken : Takes (readFlowItems handles false (fuel + 1)) left rest others) :
    Takes (readFlowItems handles first (fuel + 2)) before rest (item.node :: others) := by
  obtain ⟨style, content, token, node⟩ := item.exists_scalar
  rw [token] at comma
  rw [node, readFlowItems]
  refine (takes_take_other more).bind ?_
  refine comma.bind ?_
  refine (takes_take_other (by simp)).bind ?_
  refine (takes_take_other (by simp)).bind ?_
  refine (takes_scalar style content).bind ?_
  exact taken.bind (takes_pure _)

theorem takes_rowRest (items : List RowItem) (enough : items.length < fuel) :
    Takes (readFlowItems handles false fuel) (rowRestTokens items ++ rest) rest
      (items.map RowItem.node) := by
  induction items generalizing fuel with
  | nil =>
    obtain ⟨fuel, rfl⟩ : ∃ less, fuel = less + 1 := ⟨fuel - 1, by omega⟩
    exact takes_closeSequence
  | cons item others ih =>
    rw [List.length_cons] at enough
    obtain ⟨fuel, rfl⟩ : ∃ less, fuel = less + 2 := ⟨fuel - 2, by omega⟩
    exact takes_item (by simp [rowRestTokens]) takes_take (ih (by omega))

/-- A row is taken as the sequence of its items. -/
theorem takes_row {block : Bool} (items : List RowItem) (enough : items.length + 1 < fuel) :
    Takes (readNode handles block asEntry fuel) (rowTokens items ++ rest) rest
      (.sequence .none (items.map RowItem.node)) := by
  obtain ⟨fuel, rfl⟩ : ∃ less, fuel = less + 2 := ⟨fuel - 2, by omega⟩
  cases items with
  | nil => exact takes_sequence takes_closeSequence
  | cons item others =>
    rw [List.length_cons] at enough
    obtain ⟨fuel, rfl⟩ : ∃ less, fuel = less + 1 := ⟨fuel - 1, by omega⟩
    obtain ⟨style, content, token, -⟩ := item.exists_scalar
    have more : ((item.token :: rowRestTokens others) ++ rest).head? ≠ some .flowSequenceEnd := by
      rw [token]
      simp
    exact takes_sequence (takes_item more (takes_pure true) (takes_rowRest others (by omega)))

theorem length_rowRestTokens (items : List RowItem) :
    (rowRestTokens items).length = 2 * items.length + 1 := by
  induction items with
  | nil => rfl
  | cons item rest ih =>
    rw [rowRestTokens, List.length_cons, List.length_cons, List.length_cons, ih]
    omega

theorem length_rowTokens (items : List RowItem) : items.length < (rowTokens items).length := by
  cases items with
  | nil => simp [rowTokens]
  | cons item rest =>
    rw [rowTokens, List.length_cons, List.length_cons, List.length_cons, length_rowRestTokens]
    omega

theorem Inline.exists_tokens (value : Inline) : ∃ first rest, value.tokens = first :: rest ∧
    first ∉ [Token.key, .value, .blockEnd] := by
  cases value with
  | plain written => exact ⟨_, _, rfl, by simp⟩
  | quoted content => exact ⟨_, _, rfl, by simp⟩
  | row items => cases items <;> exact ⟨_, _, rfl, by simp⟩

/-- The tokens of a value are taken as its node. -/
theorem takes_inline (value : Inline) (enough : value.tokens.length < fuel) :
    Takes (readNode handles true true fuel) (value.tokens ++ rest) rest value.node := by
  cases value with
  | plain written =>
    obtain ⟨fuel, rfl⟩ : ∃ less, fuel = less + 1 := ⟨fuel - 1, by omega⟩
    exact takes_scalar .plain written
  | quoted content =>
    obtain ⟨fuel, rfl⟩ : ∃ less, fuel = less + 1 := ⟨fuel - 1, by omega⟩
    exact takes_scalar .doubleQuoted content
  | row items =>
    rw [Inline.tokens] at enough
    have long := length_rowTokens items
    exact takes_row items (by omega)

/-- A line is taken before the others. -/
theorem takes_line (line : NotedLine) {left : List Token} {others : List (Node × Node)}
    (enough : line.tokens.length ≤ fuel)
    (more : Takes (readBlockEntries handles fuel) left rest others) :
    Takes (readBlockEntries handles (fuel + 1)) (line.tokens ++ left) rest
      (line.node :: others) := by
  rw [NotedLine.tokens, List.length_cons, List.length_cons, List.length_cons] at enough
  obtain ⟨fuel, rfl⟩ : ∃ less, fuel = less + 2 := ⟨fuel - 2, by omega⟩
  have value : Takes (readNode handles true true (fuel + 1)) (line.value.tokens ++ left) left
    line.value.node := takes_inline line.value (by omega)
  obtain ⟨first, rest, same, other⟩ := line.value.exists_tokens
  rw [same] at value
  rw [NotedLine.tokens, same]
  exact takes_cons other value more

/-- Entries that are taken one by one are taken up to the bound behind them. -/
theorem takes_flatMap {α : Type} {tokens : α → List Token} {node : α → Node × Node}
    (starts : ∀ entry, ∃ more, tokens entry = .key :: more)
    (each : ∀ (entry : α) {fuel : Nat} {token : Token} {left : List Token}
      {others : List (Node × Node)}, (tokens entry).length ≤ fuel →
      token ∈ [Token.key, .value, .blockEnd] →
      Takes (readBlockEntries handles fuel) (token :: left) rest others →
      Takes (readBlockEntries handles (fuel + 1)) (tokens entry ++ token :: left) rest
        (node entry :: others))
    (all : List α) (enough : (all.flatMap tokens).length < fuel) :
    Takes (readBlockEntries handles fuel) (all.flatMap tokens ++ .blockEnd :: rest) rest
      (all.map node) := by
  induction all generalizing fuel with
  | nil =>
    obtain ⟨fuel, rfl⟩ : ∃ less, fuel = less + 1 := ⟨fuel - 1, by omega⟩
    exact takes_blockEnd
  | cons entry others ih =>
    have long : 0 < (tokens entry).length := by
      obtain ⟨more, same⟩ := starts entry
      rw [same]
      exact Nat.succ_pos _
    rw [List.flatMap_cons, List.length_append] at enough
    obtain ⟨fuel, rfl⟩ : ∃ less, fuel = less + 1 := ⟨fuel - 1, by omega⟩
    have behind : Takes (readBlockEntries handles fuel) _ rest (others.map node) := ih (by omega)
    obtain ⟨token, left, same, bound⟩ : ∃ token left,
        others.flatMap tokens ++ .blockEnd :: rest = token :: left ∧
        token ∈ [Token.key, .value, .blockEnd] := by
      cases others with
      | nil => exact ⟨_, _, rfl, by simp⟩
      | cons next others =>
        obtain ⟨more, same⟩ := starts next
        rw [List.flatMap_cons, same]
        exact ⟨_, _, rfl, by simp⟩
    rw [same] at behind
    rw [List.flatMap_cons, List.append_assoc, same]
    exact each entry (by omega) bound behind

theorem takes_lines (lines : List NotedLine)
    (enough : (lines.flatMap NotedLine.tokens).length < fuel) :
    Takes (readBlockEntries handles fuel) (lines.flatMap NotedLine.tokens ++ .blockEnd :: rest) rest
      (lines.map NotedLine.node) := by
  refine takes_flatMap (fun _ => ⟨_, rfl⟩) ?_ lines enough
  intro line fuel token left others long _ more
  exact takes_line line long more

/-- A block is taken before the others. -/
theorem takes_block (block : NotedBlock) {left : List Token} {others : List (Node × Node)}
    (enough : block.tokens.length ≤ fuel) (bound : token ∈ [Token.key, .value, .blockEnd])
    (more : Takes (readBlockEntries handles fuel) (token :: left) rest others) :
    Takes (readBlockEntries handles (fuel + 1)) (block.tokens ++ token :: left) rest
      (block.node :: others) := by
  obtain ⟨key, remarks, lines⟩ := block
  rw [NotedBlock.tokens, List.length_cons, List.length_cons, List.length_cons] at enough
  cases lines with
  | nil =>
    obtain ⟨fuel, rfl⟩ : ∃ less, fuel = less + 2 := ⟨fuel - 2, by omega⟩
    exact takes_cons_empty bound left more
  | cons line lines =>
    rw [blockTokens, List.cons_append, List.length_cons, List.length_append] at enough
    obtain ⟨fuel, rfl⟩ : ∃ less, fuel = less + 2 := ⟨fuel - 2, by omega⟩
    have inner : Takes (readNode handles true true (fuel + 1))
        (.blockMappingStart :: ((line :: lines).flatMap NotedLine.tokens ++
          .blockEnd :: token :: left)) (token :: left) (blockNode (line :: lines)) :=
      takes_mapping (takes_lines (line :: lines) (by omega))
    have text_eq : NotedBlock.tokens ⟨key, remarks, line :: lines⟩ ++ token :: left =
        .key :: .scalar .plain key :: .value :: .blockMappingStart ::
          ((line :: lines).flatMap NotedLine.tokens ++ .blockEnd :: token :: left) := by
      simp [NotedBlock.tokens, blockTokens]
    rw [text_eq]
    exact takes_cons (by simp) inner more

theorem takes_blocks (blocks : List NotedBlock)
    (enough : (blocks.flatMap NotedBlock.tokens).length < fuel) :
    Takes (readBlockEntries handles fuel) (blocks.flatMap NotedBlock.tokens ++ .blockEnd :: rest)
      rest (blocks.map NotedBlock.node) := by
  refine takes_flatMap (fun _ => ⟨_, rfl⟩) ?_ blocks enough
  intro block fuel token left others long bound more
  exact takes_block block long bound more

/-- An annotated document is read as what its blocks say. -/
theorem parse?_annotated (areLines : AreLines remarks) (some : blocks ≠ [])
    (written : ∀ block ∈ blocks, block.isWritten = true)
    (allowed : Allowed (annotatedText remarks blocks)) :
    parse? (String.ofList (annotatedText remarks blocks)) =
      .some (.some (.mapping .none (blocks.map NotedBlock.node))) :=
  parse?_mapping (tokens?_annotated areLines some written allowed) fun enough =>
    takes_blocks blocks (by omega)

end PowerTest.Yaml
