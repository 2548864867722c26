import PowerTest.Yaml.Token

/-!
# Nodes

A text's tokens as a tree of scalars, sequences and mappings. A node can be given a tag, and an
anchor by which other places refer to it. A text holds at most one tree.
-/

namespace PowerTest.Yaml

/-- What is said about a node besides its content. -/
structure Properties where
  /-- The number of the node's anchor. -/
  anchor : Option Nat
  tag : Option String
  deriving DecidableEq, Repr

/-- Nothing is said about a node. -/
def Properties.none : Properties := ⟨.none, .none⟩

/-- A node of a tree. -/
inductive Node
  | scalar (properties : Properties) (style : Style) (text : String)
  | sequence (properties : Properties) (items : List Node)
  | mapping (properties : Properties) (entries : List (Node × Node))
  /-- The node with an anchor of some number. -/
  | reference (number : Nat)

namespace Node

/-- A node without content. -/
def empty (properties : Properties) : Node := scalar properties .plain ""

mutual

/-- The nodes with anchors in a tree, in the order in which they start. -/
def anchored : Node → List (Nat × Node)
  | scalar properties style text => here properties (scalar properties style text)
  | sequence properties items => here properties (sequence properties items) ++ anchoredItems items
  | mapping properties entries =>
    here properties (mapping properties entries) ++ anchoredEntries entries
  | reference _ => []

/-- The nodes with anchors in items. -/
def anchoredItems : List Node → List (Nat × Node)
  | [] => []
  | item :: rest => anchored item ++ anchoredItems rest

/-- The nodes with anchors in entries. -/
def anchoredEntries : List (Node × Node) → List (Nat × Node)
  | [] => []
  | (key, value) :: rest => anchored key ++ (anchored value ++ anchoredEntries rest)

/-- A node under the number of its anchor, if it has one. -/
def here (properties : Properties) (node : Node) : List (Nat × Node) :=
  match properties.anchor with
  | some number => [(number, node)]
  | none => []

end

end Node

/-- What remains of a text's tokens, and the numbers of the anchors so far. -/
structure Assembly where
  tokens : List Token
  anchors : List (String × Nat)

/-- Steps that take tokens and may find them wrong. -/
abbrev Assembler := StateT Assembly Option

namespace Assembler

/-- The next token. -/
def peek : Assembler (Option Token) := do
  return (← get).tokens.head?

/-- Leave the next token out. -/
def skip : Assembler Unit :=
  modify fun assembly => { assembly with tokens := assembly.tokens.drop 1 }

/-- Whether the next token is a given one; it is taken if so. -/
def take (token : Token) : Assembler Bool := do
  if (← peek) = some token then
    skip
    return true
  else return false

/-- Whether a token is not needed or is next; it is taken if needed. -/
def takeUnless (unneeded : Bool) (token : Token) : Assembler Bool :=
  if unneeded then return true else take token

/-- Whether the next token is one of those given. -/
def isNext (tokens : List Token) : Assembler Bool := do
  match ← peek with
  | some token => return tokens.contains token
  | none => return false

/-- Number an anchor. Anchors of one name count once, so two anchors can have one number; it then
stands for the node that starts last. -/
def define (name : String) : Assembler Nat := do
  let anchors := (← get).anchors
  let number := anchors.length
  let others := anchors.filter fun (other, _) => other != name
  modify fun assembly => { assembly with anchors := (name, number) :: others }
  return number

/-- The number that an anchor's name has here. -/
def number (name : String) : Assembler Nat := do
  match (← get).anchors.lookup name with
  | some number => return number
  | none => failure

/-- A tag in full. -/
def resolve (handles : List (String × String)) (handle suffix : String) : Assembler String :=
  if handle.isEmpty then return suffix
  else
    match handles.lookup handle with
    | some start => return start ++ suffix
    | none => failure

/-- A tag, if one is next. -/
def readTag (handles : List (String × String)) : Assembler (Option String) := do
  match ← peek with
  | some (.tag handle suffix) =>
    skip
    return some (← resolve handles handle suffix)
  | _ => return none

/-- The name of an anchor, if one is next. -/
def readAnchor : Assembler (Option String) := do
  match ← peek with
  | some (.anchor name) =>
    skip
    return some name
  | _ => return none

/-- What is said about a node: an anchor and a tag in any order, both optional. -/
def readProperties (handles : List (String × String)) : Assembler Properties := do
  let before ← readAnchor
  let tag ← readTag handles
  let anchor ←
    match before with
    | some name => pure (some name)
    | none => readAnchor
  match anchor with
  | some name => return ⟨some (← define name), tag⟩
  | none => return ⟨none, tag⟩

mutual

/-- A node. Block collections count only in block context, and a sequence whose dashes are no
further right than the keys around it only as a mapping's key or value. -/
def readNode (handles : List (String × String)) (block asEntry : Bool) : Nat → Assembler Node
  | 0 => failure
  | fuel + 1 => do
    match ← peek with
    | some (.reference name) =>
      skip
      return .reference (← number name)
    | _ =>
      let properties ← readProperties handles
      match ← peek with
      | some (.scalar style text) =>
        skip
        let tag := if properties.tag = some "!" then none else properties.tag
        return .scalar { properties with tag } style text
      | some .flowSequenceStart =>
        skip
        return .sequence properties (← readFlowItems handles true fuel)
      | some .flowMappingStart =>
        skip
        return .mapping properties (← readFlowEntries handles true fuel)
      | some .blockEntry =>
        if asEntry then return .sequence properties (← readFlatItems handles fuel)
        else if properties = .none then failure
        else return .empty properties
      | next =>
        if block && next = some .blockSequenceStart then
          skip
          return .sequence properties (← readBlockItems handles fuel)
        else if block && next = some .blockMappingStart then
          skip
          return .mapping properties (← readBlockEntries handles fuel)
        else if properties = .none then failure
        else return .empty properties

/-- A node, or an empty one if one of some tokens is next. -/
def readNodeUnless (handles : List (String × String)) (block asEntry : Bool)
    (bounds : List Token) : Nat → Assembler Node
  | 0 => failure
  | fuel + 1 => do
    if ← isNext bounds then return .empty .none
    else readNode handles block asEntry fuel

/-- The items of a block sequence. -/
def readBlockItems (handles : List (String × String)) : Nat → Assembler (List Node)
  | 0 => failure
  | fuel + 1 => do
    if ← take .blockEntry then
      let item ← readNodeUnless handles true false [.blockEntry, .blockEnd] fuel
      return item :: (← readBlockItems handles fuel)
    else if ← take .blockEnd then return []
    else failure

/-- The items of a block sequence that no indentation bounds. -/
def readFlatItems (handles : List (String × String)) : Nat → Assembler (List Node)
  | 0 => failure
  | fuel + 1 => do
    if ← take .blockEntry then
      let item ← readNodeUnless handles true false [.blockEntry, .key, .value, .blockEnd] fuel
      return item :: (← readFlatItems handles fuel)
    else return []

/-- The entries of a block mapping. -/
def readBlockEntries (handles : List (String × String)) :
    Nat → Assembler (List (Node × Node))
  | 0 => failure
  | fuel + 1 => do
    if ← take .key then
      let key ← readNodeUnless handles true true [.key, .value, .blockEnd] fuel
      let value ←
        if ← take .value then readNodeUnless handles true true [.key, .value, .blockEnd] fuel
        else pure (.empty .none)
      return (key, value) :: (← readBlockEntries handles fuel)
    else if ← take .blockEnd then return []
    else failure

/-- The items of a flow sequence. An item that starts as a key is a mapping of one entry. -/
def readFlowItems (handles : List (String × String)) (first : Bool) :
    Nat → Assembler (List Node)
  | 0 => failure
  | fuel + 1 => do
    if ← take .flowSequenceEnd then return []
    else if ← takeUnless first .flowEntry then
      if ← take .flowSequenceEnd then return []
      else if ← take .key then
        let entry ← readFlowPair handles fuel
        return .mapping .none [entry] :: (← readFlowItems handles false fuel)
      else
        let item ← readNode handles false false fuel
        return item :: (← readFlowItems handles false fuel)
    else failure

/-- The entry of a mapping inside a flow sequence. The token that takes the place of a missing key
is left out. -/
def readFlowPair (handles : List (String × String)) : Nat → Assembler (Node × Node)
  | 0 => failure
  | fuel + 1 => do
    let key ←
      if ← isNext [.value, .flowEntry, .flowSequenceEnd] then
        skip
        pure (.empty .none)
      else readNode handles false false fuel
    let value ←
      if ← take .value then
        readNodeUnless handles false false [.flowEntry, .flowSequenceEnd] fuel
      else pure (.empty .none)
    return (key, value)

/-- The entries of a flow mapping. -/
def readFlowEntries (handles : List (String × String)) (first : Bool) :
    Nat → Assembler (List (Node × Node))
  | 0 => failure
  | fuel + 1 => do
    if ← take .flowMappingEnd then return []
    else if ← takeUnless first .flowEntry then
      if ← take .flowMappingEnd then return []
      else if ← take .key then
        let key ←
          readNodeUnless handles false false [.value, .flowEntry, .flowMappingEnd] fuel
        let value ←
          if ← take .value then
            readNodeUnless handles false false [.flowEntry, .flowMappingEnd] fuel
          else pure (.empty .none)
        return (key, value) :: (← readFlowEntries handles false fuel)
      else
        let key ← readNode handles false false fuel
        return (key, .empty .none) :: (← readFlowEntries handles false fuel)
    else failure

end

/-- The directives before a document: whether a version was given, and the tag handles. A handle is
given once, and only the versions 1.1 and 1.2 are known. -/
def readDirectives (versioned : Bool) (handles : List (String × String)) :
    List Token → Option (List (String × String) × List Token)
  | .version major minor :: rest =>
    if versioned || major != 1 || (minor != 1 && minor != 2) then none
    else readDirectives true handles rest
  | .tagHandle handle start :: rest =>
    if (handles.lookup handle).isSome then none
    else readDirectives versioned ((handle, start) :: handles) rest
  | rest => some (handles, rest)

/-- The tag handles that need no directive. -/
def standardHandles : List (String × String) :=
  [("!", "!"), ("!!", "tag:yaml.org,2002:")]

/-- Whether a token can stand before a document. -/
def isDocumentOpening : Option Token → Bool
  | some (.version _ _) => true
  | some (.tagHandle _ _) => true
  | some .documentStart => true
  | _ => false

/-- The root of a document that is not empty text. -/
def readRoot (fuel : Nat) : Assembler Node := do
  if isDocumentOpening (← peek) then
    match readDirectives false [] (← get).tokens with
    | none => failure
    | some (handles, rest) =>
      modify fun assembly => { assembly with tokens := rest }
      if ← take .documentStart then
        let next ← peek
        if isDocumentOpening next || next = some .documentEnd || next = none then
          return .empty .none
        else readNode (handles ++ standardHandles) true false fuel
      else failure
  else readNode standardHandles true false fuel

end Assembler

/-- Read a text: the root of its tree, or none if it holds nothing at all. A text with a second
tree is wrong. -/
def parse? (text : String) : Option (Option Node) := do
  let tokens ← tokens? text
  if tokens.isEmpty then some none
  else
    let (root, left) ← (Assembler.readRoot (4 * tokens.length + 4)).run ⟨tokens, []⟩
    if left.tokens.all (· == .documentEnd) then some (some root) else none

end PowerTest.Yaml
