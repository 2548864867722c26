import PowerTest.Config.Reading
import PowerTest.Yaml.Meaning
import PowerTest.Yaml.Node

/-!
# Configurations in YAML

An alias stands for the node it refers to. Numbers and truth values are written plainly, or as
literal block scalars with the tag of their kind; every scalar stands for a text.
-/

namespace PowerTest

namespace Yaml

/-- The tag of a kind of scalar. -/
def coreTag (kind : String) : String := "tag:yaml.org,2002:" ++ kind

/-- The nodes with anchors in a tree, the last one first. -/
abbrev Anchors := List (Nat × Node)

/-- The node that a node stands for. No alias has an anchor, so an alias leads to no other one. -/
def follow? (anchors : Anchors) : Node → Option Node
  | .reference number => anchors.lookup number
  | node => some node

/-- The text of a scalar of a kind other than text. -/
def content? (kind : String) : Node → Option String
  | .scalar _ .plain text => some text
  | .scalar properties .literal text =>
    if properties.tag = some (coreTag kind) then some text else none
  | _ => none

/-- Whether a scalar without a tag stands for nothing. -/
def isVoid (style : Style) (text : String) : Bool :=
  style == .plain && (isNull text || text.isEmpty)

/-- The name that a tag of the text's own gives. -/
def ownTag? (tag : Option String) : Option String :=
  tag.bind fun tag =>
    match tag.toList with
    | '!' :: name => some (String.ofList name)
    | _ => none

/-- A table is named by a scalar, or by the tag of an empty one. -/
def table? : Node → Option Table
  | .scalar properties style text =>
    match ownTag? properties.tag with
    | some name => if isVoid style text then Table.ofStem? name else none
    | none => Table.ofStem? text
  | _ => none

/-- What an optional field holds. A tag makes something of a scalar, except for the tag of
nothing, which asks for a word for nothing. -/
def present? (node : Node) : Option (Option Node) :=
  match node with
  | .scalar ⟨_, tag⟩ .plain text =>
    match tag with
    | none => some (if isVoid .plain text then none else some node)
    | some tag =>
      if tag = coreTag "null" then (if isNull text then some none else none) else some (some node)
  | _ => some (some node)

/-- The items of a sequence; an empty plain scalar counts as one without items. -/
def items? : Node → Option (List Node)
  | .sequence _ items => some items
  | .scalar _ .plain "" => some []
  | _ => none

/-- Entries whose keys are all scalars. -/
def named? (anchors : Anchors) : List (Node × Node) → Option (List (String × Node))
  | [] => some []
  | (key, value) :: rest =>
    match follow? anchors key with
    | some (.scalar _ _ name) => (named? anchors rest).map ((name, value) :: ·)
    | _ => none

/-- The fields of a mapping; an empty plain scalar counts as one without entries. -/
def fields? (anchors : Anchors) (names : List String) : Node → Option (List (String × Node))
  | .mapping _ entries => (named? anchors entries).bind (Format.known? names)
  | .scalar _ .plain "" => some []
  | _ => none

/-- What nodes stand for in a configuration. -/
def format (anchors : Anchors) : Format Node where
  text? node :=
    match follow? anchors node with
    | some (.scalar _ _ text) => some text
    | _ => none
  float? node := ((follow? anchors node).bind (content? "float")).bind float?
  word? node := ((follow? anchors node).bind (content? "int")).bind (natural? (2 ^ 64))
  flag? node := ((follow? anchors node).bind (content? "bool")).bind flag?
  table? node := (follow? anchors node).bind table?
  items? node := (follow? anchors node).bind items?
  present? node := (follow? anchors node).bind present?
  fields? names node := (follow? anchors node).bind (fields? anchors names)

end Yaml

/-- Read a configuration from a YAML text. A text that holds nothing says nothing. -/
def Config.ofYaml? (text : String) : Option Config :=
  match Yaml.parse? text with
  | none => none
  | some none => some .standard
  | some (some root) => Config.read? (Yaml.format root.anchored.reverse) root

end PowerTest
