import PowerTest.Config.OfJson
import PowerTest.Config.OfYaml
import PowerTest.Proofs.Config.Filling

/-!
# Documents in JSON and in YAML

`Json.Spells` and `Yaml.Spells` say which values spell a tree. A draft's document is read the same
in both formats, whatever its order and whatever else it holds: `read_document`.
-/

namespace PowerTest

open Datum

/-- Members whose names and whose values are related are related as a whole. -/
theorem forall₂_members {Key Value : Type} {names : String → Key → Prop}
    {shows : Datum → Value → Prop} {trees : List (String × Datum)} {members : List (Key × Value)}
    (keys : List.Forall₂ names (trees.map Prod.fst) (members.map Prod.fst))
    (values : List.Forall₂ shows (trees.map Prod.snd) (members.map Prod.snd)) :
    List.Forall₂ (fun tree member => names tree.1 member.1 ∧ shows tree.2 member.2)
      trees members := by
  rw [List.forall₂_map_left_iff, List.forall₂_map_right_iff] at keys values
  exact List.Forall₂.mp (fun _ _ => And.intro) keys values

/-- A JSON value spells a tree. -/
inductive Json.Spells : Datum → Json → Prop
  | null : Spells .null .null
  | flag {value : Bool} : Spells (.flag value) (.bool value)
  | word {value : Nat} {numeral : String}
    (spelled : (Numeral.ofText? numeral).bind Numeral.toWord? = some value) :
    Spells (.word value) (.number numeral)
  | float {value : Float} {numeral : String}
    (spelled : (Numeral.ofText? numeral).bind Numeral.toFloat? = some value) :
    Spells (.float value) (.number numeral)
  | text {content : String} : Spells (.text content) (.string (some content))
  | list {trees : List Datum} {items : List Json} (each : List.Forall₂ Spells trees items) :
    Spells (.list trees) (.array items)
  | object {trees : List (String × Datum)} {members : List (Option String × Json)}
    (names : List.Forall₂ (fun name key => key = some name) (trees.map Prod.fst)
      (members.map Prod.fst))
    (values : List.Forall₂ Spells (trees.map Prod.snd) (members.map Prod.snd)) :
    Spells (.object trees) (.object members)
  | other {value : Json} : Spells .other value

namespace Json

/-- Members that all have names are known by them. -/
theorem exists_named? {shows : Datum → Json → Prop} {trees : List (String × Datum)}
    {members : List (Option String × Json)}
    (each : List.Forall₂ (fun tree member => member.1 = some tree.1 ∧ shows tree.2 member.2)
      trees members) :
    ∃ named, named? members = some named ∧
      List.Forall₂ (fun tree field => tree.1 = field.1 ∧ shows tree.2 field.2) trees named := by
  induction each with
  | nil => exact ⟨[], rfl, .nil⟩
  | @cons tree member trees members first _ ih =>
    obtain ⟨named, known, same⟩ := ih
    obtain ⟨name, value⟩ := member
    obtain ⟨rfl, shown⟩ := first
    exact ⟨(tree.1, value) :: named, by rw [named?, known, Option.map_some],
      .cons ⟨rfl, shown⟩ same⟩

theorem shows_spells : Json.format.Shows Json.Spells where
  text := by
    rintro content _ ⟨⟩
    rfl
  float := by
    rintro number _ (_ | _ | _ | spelled)
    exact spelled
  word := by
    rintro number _ (_ | _ | spelled)
    exact spelled
  flag := by
    rintro truth _ ⟨⟩
    rfl
  table := by
    rintro table _ ⟨⟩
    exact Table.ofStem?_stem table
  items := by
    rintro trees _ (_ | _ | _ | _ | _ | each)
    exact ⟨_, rfl, each⟩
  null := by
    rintro _ ⟨⟩
    rfl
  present := by
    rintro _ value spells (⟨content, rfl⟩ | ⟨number, rfl⟩)
    · cases spells
      exact ⟨_, rfl, .text⟩
    · cases spells with
      | word spelled => exact ⟨_, rfl, .word spelled⟩
  fields := by
    rintro members value spells
    cases spells with
    | object names values =>
      obtain ⟨named, known, each⟩ := exists_named? (forall₂_members names values)
      exact ⟨named, each, fun names => by simp only [format, known, Option.bind_some]⟩

end Json

namespace Yaml

variable {anchors : Anchors}

/-- A node is a scalar that gives a name. -/
def IsKey (anchors : Anchors) (name : String) (node : Node) : Prop :=
  ∃ properties style, follow? anchors node = some (.scalar properties style name)

/-- A YAML node spells a tree. Scalars have no tags, and an alias spells what its anchor does. -/
inductive Spells (anchors : Anchors) : Datum → Node → Prop
  | null {node : Node} {anchor : Option Nat} {spelled : String}
    (leads : follow? anchors node = some (.scalar ⟨anchor, none⟩ .plain spelled))
    (void : isVoid .plain spelled = true) : Spells anchors .null node
  | flag {node : Node} {anchor : Option Nat} {spelled : String} {value : Bool}
    (leads : follow? anchors node = some (.scalar ⟨anchor, none⟩ .plain spelled))
    (means : flag? spelled = some value) : Spells anchors (.flag value) node
  | word {node : Node} {anchor : Option Nat} {spelled : String} {value : Nat}
    (leads : follow? anchors node = some (.scalar ⟨anchor, none⟩ .plain spelled))
    (means : natural? (2 ^ 64) spelled = some value) : Spells anchors (.word value) node
  | float {node : Node} {anchor : Option Nat} {spelled : String} {value : Float}
    (leads : follow? anchors node = some (.scalar ⟨anchor, none⟩ .plain spelled))
    (means : float? spelled = some value) : Spells anchors (.float value) node
  | text {node : Node} {anchor : Option Nat} {style : Style} {content : String}
    (leads : follow? anchors node = some (.scalar ⟨anchor, none⟩ style content))
    (means : isVoid style content = false) : Spells anchors (.text content) node
  | list {node : Node} {properties : Properties} {trees : List Datum} {items : List Node}
    (leads : follow? anchors node = some (.sequence properties items))
    (each : List.Forall₂ (Spells anchors) trees items) : Spells anchors (.list trees) node
  | object {node : Node} {properties : Properties} {trees : List (String × Datum)}
    {entries : List (Node × Node)}
    (leads : follow? anchors node = some (.mapping properties entries))
    (names : List.Forall₂ (IsKey anchors) (trees.map Prod.fst) (entries.map Prod.fst))
    (values : List.Forall₂ (Spells anchors) (trees.map Prod.snd) (entries.map Prod.snd)) :
    Spells anchors (.object trees) node
  | other {node : Node} : Spells anchors .other node

/-- Entries whose keys all give names are known by them. -/
theorem exists_named? {shows : Datum → Node → Prop} {trees : List (String × Datum)}
    {entries : List (Node × Node)}
    (each : List.Forall₂ (fun tree entry => IsKey anchors tree.1 entry.1 ∧ shows tree.2 entry.2)
      trees entries) :
    ∃ named, named? anchors entries = some named ∧
      List.Forall₂ (fun tree field => tree.1 = field.1 ∧ shows tree.2 field.2) trees named := by
  induction each with
  | nil => exact ⟨[], rfl, .nil⟩
  | @cons tree entry trees entries first _ ih =>
    obtain ⟨named, known, same⟩ := ih
    obtain ⟨key, value⟩ := entry
    obtain ⟨⟨properties, style, leads⟩, shown⟩ := first
    exact ⟨(tree.1, value) :: named, by simp only [named?, leads, known, Option.map_some],
      .cons ⟨rfl, shown⟩ same⟩

/-- A word for nothing is no number. -/
theorem isVoid_of_natural? {spelled : String} {limit value : Nat}
    (means : natural? limit spelled = some value) : isVoid .plain spelled = false := by
  refine Bool.eq_false_iff.mpr fun void => ?_
  have word : spelled ∈ ["null", "Null", "NULL", "~", ""] := by
    simpa [isVoid, isNull, or_assoc] using void
  simp only [List.mem_cons, List.not_mem_nil, or_false] at word
  rcases word with rfl | rfl | rfl | rfl | rfl <;> cases means

theorem shows_spells (anchors : Anchors) : (Yaml.format anchors).Shows (Spells anchors) where
  text := by
    rintro content node spells
    cases spells with
    | text leads means => simp only [format, leads]
  float := by
    rintro number node spells
    cases spells with
    | float leads means => simp only [format, leads, Option.bind_some, content?, means]
  word := by
    rintro number node spells
    cases spells with
    | word leads means => simp only [format, leads, Option.bind_some, content?, means]
  flag := by
    rintro truth node spells
    cases spells with
    | flag leads means => simp only [format, leads, Option.bind_some, content?, means]
  table := by
    rintro table node spells
    cases spells with
    | text leads means =>
      simp only [format, leads, Option.bind_some, table?, ownTag?, Option.bind_none,
        Table.ofStem?_stem]
  items := by
    rintro trees node spells
    cases spells with
    | list leads each => exact ⟨_, by simp only [format, leads, Option.bind_some, items?], each⟩
  null := by
    rintro node spells
    cases spells with
    | null leads void => simp only [format, leads, Option.bind_some, present?, void, if_true]
  present := by
    rintro _ node spells (⟨content, rfl⟩ | ⟨number, rfl⟩)
    · cases spells with
      | @text _ anchor style _ leads means =>
        refine ⟨.scalar ⟨anchor, none⟩ style content, ?_, .text rfl means⟩
        cases style <;> simp [format, leads, Option.bind_some, present?, means]
    · cases spells with
      | @word _ anchor spelled _ leads means =>
        refine ⟨.scalar ⟨anchor, none⟩ .plain spelled, ?_, .word rfl means⟩
        simp [format, leads, Option.bind_some, present?, isVoid_of_natural? means]
  fields := by
    rintro members node spells
    cases spells with
    | object leads names values =>
      obtain ⟨named, known, each⟩ := exists_named? (forall₂_members names values)
      exact ⟨named, each, fun names => by
        simp only [format, leads, fields?, known, Option.bind_some]⟩

end Yaml

/-- A draft's document is read as the draft filled with standard values, in both formats. -/
theorem read_document {draft : Draft} {tree : Datum} (document : draft.Document tree) :
    (∀ text json, Json.parse? text = some json → Json.Spells tree json →
      Config.ofJson? text = some draft.filled) ∧
    ∀ text root, Yaml.parse? text = some (some root) →
      Yaml.Spells root.anchored.reverse tree root → Config.ofYaml? text = some draft.filled := by
  refine ⟨fun text json parsed spells => ?_, fun text root parsed spells => ?_⟩
  · rw [Config.ofJson?, parsed, Option.bind_some]
    exact Json.shows_spells.read?_of_document document spells
  · simp only [Config.ofYaml?, parsed]
    exact (Yaml.shows_spells _).read?_of_document document spells

end PowerTest
