import PowerTest.Config.ToYaml
import PowerTest.Proofs.Config.Spelling
import PowerTest.Proofs.Number.Rendering
import PowerTest.Proofs.Yaml.Assembly

/-!
# Configurations that are written

A configuration is written with all its fields, and each field so that it stands for its value
again: `Config.means_entries` says that what is written means the configuration, and
`Config.written_entries` that the document is read as what was written. So a configuration is read
from its own text, as `Config.documents_kept` states beside what it states of all documents.
-/

namespace PowerTest

namespace Yaml

/-- An entry whose node spells a tree. -/
def Entry.Means (entry : Entry) (tree : Datum) : Prop :=
  ∀ anchors, Spells anchors tree entry.node

/-- A text that would be a word for nothing is not written plainly. -/
theorem isVoid_styleOf (content : String) : isVoid (styleOf content) content = false := by
  rw [isVoid]
  cases styled content with
  | plain style _ meaning =>
    simp only [hasOtherMeaning, Bool.or_eq_false_iff] at meaning
    rw [meaning.1.1.1.1.1.1, meaning.1.1.1.1.1.2, Bool.or_self, Bool.and_false]
  | single style _ => rw [style, beq_false_of_ne (by decide), Bool.false_and]
  | double style => rw [style, beq_false_of_ne (by decide), Bool.false_and]
  | literal style _ _ => rw [style, beq_false_of_ne (by decide), Bool.false_and]

/-! ## What is written without quotes -/

/-- Digits have no sign, no base and no leading zeros. -/
theorem plain_toDigits (number : Nat) :
    (∀ rest, Nat.toDigits 10 number ≠ '+' :: rest) ∧
      isPadded (Nat.toDigits 10 number) = false ∧ basedNumber? (Nat.toDigits 10 number) = none := by
  have digits := Text.all_isDigit_toDigits number
  cases written : Nat.toDigits 10 number with
  | nil => exact absurd written Nat.toDigits_ne_nil
  | cons first rest =>
    rw [written, List.all_cons, Bool.and_eq_true] at digits
    have plus : first ≠ '+' := by
      rintro rfl
      exact absurd digits.1 (by decide)
    refine ⟨fun other same => plus (List.cons.inj same).1, ?_, ?_⟩
    · have unsigned : Number.leadingSign (first :: rest) = (false, first :: rest) :=
        Number.leadingSign_of_isDigit digits.1
      by_cases zero : first = '0'
      · subst zero
        rw [Text.toDigits_eq_zero_of_head written]
        rfl
      · simp only [isPadded, unsigned]
        split
        · rename_i same
          exact absurd (List.cons.inj same).1 zero
        · rfl
    · by_cases zero : first = '0'
      · subst zero
        rw [Text.toDigits_eq_zero_of_head written]
        rfl
      · unfold basedNumber?
        split
        all_goals first
          | rfl
          | rename_i same
            exact absurd (List.cons.inj same).1 zero

theorem natural?_decimal {number limit : Nat} (small : number < limit) :
    natural? limit (Text.decimal number) = some number := by
  obtain ⟨unsigned, unpadded, unbased⟩ := plain_toDigits number
  simp only [natural?, Text.decimal, String.toList_ofList, magnitude?, unbased, unpadded,
    below?, Option.bind_none, Bool.false_eq_true, if_false, Text.ofDigits?_toDigits,
    Option.bind_some, small, if_true]

theorem solid_of_isDigit {character : Char} (digit : Text.isDigit character = true) :
    Solid character := by
  have name : isNameCharacter character = true := by
    rw [Text.isDigit] at digit
    simp only [isNameCharacter, digit, Bool.true_or]
  exact .inl name

theorem isPlain_decimal (number : Nat) : IsPlain (Text.decimal number).toList := by
  have digits := Text.all_isDigit_toDigits number
  rw [Text.decimal, String.toList_ofList]
  cases written : Nat.toDigits 10 number with
  | nil => exact absurd written Nat.toDigits_ne_nil
  | cons first rest =>
    rw [written] at digits
    have each := List.all_eq_true.mp digits
    refine isPlain_of_solid (fun character member => solid_of_isDigit (each character member)) ?_
    rintro rfl
    exact absurd (each '-' List.mem_cons_self) (by decide)

theorem isPlain_numeral {text : List Char} {decimal : Number.Decimal}
    (numeral : Number.Numeral text decimal) (negative : Bool) :
    IsPlain ((if negative then ['-'] else []) ++ text) := by
  obtain ⟨first, rest, rfl, digit⟩ := numeral.starts
  have solid : ∀ character ∈ first :: rest, Solid character := by
    intro character member
    rcases numeral.numeric character member with digit | rfl | rfl | rfl
    · exact solid_of_isDigit digit
    · exact .inr rfl
    · exact .inl rfl
    · exact .inl rfl
  cases negative with
  | true =>
    exact isPlain_of_solid (List.forall_mem_cons.mpr ⟨.inl rfl, solid⟩)
      fun _ => List.cons_ne_nil _ _
  | false =>
    refine isPlain_of_solid solid ?_
    rintro rfl
    exact absurd digit (by decide)

theorem isPlain_render {value : Float} (number : value.isNaN = false) :
    IsPlain (layout.render value).toList := by
  cases exact : Number.magnitude? value with
  | some magnitude =>
    rw [toList_render exact]
    exact isPlain_numeral (Number.numeral_decimalText layout rfl rfl _) _
  | none =>
    rw [Number.Layout.render, exact]
    simp only [number, Bool.false_eq_true, if_false]
    split <;> exact isPlain_of_allowPlain (by decide) (by decide)

theorem isPlain_flag (value : Bool) : IsPlain (if value then "true" else "false").toList := by
  cases value <;> exact isPlain_of_allowPlain (by decide) (by decide)

namespace Entry

variable {number limit : Nat} {α : Type}

theorem means_natural (small : number < 2 ^ 64) : (Yaml.natural number).Means (.word number) :=
  fun _ => .word rfl (natural?_decimal small)

theorem means_shortWord (word : UInt32) : (Yaml.natural word.toNat).Means (Datum.shortWord word) :=
  means_natural (Nat.lt_trans word.toNat_lt (by decide))

theorem means_longWord (word : UInt64) : (Yaml.natural word.toNat).Means (Datum.longWord word) :=
  means_natural word.toNat_lt

theorem means_flag (value : Bool) :
    (Entry.plain (if value then "true" else "false")).Means (.flag value) := by
  intro anchors
  cases value with
  | true => exact .flag rfl (by decide)
  | false => exact .flag rfl (by decide)

theorem means_float {value : Float} (number : value.isNaN = false) :
    (Entry.plain (layout.render value)).Means (.float value) :=
  fun _ => .float rfl (float?_render number)

theorem spells_textNode (anchors : Anchors) (content : String) :
    Spells anchors (.text content) (textNode content) :=
  .text rfl (isVoid_styleOf content)

theorem means_text (content : String) : (Entry.text content).Means (.text content) :=
  fun anchors => spells_textNode anchors content

theorem means_texts (contents : List String) :
    (Entry.texts contents).Means (Datum.texts contents) := by
  intro anchors
  refine .list rfl ?_
  rw [List.forall₂_map_left_iff, List.forall₂_map_right_iff, List.forall₂_same]
  exact fun content _ => spells_textNode anchors content

theorem means_tables (tables : List Table) :
    (Entry.texts (tables.map Table.stem)).Means (Datum.tables tables) := by
  have means := means_texts (tables.map Table.stem)
  simp only [Datum.texts, List.map_map] at means
  exact means

theorem means_optional {entry : α → Entry} {shape : α → Datum}
    (means : ∀ value, (entry value).Means (shape value)) (given : Option α) :
    (Yaml.optional entry given).Means (Datum.optional shape given) := by
  cases given with
  | some value => exact means value
  | none => exact fun _ => .null rfl (by decide)

theorem written_natural (number : Nat) : (Yaml.natural number).Written := isPlain_decimal number

theorem written_text (content : String) : (Entry.text content).Written := trivial

theorem written_optional {entry : α → Entry} (written : ∀ value, (entry value).Written)
    (given : Option α) : (Yaml.optional entry given).Written := by
  cases given with
  | some value => exact written value
  | none =>
    have plain : IsPlain "null".toList := isPlain_of_allowPlain (by decide) (by decide)
    exact plain

/-- Entries mean an object if each means the member at its place. -/
theorem means_nested {entries : List (String × Entry)} {members : List (String × Datum)}
    (each : List.Forall₂ (fun entry member => entry.1 = member.1 ∧ Means entry.2 member.2)
      entries members) : (Entry.nested entries).Means (.object members) := by
  intro anchors
  have both : List.Forall₂ (IsKey anchors) (members.map Prod.fst)
        ((entryNodes entries).map Prod.fst) ∧
      List.Forall₂ (Spells anchors) (members.map Prod.snd)
        ((entryNodes entries).map Prod.snd) := by
    induction each with
    | nil => exact ⟨.nil, .nil⟩
    | @cons entry member entries members first _ ih =>
      obtain ⟨key, content⟩ := entry
      obtain ⟨rfl, means⟩ := first
      exact ⟨.cons ⟨.none, .plain, rfl⟩ ih.1, .cons (means anchors) ih.2⟩
  exact .object rfl both.1 both.2

end Entry

end Yaml

/-! ## Configurations -/

open Datum

/-- The section as a tree that gives every field. -/
def GeneratorConfig.tree (generator : GeneratorConfig) : Datum :=
  object
    [("dir", text generator.dir),
     ("dbgen", text generator.dbgen),
     ("qgen", text generator.qgen),
     ("scale_factor", float generator.scaleFactor),
     ("update_factor", shortWord generator.updateFactor),
     ("refresh_set", shortWord generator.refreshSet),
     ("tables", Datum.tables generator.tables),
     ("resources", texts generator.resources),
     ("query_dir", text generator.queryDir),
     ("transient", texts generator.transient)]

/-- The section as a tree that gives every field. -/
def OutputConfig.tree (output : OutputConfig) : Datum :=
  object [("dir", text output.dir), ("quote_delete_keys", flag output.quoteDeleteKeys)]

/-- The section as a tree that gives every field. -/
def ClientConfig.tree (client : ClientConfig) : Datum :=
  object [("command", texts client.command), ("log_file_name", text client.logFileName)]

/-- The section as a tree that gives every field. -/
def ProcessingConfig.tree (processing : ProcessingConfig) : Datum :=
  object
    [("process_timeout_secs", optional longWord processing.processTimeoutSecs),
     ("worker_threads", optional longWord processing.workerThreads),
     ("metrics_output_path", optional text processing.metricsOutputPath)]

namespace Config

/-- The configuration as a tree that gives every field. -/
def tree (config : Config) : Datum :=
  object
    [("generator", config.generator.tree),
     ("output", config.output.tree),
     ("client", config.client.tree),
     ("processing", config.processing.tree)]

/-- What is written of a configuration. -/
def entries (config : Config) : List (String × Yaml.Entry) :=
  [("generator", .nested config.generator.entries),
   ("output", .nested config.output.entries),
   ("client", .nested config.client.entries),
   ("processing", .nested config.processing.entries)]

/-- The draft that gives every field of a configuration. -/
def draft (config : Config) : Draft where
  generator := some
    { dir := some config.generator.dir
      dbgen := some config.generator.dbgen
      qgen := some config.generator.qgen
      scaleFactor := some config.generator.scaleFactor
      updateFactor := some config.generator.updateFactor
      refreshSet := some config.generator.refreshSet
      tables := some config.generator.tables
      resources := some config.generator.resources
      queryDir := some config.generator.queryDir
      transient := some config.generator.transient }
  output := some
    { dir := some config.output.dir
      quoteDeleteKeys := some config.output.quoteDeleteKeys }
  client := some
    { command := some config.client.command
      logFileName := some config.client.logFileName }
  processing := some
    { processTimeoutSecs := some config.processing.processTimeoutSecs
      workerThreads := some config.processing.workerThreads
      metricsOutputPath := some config.processing.metricsOutputPath }

theorem filled_draft (config : Config) : config.draft.filled = config := rfl

theorem document_draft (config : Config) : config.draft.Document config.tree := by
  refine ⟨_, rfl, ?_, ?_, ?_, ?_⟩
  · exact .given rfl ⟨_, rfl, .given rfl rfl, .given rfl rfl, .given rfl rfl, .given rfl rfl,
      .given rfl rfl, .given rfl rfl, .given rfl rfl, .given rfl rfl, .given rfl rfl,
      .given rfl rfl⟩
  · exact .given rfl ⟨_, rfl, .given rfl rfl, .given rfl rfl⟩
  · exact .given rfl ⟨_, rfl, .given rfl rfl, .given rfl rfl⟩
  · exact .given rfl ⟨_, rfl, .given rfl rfl, .given rfl rfl, .given rfl rfl⟩

variable {config : Config}

open Yaml.Entry

/-- What is written of a configuration means all its fields, if its scale factor is a number. -/
theorem means_entries (number : config.generator.scaleFactor.isNaN = false) :
    (Yaml.Entry.nested config.entries).Means config.tree := by
  refine means_nested (.cons ⟨rfl, ?_⟩ (.cons ⟨rfl, ?_⟩ (.cons ⟨rfl, ?_⟩ (.cons ⟨rfl, ?_⟩ .nil))))
  · exact means_nested (.cons ⟨rfl, means_text _⟩ (.cons ⟨rfl, means_text _⟩
      (.cons ⟨rfl, means_text _⟩ (.cons ⟨rfl, means_float number⟩ (.cons ⟨rfl, means_shortWord _⟩
      (.cons ⟨rfl, means_shortWord _⟩ (.cons ⟨rfl, means_tables _⟩ (.cons ⟨rfl, means_texts _⟩
      (.cons ⟨rfl, means_text _⟩ (.cons ⟨rfl, means_texts _⟩ .nil))))))))))
  · exact means_nested (.cons ⟨rfl, means_text _⟩ (.cons ⟨rfl, means_flag _⟩ .nil))
  · exact means_nested (.cons ⟨rfl, means_texts _⟩ (.cons ⟨rfl, means_text _⟩ .nil))
  · exact means_nested (.cons ⟨rfl, means_optional means_longWord _⟩
      (.cons ⟨rfl, means_optional means_longWord _⟩
      (.cons ⟨rfl, means_optional means_text _⟩ .nil)))

open Yaml

theorem written_generator {generator : GeneratorConfig}
    (number : generator.scaleFactor.isNaN = false) : EntriesWritten generator.entries :=
  ⟨by decide +kernel, trivial, by decide +kernel, trivial, by decide +kernel, trivial,
    by decide +kernel, isPlain_render number, by decide +kernel, isPlain_decimal _,
    by decide +kernel, isPlain_decimal _, by decide +kernel, trivial, by decide +kernel, trivial,
    by decide +kernel, trivial, by decide +kernel, trivial, trivial⟩

theorem written_output (output : OutputConfig) : EntriesWritten output.entries :=
  ⟨by decide +kernel, trivial, by decide +kernel, isPlain_flag _, trivial⟩

theorem written_client (client : ClientConfig) : EntriesWritten client.entries :=
  ⟨by decide +kernel, trivial, by decide +kernel, trivial, trivial⟩

theorem written_processing (processing : ProcessingConfig) :
    EntriesWritten processing.entries := by
  refine ⟨by decide +kernel, written_optional ?_ _, by decide +kernel, written_optional ?_ _,
    by decide +kernel, written_optional ?_ _, trivial⟩
  · intro seconds
    exact written_natural _
  · intro threads
    exact written_natural _
  · exact written_text

/-- Everything in a configuration can be written without losing it, if its scale factor is a
number. -/
theorem written_entries (number : config.generator.scaleFactor.isNaN = false) :
    EntriesWritten config.entries :=
  ⟨by decide +kernel, written_generator number, by decide +kernel, written_output _,
    by decide +kernel, written_client _, by decide +kernel, written_processing _, trivial⟩

theorem ofYaml?_toYaml (number : config.generator.scaleFactor.isNaN = false) :
    Config.ofYaml? config.toYaml = some config := by
  have parsed := parse?_document (written_entries number) (List.cons_ne_nil _ _)
  have read := (read_document config.document_draft).2 config.toYaml _ parsed
    (means_entries number _)
  rwa [filled_draft] at read

/-- Reading fills exactly the gaps of a document, and writing loses nothing. -/
theorem documents_kept :
    (∀ (draft : Draft) (tree : Datum), draft.Document tree →
      (∀ text json, Json.parse? text = some json → Json.Spells tree json →
        Config.ofJson? text = some draft.filled) ∧
      ∀ text root, Yaml.parse? text = some (some root) →
        Yaml.Spells root.anchored.reverse tree root → Config.ofYaml? text = some draft.filled) ∧
    ∀ config : Config, config.generator.scaleFactor.isNaN = false →
      Config.ofYaml? config.toYaml = some config :=
  ⟨fun _ _ document => read_document document, fun _ number => ofYaml?_toYaml number⟩

/-- Only a section that gives nothing. -/
def emptySection : Draft := { generator := some {} }

theorem document_emptySection : emptySection.Document (object [("generator", object [])]) := by
  have absent {α : Type} (name : String) (holds : α → Datum → Prop) :
      Gives [] name holds none := .missing (List.forall_mem_nil _)
  refine ⟨_, rfl, .given rfl ⟨_, rfl, ?_⟩, ?_, ?_, ?_⟩
  · exact ⟨absent _ _, absent _ _, absent _ _, absent _ _, absent _ _, absent _ _, absent _ _,
      absent _ _, absent _ _, absent _ _⟩
  · exact .missing (by simp)
  · exact .missing (by simp)
  · exact .missing (by simp)

/-- Whether a JSON text was read as such a section. -/
def isEmptySection : Option Json → Bool
  | some (.object [(some "generator", .object [])]) => true
  | _ => false

theorem eq_of_isEmptySection {read : Option Json} (empty : isEmptySection read = true) :
    read = some (.object [(some "generator", .object [])]) := by
  unfold isEmptySection at empty
  split at empty
  · rfl
  · cases empty

theorem documents_kept_standard :
    Config.ofJson? "\x7b\"generator\":\x7b\x7d\x7d" = some .standard ∧
      Config.ofYaml? (Yaml.document [("generator", .nested [])]) = some .standard ∧
      Config.ofYaml? Config.standard.toYaml = some .standard := by
  have given := documents_kept.1 emptySection _ document_emptySection
  have json := eq_of_isEmptySection
    (show isEmptySection (Json.parse? "\x7b\"generator\":\x7b\x7d\x7d") = true by decide +kernel)
  have written : EntriesWritten [("generator", .nested [])] := ⟨by decide +kernel, trivial, trivial⟩
  have yaml := parse?_document written (List.cons_ne_nil _ _)
  refine ⟨given.1 _ _ json ?_, given.2 _ _ yaml ?_, documents_kept.2 .standard (by decide)⟩
  · exact .object (.cons rfl .nil) (.cons (.object .nil .nil) .nil)
  · exact means_nested (.cons ⟨rfl, means_nested .nil⟩ .nil) _

end Config

end PowerTest
