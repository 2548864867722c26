import Mathlib.Data.List.Forall2
import PowerTest.Proofs.Config.Draft

/-!
# Reading drafts

`Format.Shows` says how a format shows trees in its values. In any such format the value of a
document is read as the configuration that fills the draft in the document (`read?_of_document`):
each field on its own finds its value or takes the standard one, whatever else the document holds.
-/

namespace PowerTest

open Datum

variable {Value α β : Type}

/-- How the values of a format show trees. -/
structure Format.Shows (format : Format Value) (shows : Datum → Value → Prop) : Prop where
  text : ∀ {content value}, shows (.text content) value → format.text? value = some content
  float : ∀ {number value}, shows (.float number) value → format.float? value = some number
  word : ∀ {number value}, shows (.word number) value → format.word? value = some number
  flag : ∀ {truth value}, shows (.flag truth) value → format.flag? value = some truth
  table : ∀ {table : Table} {value}, shows (.text table.stem) value →
    format.table? value = some table
  items : ∀ {trees value}, shows (.list trees) value →
    ∃ values, format.items? value = some values ∧ List.Forall₂ shows trees values
  null : ∀ {value}, shows .null value → format.present? value = some none
  /-- What is shown is there, and is shown still if it is looked at as something optional. -/
  present : ∀ {tree value}, shows tree value →
    (∃ content, tree = .text content) ∨ (∃ number, tree = .word number) →
      ∃ held, format.present? value = some (some held) ∧ shows tree held
  fields : ∀ {members value}, shows (.object members) value →
    ∃ values, List.Forall₂ (fun member named => member.1 = named.1 ∧ shows member.2 named.2)
        members values ∧
      ∀ names, format.fields? names value = Format.known? names values

/-! ## Members with a name -/

theorem lookup_eq_head? (members : List (String × α)) (name : String) :
    members.lookup name = (members.filter fun member => member.1 = name).head?.map Prod.snd := by
  induction members with
  | nil => rfl
  | cons member rest ih =>
    obtain ⟨other, value⟩ := member
    by_cases same : other = name
    · subst same
      simp only [List.lookup_cons_self, decide_true, List.filter_cons_of_pos, List.head?_cons,
        Option.map_some]
    · have apart : (name == other) = false := beq_false_of_ne (Ne.symm same)
      simp only [List.lookup_cons, apart, ih, same, decide_false, Bool.false_eq_true,
        not_false_eq_true, List.filter_cons_of_neg]

/-- Names that stand at most once are known. -/
theorem Format.known?_of_once {names : List String} {members : List (String × α)}
    (once : ∀ name ∈ names, (members.filter fun member => member.1 = name).length ≤ 1) :
    Format.known? names members =
      some (members.filter fun member => names.contains member.1) := by
  refine if_pos (List.nodup_iff_count.mpr fun name => ?_)
  by_cases known : name ∈ names
  · refine Nat.le_trans ?_ (once name known)
    rw [List.count, List.countP_map, ← List.countP_eq_length_filter]
    exact List.filter_sublist.countP_le
  · rw [List.count_eq_zero.mpr fun member => known ?_]
    · exact Nat.zero_le 1
    obtain ⟨⟨other, value⟩, kept, rfl⟩ := List.mem_map.mp member
    exact List.elem_iff.mp (List.mem_filter.mp kept).2

namespace Datum.Gives

variable {members : List (String × Datum)} {name : String} {holds : α → Datum → Prop}
  {given : Option α}

theorem once (gives : Gives members name holds given) :
    (members.filter fun member => member.1 = name).length ≤ 1 := by
  cases gives with
  | missing absent =>
    rw [List.filter_eq_nil_iff.mpr fun member found => by simpa using absent member found]
    exact Nat.zero_le 1
  | given only held =>
    rw [only]
    exact Nat.le_refl 1

end Datum.Gives

/-! ## Fields -/

namespace Format.Shows

variable {format : Format Value} {shows : Datum → Value → Prop} {members : List (String × Datum)}
  {names : List String} {fields : List (String × Value)}

/-- Fields show the members of an object under each of some names. -/
def Finds (shows : Datum → Value → Prop) (names : List String) (members : List (String × Datum))
    (fields : List (String × Value)) : Prop :=
  ∀ name ∈ names, List.Forall₂ (fun member field => member.1 = field.1 ∧ shows member.2 field.2)
    (members.filter fun member => member.1 = name) (fields.filter fun field => field.1 = name)

/-- An object's known fields are found if each stands at most once. -/
theorem exists_finds (lawful : format.Shows shows) {value : Value}
    (shown : shows (.object members) value)
    (once : ∀ name ∈ names, (members.filter fun member => member.1 = name).length ≤ 1) :
    ∃ fields, format.fields? names value = some fields ∧ Finds shows names members fields := by
  obtain ⟨values, each, known⟩ := lawful.fields shown
  have same (name : String) :
      List.Forall₂ (fun member named => member.1 = named.1 ∧ shows member.2 named.2)
        (members.filter fun member => member.1 = name)
        (values.filter fun named => named.1 = name) :=
    List.rel_filter (fun member named same => by simp only [same.1]) each
  refine ⟨_, (known names).trans (Format.known?_of_once fun name member => ?_), ?_⟩
  · rw [← (same name).length_eq]
    exact once name member
  · intro name member
    have kept : (values.filter fun named => names.contains named.1).filter
        (fun named => named.1 = name) = values.filter fun named => named.1 = name := by
      rw [List.filter_filter]
      refine List.filter_congr fun named _ => ?_
      by_cases here : named.1 = name
      · simp only [here, decide_true, List.contains_iff_mem.mpr member, Bool.and_self]
      · simp only [here, decide_false, Bool.false_and]
    rw [kept]
    exact same name

/-- A field is read as what is made of its value, or as the standard value if the object does not
give it. -/
theorem field?_of_gives {read : Value → Option β} {make : α → β} {name : String}
    {holds : α → Datum → Prop} {given : Option α} (finds : Finds shows names members fields)
    (known : name ∈ names) (gives : Gives members name holds given)
    (reads : ∀ {content tree value}, holds content tree → shows tree value →
      read value = some (make content)) (standard : β) :
    Format.field? fields name read standard = some ((given.map make).getD standard) := by
  have same := finds name known
  rw [Format.field?, lookup_eq_head?]
  cases gives with
  | missing absent =>
    have nothing : members.filter (fun member => member.1 = name) = [] :=
      List.filter_eq_nil_iff.mpr fun member found => by simpa using absent member found
    rw [nothing, List.forall₂_nil_left_iff] at same
    rw [same]
    rfl
  | given only held =>
    rw [only, List.forall₂_cons_left_iff] at same
    obtain ⟨⟨_, value⟩, rest, ⟨_, shown⟩, _, found⟩ := same
    rw [found]
    exact reads held shown

theorem field?_of_shape {read : Value → Option α} {shape : α → Datum} {name : String}
    {given : Option α} (finds : Finds shows names members fields) (known : name ∈ names)
    (gives : Gives members name (Is shape) given)
    (reads : ∀ {content value}, shows (shape content) value → read value = some content)
    (standard : α) : Format.field? fields name read standard = some (given.getD standard) := by
  have readsTree : ∀ {content tree value}, Is shape content tree → shows tree value →
      read value = some (id content) := by
    rintro content _ value rfl shown
    exact reads shown
  rw [field?_of_gives finds known gives readsTree standard, Option.map_id_apply]

section Values

variable (lawful : format.Shows shows) {value : Value}

include lawful

theorem list?_of_shows {read : Value → Option α} {shape : α → Datum} {contents : List α}
    (reads : ∀ {content value}, shows (shape content) value → read value = some content)
    (shown : shows (.list (contents.map shape)) value) :
    format.list? read value = some contents := by
  obtain ⟨values, items, each⟩ := lawful.items shown
  rw [Format.list?, items, Option.bind_some]
  clear items shown
  induction contents generalizing values with
  | nil =>
    rw [List.map_nil, List.forall₂_nil_left_iff] at each
    rw [each, Format.readAll]
  | cons content rest ih =>
    rw [List.map_cons, List.forall₂_cons_left_iff] at each
    obtain ⟨first, others, shown, each, rfl⟩ := each
    rw [Format.readAll, reads shown, ih others each]
    rfl

theorem texts?_of_shows {contents : List String} (shown : shows (Datum.texts contents) value) :
    format.texts? value = some contents :=
  lawful.list?_of_shows lawful.text shown

theorem tables?_of_shows {tables : List Table} (shown : shows (Datum.tables tables) value) :
    format.list? format.table? value = some tables :=
  lawful.list?_of_shows lawful.table shown

theorem shortWord?_of_shows {number : UInt32} (shown : shows (Datum.shortWord number) value) :
    format.shortWord? value = some number := by
  rw [Format.shortWord?, lawful.word shown, Option.bind_some, if_pos number.toNat_lt,
    UInt32.ofNat_toNat]

theorem longWord?_of_shows {number : UInt64} (shown : shows (Datum.longWord number) value) :
    format.longWord? value = some number := by
  rw [Format.longWord?, lawful.word shown, Option.map_some, UInt64.ofNat_toNat]

theorem optional?_of_shows {read : Value → Option α} {shape : α → Datum} {given : Option α}
    (reads : ∀ {content value}, shows (shape content) value → read value = some content)
    (simple : ∀ content, (∃ text, shape content = .text text) ∨
      ∃ number, shape content = .word number)
    (shown : shows (Datum.optional shape given) value) :
    format.optional? read value = some given := by
  cases given with
  | none => simp only [Format.optional?, lawful.null shown]
  | some content =>
    obtain ⟨held, present, again⟩ := lawful.present shown (simple content)
    simp only [Format.optional?, present, reads again, Option.map_some]

/-! ## Sections -/

theorem readGenerator_of_shows {draft : GeneratorDraft} {tree : Datum}
    (document : tree.IsObject draft.Among) (shown : shows tree value) :
    GeneratorConfig.read? format value = some draft.filled := by
  obtain ⟨members, rfl, among⟩ := document
  have once : ∀ name ∈ GeneratorConfig.fieldNames,
      (members.filter fun member => member.1 = name).length ≤ 1 := by
    simp only [GeneratorConfig.fieldNames, List.forall_mem_cons]
    exact ⟨among.dir.once, among.dbgen.once, among.qgen.once, among.scaleFactor.once,
      among.updateFactor.once, among.refreshSet.once, among.tables.once, among.resources.once,
      among.queryDir.once, among.transient.once, List.forall_mem_nil _⟩
  obtain ⟨fields, known, finds⟩ := lawful.exists_finds shown once
  simp only [GeneratorConfig.read?, known, Option.bind_eq_bind, Option.bind_some,
    field?_of_shape finds (by decide) among.dir lawful.text,
    field?_of_shape finds (by decide) among.dbgen lawful.text,
    field?_of_shape finds (by decide) among.qgen lawful.text,
    field?_of_shape finds (by decide) among.scaleFactor lawful.float,
    field?_of_shape finds (by decide) among.updateFactor lawful.shortWord?_of_shows,
    field?_of_shape finds (by decide) among.refreshSet lawful.shortWord?_of_shows,
    field?_of_shape finds (by decide) among.tables lawful.tables?_of_shows,
    field?_of_shape finds (by decide) among.resources lawful.texts?_of_shows,
    field?_of_shape finds (by decide) among.queryDir lawful.text,
    field?_of_shape finds (by decide) among.transient lawful.texts?_of_shows]
  rfl

theorem readOutput_of_shows {draft : OutputDraft} {tree : Datum}
    (document : tree.IsObject draft.Among) (shown : shows tree value) :
    OutputConfig.read? format value = some draft.filled := by
  obtain ⟨members, rfl, among⟩ := document
  have once : ∀ name ∈ OutputConfig.fieldNames,
      (members.filter fun member => member.1 = name).length ≤ 1 := by
    simp only [OutputConfig.fieldNames, List.forall_mem_cons]
    exact ⟨among.dir.once, among.quoteDeleteKeys.once, List.forall_mem_nil _⟩
  obtain ⟨fields, known, finds⟩ := lawful.exists_finds shown once
  simp only [OutputConfig.read?, known, Option.bind_eq_bind, Option.bind_some,
    field?_of_shape finds (by decide) among.dir lawful.text,
    field?_of_shape finds (by decide) among.quoteDeleteKeys lawful.flag]
  rfl

theorem readClient_of_shows {draft : ClientDraft} {tree : Datum}
    (document : tree.IsObject draft.Among) (shown : shows tree value) :
    ClientConfig.read? format value = some draft.filled := by
  obtain ⟨members, rfl, among⟩ := document
  have once : ∀ name ∈ ClientConfig.fieldNames,
      (members.filter fun member => member.1 = name).length ≤ 1 := by
    simp only [ClientConfig.fieldNames, List.forall_mem_cons]
    exact ⟨among.command.once, among.logFileName.once, List.forall_mem_nil _⟩
  obtain ⟨fields, known, finds⟩ := lawful.exists_finds shown once
  simp only [ClientConfig.read?, known, Option.bind_eq_bind, Option.bind_some,
    field?_of_shape finds (by decide) among.command lawful.texts?_of_shows,
    field?_of_shape finds (by decide) among.logFileName lawful.text]
  rfl

theorem readProcessing_of_shows {draft : ProcessingDraft} {tree : Datum}
    (document : tree.IsObject draft.Among) (shown : shows tree value) :
    ProcessingConfig.read? format value = some draft.filled := by
  obtain ⟨members, rfl, among⟩ := document
  have once : ∀ name ∈ ProcessingConfig.fieldNames,
      (members.filter fun member => member.1 = name).length ≤ 1 := by
    simp only [ProcessingConfig.fieldNames, List.forall_mem_cons]
    exact ⟨among.processTimeoutSecs.once, among.workerThreads.once, among.metricsOutputPath.once,
      List.forall_mem_nil _⟩
  obtain ⟨fields, known, finds⟩ := lawful.exists_finds shown once
  have word {content : Option UInt64} {value : Value}
      (shown : shows (Datum.optional Datum.longWord content) value) :
      format.optional? format.longWord? value = some content :=
    lawful.optional?_of_shows lawful.longWord?_of_shows (fun _ => .inr ⟨_, rfl⟩) shown
  have path {content : Option String} {value : Value}
      (shown : shows (Datum.optional Datum.text content) value) :
      format.optional? format.text? value = some content :=
    lawful.optional?_of_shows lawful.text (fun _ => .inl ⟨_, rfl⟩) shown
  simp only [ProcessingConfig.read?, known, Option.bind_eq_bind, Option.bind_some,
    field?_of_shape finds (by decide) among.processTimeoutSecs word,
    field?_of_shape finds (by decide) among.workerThreads word,
    field?_of_shape finds (by decide) among.metricsOutputPath path]
  rfl

/-- A document is read as the configuration that fills its draft. -/
theorem read?_of_document {draft : Draft} {tree : Datum} (document : draft.Document tree)
    (shown : shows tree value) : Config.read? format value = some draft.filled := by
  obtain ⟨members, rfl, among⟩ := document
  have once : ∀ name ∈ Config.fieldNames,
      (members.filter fun member => member.1 = name).length ≤ 1 := by
    simp only [Config.fieldNames, List.forall_mem_cons]
    exact ⟨among.generator.once, among.output.once, among.client.once, among.processing.once,
      List.forall_mem_nil _⟩
  obtain ⟨fields, known, finds⟩ := lawful.exists_finds shown once
  simp only [Config.read?, known, Option.bind_eq_bind, Option.bind_some,
    field?_of_gives finds (by decide) among.generator lawful.readGenerator_of_shows,
    field?_of_gives finds (by decide) among.output lawful.readOutput_of_shows,
    field?_of_gives finds (by decide) among.client lawful.readClient_of_shows,
    field?_of_gives finds (by decide) among.processing lawful.readProcessing_of_shows]
  -- The section that a document leaves out is the one that gives no field.
  have generator : (draft.generator.map GeneratorDraft.filled).getD {} =
    (draft.generator.getD {}).filled := Option.getD_map GeneratorDraft.filled {} draft.generator
  have output : (draft.output.map OutputDraft.filled).getD {} = (draft.output.getD {}).filled :=
    Option.getD_map OutputDraft.filled {} draft.output
  have client : (draft.client.map ClientDraft.filled).getD {} = (draft.client.getD {}).filled :=
    Option.getD_map ClientDraft.filled {} draft.client
  have processing : (draft.processing.map ProcessingDraft.filled).getD {} =
    (draft.processing.getD {}).filled := Option.getD_map ProcessingDraft.filled {} draft.processing
  rw [generator, output, client, processing]
  rfl

end Values

end Format.Shows

end PowerTest
