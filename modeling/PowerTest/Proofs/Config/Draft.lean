import PowerTest.Config.Reading

/-!
# Drafts of configurations

A draft gives some fields of some sections. `Draft.filled` is the configuration in which all other
fields have the values of the standard configuration, and `Draft.Document` says which documents hold
a draft: each given field stands once in its section, in any order and among anything else.
-/

namespace PowerTest

/-- What a document holds, in whatever format it is written. -/
inductive Datum
  | null
  | flag (value : Bool)
  /-- A whole number of at most 64 bits. -/
  | word (value : Nat)
  | float (value : Float)
  | text (content : String)
  | list (items : List Datum)
  | object (members : List (String × Datum))
  /-- Anything at all. -/
  | other

namespace Datum

variable {α : Type}

/-- A tree that holds a value in a known shape. -/
def Is (shape : α → Datum) (value : α) (tree : Datum) : Prop := tree = shape value

/-- An object may give a value to a name: the name is missing, or stands there once. -/
inductive Gives (members : List (String × Datum)) (name : String) (holds : α → Datum → Prop) :
    Option α → Prop
  | missing (absent : ∀ member ∈ members, member.1 ≠ name) : Gives members name holds none
  | given {value : α} {tree : Datum}
    (only : members.filter (fun member => member.1 = name) = [(name, tree)])
    (held : holds value tree) : Gives members name holds (some value)

/-- A tree that is an object with members of a kind. -/
def IsObject (among : List (String × Datum) → Prop) (tree : Datum) : Prop :=
  ∃ members, tree = object members ∧ among members

/-- A list of texts. -/
def texts (contents : List String) : Datum := list (contents.map text)

/-- A list of tables. -/
def tables (tables : List Table) : Datum := list (tables.map fun table => text table.stem)

/-- A number of 32 bits. -/
def shortWord (value : UInt32) : Datum := word value.toNat

/-- A number of 64 bits. -/
def longWord (value : UInt64) : Datum := word value.toNat

/-- Something or nothing. -/
def optional (shape : α → Datum) : Option α → Datum
  | some value => shape value
  | none => null

end Datum

open Datum

/-- Some fields of the section. -/
structure GeneratorDraft where
  dir : Option String := none
  dbgen : Option String := none
  qgen : Option String := none
  scaleFactor : Option Float := none
  updateFactor : Option UInt32 := none
  refreshSet : Option UInt32 := none
  tables : Option (List Table) := none
  resources : Option (List String) := none
  queryDir : Option String := none
  transient : Option (List String) := none

namespace GeneratorDraft

/-- The section with its other fields as in the standard configuration. -/
def filled (draft : GeneratorDraft) : GeneratorConfig :=
  let standard := Config.standard.generator
  { dir := draft.dir.getD standard.dir
    dbgen := draft.dbgen.getD standard.dbgen
    qgen := draft.qgen.getD standard.qgen
    scaleFactor := draft.scaleFactor.getD standard.scaleFactor
    updateFactor := draft.updateFactor.getD standard.updateFactor
    refreshSet := draft.refreshSet.getD standard.refreshSet
    tables := draft.tables.getD standard.tables
    resources := draft.resources.getD standard.resources
    queryDir := draft.queryDir.getD standard.queryDir
    transient := draft.transient.getD standard.transient }

/-- Members of an object that give these fields. -/
structure Among (draft : GeneratorDraft) (members : List (String × Datum)) : Prop where
  dir : Gives members "dir" (Is text) draft.dir
  dbgen : Gives members "dbgen" (Is text) draft.dbgen
  qgen : Gives members "qgen" (Is text) draft.qgen
  scaleFactor : Gives members "scale_factor" (Is float) draft.scaleFactor
  updateFactor : Gives members "update_factor" (Is shortWord) draft.updateFactor
  refreshSet : Gives members "refresh_set" (Is shortWord) draft.refreshSet
  tables : Gives members "tables" (Is Datum.tables) draft.tables
  resources : Gives members "resources" (Is texts) draft.resources
  queryDir : Gives members "query_dir" (Is text) draft.queryDir
  transient : Gives members "transient" (Is texts) draft.transient

end GeneratorDraft

/-- Some fields of the section. -/
structure OutputDraft where
  dir : Option String := none
  quoteDeleteKeys : Option Bool := none

namespace OutputDraft

/-- The section with its other fields as in the standard configuration. -/
def filled (draft : OutputDraft) : OutputConfig :=
  let standard := Config.standard.output
  { dir := draft.dir.getD standard.dir
    quoteDeleteKeys := draft.quoteDeleteKeys.getD standard.quoteDeleteKeys }

/-- Members of an object that give these fields. -/
structure Among (draft : OutputDraft) (members : List (String × Datum)) : Prop where
  dir : Gives members "dir" (Is text) draft.dir
  quoteDeleteKeys : Gives members "quote_delete_keys" (Is flag) draft.quoteDeleteKeys

end OutputDraft

/-- Some fields of the section. -/
structure ClientDraft where
  command : Option (List String) := none
  logFileName : Option String := none

namespace ClientDraft

/-- The section with its other fields as in the standard configuration. -/
def filled (draft : ClientDraft) : ClientConfig :=
  let standard := Config.standard.client
  { command := draft.command.getD standard.command
    logFileName := draft.logFileName.getD standard.logFileName }

/-- Members of an object that give these fields. -/
structure Among (draft : ClientDraft) (members : List (String × Datum)) : Prop where
  command : Gives members "command" (Is texts) draft.command
  logFileName : Gives members "log_file_name" (Is text) draft.logFileName

end ClientDraft

/-- Some fields of the section. A field that can be nothing can be given as nothing. -/
structure ProcessingDraft where
  processTimeoutSecs : Option (Option UInt64) := none
  workerThreads : Option (Option UInt64) := none
  metricsOutputPath : Option (Option String) := none

namespace ProcessingDraft

/-- The section with its other fields as in the standard configuration. -/
def filled (draft : ProcessingDraft) : ProcessingConfig :=
  let standard := Config.standard.processing
  { processTimeoutSecs := draft.processTimeoutSecs.getD standard.processTimeoutSecs
    workerThreads := draft.workerThreads.getD standard.workerThreads
    metricsOutputPath := draft.metricsOutputPath.getD standard.metricsOutputPath }

/-- Members of an object that give these fields. -/
structure Among (draft : ProcessingDraft) (members : List (String × Datum)) : Prop where
  processTimeoutSecs :
    Gives members "process_timeout_secs" (Is (optional longWord)) draft.processTimeoutSecs
  workerThreads : Gives members "worker_threads" (Is (optional longWord)) draft.workerThreads
  metricsOutputPath :
    Gives members "metrics_output_path" (Is (optional text)) draft.metricsOutputPath

end ProcessingDraft

/-- Some sections, each with some of its fields. -/
structure Draft where
  generator : Option GeneratorDraft := none
  output : Option OutputDraft := none
  client : Option ClientDraft := none
  processing : Option ProcessingDraft := none

namespace Draft

/-- The configuration with all that is not given as in the standard one. -/
def filled (draft : Draft) : Config where
  generator := (draft.generator.getD {}).filled
  output := (draft.output.getD {}).filled
  client := (draft.client.getD {}).filled
  processing := (draft.processing.getD {}).filled

/-- Members of an object that give these sections. -/
structure Among (draft : Draft) (members : List (String × Datum)) : Prop where
  generator : Gives members "generator" (fun part tree => tree.IsObject part.Among)
    draft.generator
  output : Gives members "output" (fun part tree => tree.IsObject part.Among) draft.output
  client : Gives members "client" (fun part tree => tree.IsObject part.Among) draft.client
  processing : Gives members "processing" (fun part tree => tree.IsObject part.Among)
    draft.processing

/-- A document that gives these sections. -/
def Document (draft : Draft) (tree : Datum) : Prop := tree.IsObject draft.Among

end Draft

end PowerTest
