import PowerTest.Config.Basic

/-!
# Reading configurations

How a configuration is taken from the values of a format. A format says what its values stand for;
the fields, their names and what stands for a missing one are the same in all formats.
-/

namespace PowerTest

/-- What the values of a format stand for, if they stand for the kind of thing asked for. -/
structure Format (Value : Type) where
  text? : Value → Option String
  float? : Value → Option Float
  /-- A whole number of at most 64 bits. -/
  word? : Value → Option Nat
  flag? : Value → Option Bool
  table? : Value → Option Table
  items? : Value → Option (List Value)
  /-- What an optional field holds, which can be nothing. -/
  present? : Value → Option (Option Value)
  /-- The values of fields that have the given names. -/
  fields? : List String → Value → Option (List (String × Value))

namespace Format

variable {Value : Type} {α : Type}

/-- Read values one after another. -/
def readAll (read : Value → Option α) : List Value → Option (List α)
  | [] => some []
  | value :: rest => do
    let first ← read value
    let others ← readAll read rest
    some (first :: others)

/-- Read a list of values. -/
def list? (format : Format Value) (read : Value → Option α) (value : Value) : Option (List α) :=
  (format.items? value).bind (readAll read)

/-- Read a list of texts. -/
def texts? (format : Format Value) : Value → Option (List String) :=
  format.list? format.text?

/-- Read a value that can be nothing. -/
def optional? (format : Format Value) (read : Value → Option α) (value : Value) :
    Option (Option α) :=
  match format.present? value with
  | none => none
  | some none => some none
  | some (some content) => (read content).map some

/-- A whole number of at most 32 bits. -/
def shortWord? (format : Format Value) (value : Value) : Option UInt32 :=
  (format.word? value).bind fun word =>
    if word < 2 ^ 32 then some (UInt32.ofNat word) else none

/-- A whole number of at most 64 bits, as a machine word. -/
def longWord? (format : Format Value) (value : Value) : Option UInt64 :=
  (format.word? value).map UInt64.ofNat

/-- The members that have one of some names; a name given twice is wrong. -/
def known? (names : List String) (members : List (String × Value)) :
    Option (List (String × Value)) :=
  let known := members.filter fun (name, _) => names.contains name
  if (known.map Prod.fst).Nodup then some known else none

/-- Read a field; a missing one has its standard value. -/
def field? (fields : List (String × Value)) (name : String) (read : Value → Option α)
    (standard : α) : Option α :=
  match fields.lookup name with
  | some value => read value
  | none => some standard

end Format

variable {Value : Type}

namespace GeneratorConfig

/-- The names of the section's fields. -/
def fieldNames : List String :=
  ["dir", "dbgen", "qgen", "scale_factor", "update_factor", "refresh_set", "tables", "resources",
   "query_dir", "transient"]

/-- Read the section. -/
def read? (format : Format Value) (value : Value) : Option GeneratorConfig := do
  let standard : GeneratorConfig := {}
  let fields ← format.fields? fieldNames value
  let dir ← Format.field? fields "dir" format.text? standard.dir
  let dbgen ← Format.field? fields "dbgen" format.text? standard.dbgen
  let qgen ← Format.field? fields "qgen" format.text? standard.qgen
  let scaleFactor ← Format.field? fields "scale_factor" format.float? standard.scaleFactor
  let updateFactor ← Format.field? fields "update_factor" format.shortWord? standard.updateFactor
  let refreshSet ← Format.field? fields "refresh_set" format.shortWord? standard.refreshSet
  let tables ← Format.field? fields "tables" (format.list? format.table?) standard.tables
  let resources ← Format.field? fields "resources" format.texts? standard.resources
  let queryDir ← Format.field? fields "query_dir" format.text? standard.queryDir
  let transient ← Format.field? fields "transient" format.texts? standard.transient
  return { dir, dbgen, qgen, scaleFactor, updateFactor, refreshSet, tables, resources, queryDir,
           transient }

end GeneratorConfig

namespace OutputConfig

/-- The names of the section's fields. -/
def fieldNames : List String := ["dir", "quote_delete_keys"]

/-- Read the section. -/
def read? (format : Format Value) (value : Value) : Option OutputConfig := do
  let standard : OutputConfig := {}
  let fields ← format.fields? fieldNames value
  let dir ← Format.field? fields "dir" format.text? standard.dir
  let quoteDeleteKeys ←
    Format.field? fields "quote_delete_keys" format.flag? standard.quoteDeleteKeys
  return { dir, quoteDeleteKeys }

end OutputConfig

namespace ClientConfig

/-- The names of the section's fields. -/
def fieldNames : List String := ["command", "log_file_name"]

/-- Read the section. -/
def read? (format : Format Value) (value : Value) : Option ClientConfig := do
  let standard : ClientConfig := {}
  let fields ← format.fields? fieldNames value
  let command ← Format.field? fields "command" format.texts? standard.command
  let logFileName ← Format.field? fields "log_file_name" format.text? standard.logFileName
  return { command, logFileName }

end ClientConfig

namespace ProcessingConfig

/-- The names of the section's fields. -/
def fieldNames : List String :=
  ["process_timeout_secs", "worker_threads", "metrics_output_path"]

/-- Read the section. -/
def read? (format : Format Value) (value : Value) : Option ProcessingConfig := do
  let fields ← format.fields? fieldNames value
  let processTimeoutSecs ←
    Format.field? fields "process_timeout_secs" (format.optional? format.longWord?) none
  let workerThreads ←
    Format.field? fields "worker_threads" (format.optional? format.longWord?) none
  let metricsOutputPath ←
    Format.field? fields "metrics_output_path" (format.optional? format.text?) none
  return { processTimeoutSecs, workerThreads, metricsOutputPath }

end ProcessingConfig

namespace Config

/-- The names of the sections. -/
def fieldNames : List String := ["generator", "output", "client", "processing"]

/-- Read a configuration. Everything in it can be left out. -/
def read? (format : Format Value) (value : Value) : Option Config := do
  let fields ← format.fields? fieldNames value
  let generator ← Format.field? fields "generator" (GeneratorConfig.read? format) {}
  let output ← Format.field? fields "output" (OutputConfig.read? format) {}
  let client ← Format.field? fields "client" (ClientConfig.read? format) {}
  let processing ← Format.field? fields "processing" (ProcessingConfig.read? format) {}
  return { generator, output, client, processing }

end Config

end PowerTest
