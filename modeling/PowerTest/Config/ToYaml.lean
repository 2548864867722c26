import PowerTest.Config.Basic
import PowerTest.Yaml.Printer

/-!
# Writing configurations

A configuration is written with every field, in the order in which the sections list them.
-/

namespace PowerTest

/-- An optional entry; nothing is written as null. -/
def Yaml.optional {α : Type} (entry : α → Yaml.Entry) : Option α → Yaml.Entry
  | some value => entry value
  | none => .plain "null"

/-- A whole number. -/
def Yaml.natural (value : Nat) : Yaml.Entry := .plain (Text.decimal value)

/-- The fields of the section. -/
def GeneratorConfig.entries (generator : GeneratorConfig) : List (String × Yaml.Entry) :=
  [("dir", .text generator.dir),
   ("dbgen", .text generator.dbgen),
   ("qgen", .text generator.qgen),
   ("scale_factor", .plain (Yaml.layout.render generator.scaleFactor)),
   ("update_factor", Yaml.natural generator.updateFactor.toNat),
   ("refresh_set", Yaml.natural generator.refreshSet.toNat),
   ("tables", .texts (generator.tables.map Table.stem)),
   ("resources", .texts generator.resources),
   ("query_dir", .text generator.queryDir),
   ("transient", .texts generator.transient)]

/-- The fields of the section. -/
def OutputConfig.entries (output : OutputConfig) : List (String × Yaml.Entry) :=
  [("dir", .text output.dir),
   ("quote_delete_keys", .plain (if output.quoteDeleteKeys then "true" else "false"))]

/-- The fields of the section. -/
def ClientConfig.entries (client : ClientConfig) : List (String × Yaml.Entry) :=
  [("command", .texts client.command),
   ("log_file_name", .text client.logFileName)]

/-- The fields of the section. -/
def ProcessingConfig.entries (processing : ProcessingConfig) : List (String × Yaml.Entry) :=
  [("process_timeout_secs",
     Yaml.optional (fun seconds => Yaml.natural seconds.toNat) processing.processTimeoutSecs),
   ("worker_threads",
     Yaml.optional (fun threads => Yaml.natural threads.toNat) processing.workerThreads),
   ("metrics_output_path", Yaml.optional Yaml.Entry.text processing.metricsOutputPath)]

/-- A configuration as a YAML text. -/
def Config.toYaml (config : Config) : String :=
  Yaml.document
    [("generator", .nested config.generator.entries),
     ("output", .nested config.output.entries),
     ("client", .nested config.client.entries),
     ("processing", .nested config.processing.entries)]

end PowerTest
