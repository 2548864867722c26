import PowerTest.Config.Sample
import PowerTest.Proofs.Yaml.Annotated

/-!
# Reading the sample configuration

The sample is a document for people: comments between its lines, lists in rows, and a last section
that has only comments. It says the standard value of every field, or leaves the field out. So it is
read as the standard configuration, but only as YAML: a comment is no JSON, and a file whose name
asks for JSON is not read. `Config.ofText_sampleConfig` says which of the two happens.
-/

namespace PowerTest

open Yaml

/-! ## The sample as an annotated document -/

/-- The comments at the head of the sample. -/
def sampleRemarks : List Remark :=
  [.comment 0 " TPC-H Power Pipeline Configuration",
   .blank,
   .comment 0 " === GENERATOR: dbgen/qgen and their resources ==="]

/-- How data and queries are generated, in the sample. -/
def sampleGenerator : NotedBlock where
  key := "generator"
  remarks :=
    [.comment 2 " Directory with built dbgen/qgen, dists.dss, dss.ddl, dss.ri and queries/"]
  lines :=
    [⟨"dir", .quoted "./tpch-dbgen",
       [.blank,
        .comment 2 " Programs, run from inside the output directory after staging"]⟩,
     ⟨"dbgen", .quoted "./dbgen", []⟩,
     ⟨"qgen", .quoted "./qgen",
       [.blank,
        .comment 2 " Data size (dbgen -s)"]⟩,
     ⟨"scale_factor", .plain "1",
       [.blank,
        .comment 2 " Number of refresh sets (dbgen -U); set 1 feeds RF1/RF2"]⟩,
     ⟨"update_factor", .plain "1", []⟩,
     ⟨"refresh_set", .plain "1",
       [.blank,
        .comment 2 " Tables converted into <table>.sql load scripts"]⟩,
     ⟨"tables", .row [.name "customer", .name "part", .name "partsupp", .name "region",
         .name "supplier", .name "nation", .name "orders", .name "lineitem"],
       [.blank,
        .comment 2 " Copied into the output directory before generation"]⟩,
     ⟨"resources", .row [.quoted "dss.ddl", .quoted "dss.ri", .quoted "dbgen", .quoted "dists.dss",
         .quoted "qgen"],
       [.blank,
        .comment 2 " Query templates <id>.sql, relative to dir"]⟩,
     ⟨"query_dir", .quoted "queries",
       [.blank,
        .comment 2 " Removed from the output directory once queries are generated"]⟩,
     ⟨"transient", .row [.quoted "dbgen", .quoted "qgen", .quoted "dists.dss"],
       [.blank,
        .comment 0 " === OUTPUT: generated scripts ==="]⟩]

/-- Where scripts are written, in the sample. -/
def sampleOutput : NotedBlock where
  key := "output"
  remarks := []
  lines :=
    [⟨"dir", .quoted "./data",
       [.blank,
        .comment 2 " Emit RF2 keys as '123' instead of 123"]⟩,
     ⟨"quote_delete_keys", .plain "false",
       [.blank,
        .comment 0
          " === CLIENT: benchmark client, run in a fresh <output>/<millis> directory ==="]⟩]

/-- The benchmark client, in the sample. -/
def sampleClient : NotedBlock where
  key := "client"
  remarks := [.comment 2 " Leave empty to stop after query generation"]
  lines :=
    [⟨"command", .row [],
       [.comment 2 (" command: [\"java\", \"-Dfile.encoding=UTF-8\", \"-classpath\", " ++
          "\"hsqldb/lib/hsqldb.jar:hsqldb/bin\", \"org.hsqldb.sample.Testdb\"]"),
        .blank,
        .comment 2
          " Captured client stdout: a header line, then <label>:<elapsed-ms> per query"]⟩,
     ⟨"log_file_name", .quoted "client_stdout.txt",
       [.blank,
        .comment 0 " === PROCESSING ==="]⟩]

/-- How commands are run: the sample only shows what could be said. -/
def sampleProcessing : NotedBlock where
  key := "processing"
  remarks :=
    [.comment 2 " Kill external processes after this many seconds (omit to wait forever)",
     .comment 2 " process_timeout_secs: 7200",
     .blank,
     .comment 2 " Tokio worker threads (null = num CPUs)",
     .comment 2 " worker_threads: 2",
     .blank,
     .comment 2 " Save the power report as JSON",
     .comment 2 " metrics_output_path: \"./data/power.json\""]
  lines := []

/-- The sections of the sample. -/
def sampleBlocks : List NotedBlock :=
  [sampleGenerator, sampleOutput, sampleClient, sampleProcessing]

/-! ## Its text -/

theorem toList_foldl_lines (lines : List String) (known : String) :
    (lines.foldl (fun known line => known ++ line ++ "\n") known).toList =
      known.toList ++ lines.flatMap fun line => line.toList ++ ['\n'] := by
  induction lines generalizing known with
  | nil => simp
  | cons line rest ih =>
    rw [List.foldl_cons, ih, List.flatMap_cons, String.toList_append, String.toList_append,
      List.append_assoc, List.append_assoc, List.append_assoc]
    rfl

theorem toList_sampleConfig :
    sampleConfig.toList = sampleConfigLines.flatMap fun line => line.toList ++ ['\n'] :=
  (toList_foldl_lines sampleConfigLines "").trans (List.nil_append _)

/-- The lines of the sample are those of the annotated document. The texts are compared as lists of
characters, since the kernel is slow to take a text apart. -/
theorem annotatedText_sample :
    annotatedText sampleRemarks sampleBlocks =
      sampleConfigLines.flatMap fun line => line.toList ++ ['\n'] := by
  simp only [annotatedText, remarksText, sampleRemarks, sampleBlocks, sampleGenerator, sampleOutput,
    sampleClient, sampleProcessing, NotedBlock.written, NotedLine.written, Remark.written,
    Inline.written, RowItem.written, rowText, rowRest, sampleConfigLines, List.flatMap_cons,
    List.flatMap_nil, String.toList_append]
  repeat rw [String.toList_ofList]
  decide +kernel

theorem sampleConfig_eq :
    sampleConfig = String.ofList (annotatedText sampleRemarks sampleBlocks) := by
  rw [annotatedText_sample, ← toList_sampleConfig, String.ofList_toList]

theorem allowed_sample : Allowed (annotatedText sampleRemarks sampleBlocks) := by
  rw [annotatedText_sample]
  refine List.all_eq_true.mp ?_
  simp only [sampleConfigLines, List.flatMap_cons, List.flatMap_nil]
  repeat rw [String.toList_ofList]
  decide +kernel

/-! ## It is written as it can be read -/

theorem areLines_sample : AreLines sampleRemarks := by
  have each : sampleRemarks.all Remark.isLine = true := by
    simp only [sampleRemarks, List.all_cons, List.all_nil, Remark.isLine]
    repeat rw [String.toList_ofList]
    decide +kernel
  exact List.all_eq_true.mp each

theorem isWritten_sample : ∀ block ∈ sampleBlocks, block.isWritten = true := by
  refine List.all_eq_true.mp ?_
  simp only [sampleBlocks, sampleGenerator, sampleOutput, sampleClient, sampleProcessing,
    NotedBlock.isWritten, NotedLine.isWritten, Inline.isWritten, Remark.isLine, RowItem.isWritten,
    List.all_cons, List.all_nil, String.toList_append]
  repeat rw [String.toList_ofList]
  decide +kernel

/-! ## What it says -/

/-- The node of the sample. -/
def sampleNode : Yaml.Node := .mapping .none (sampleBlocks.map NotedBlock.node)

theorem parse?_sampleConfig : parse? sampleConfig = some (some sampleNode) := by
  have nonempty : sampleBlocks ≠ [] := List.cons_ne_nil _ _
  rw [sampleConfig_eq]
  exact parse?_annotated areLines_sample nonempty isWritten_sample allowed_sample

/-- The sample says the standard value of every field that it does not leave out. -/
theorem read?_sampleNode :
    Config.read? (Yaml.format sampleNode.anchored.reverse) sampleNode = some .standard := rfl

namespace Json

theorem split?_comment (rest : List Char) : Numeral.split? ('#' :: rest) = none := rfl

/-- No value starts with the sign of a comment. -/
theorem parse?_eq_none_of_comment {text : String} {rest : List Char}
    (comment : text.toList = '#' :: rest) : parse? text = none := by
  simp [parse?, comment, readValue?, skipBlanks, split?_comment]

end Json

namespace Config

/-- The sample is read as the standard configuration. -/
theorem ofYaml?_sampleConfig : ofYaml? sampleConfig = some .standard := by
  rw [ofYaml?, parse?_sampleConfig]
  exact read?_sampleNode

theorem ofJson?_sampleConfig : ofJson? sampleConfig = none := by
  have comment : ∃ rest, sampleConfig.toList = '#' :: rest := by
    rw [toList_sampleConfig, ← annotatedText_sample]
    exact ⟨_, rfl⟩
  obtain ⟨rest, comment⟩ := comment
  rw [ofJson?, Json.parse?_eq_none_of_comment comment, Option.bind_none]

/-- The sample is read as the standard configuration, unless JSON is asked for. -/
theorem ofText_sampleConfig (path : String) :
    ofText path sampleConfig =
      if Path.extension? path = some "json" then .error .notJson else .ok .standard := by
  rw [ofText, ofJson?_sampleConfig, ofYaml?_sampleConfig]

end Config

end PowerTest
