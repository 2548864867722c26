import PowerTest.Config.File

/-!
# The sample configuration

A configuration file with every field at its standard value and a comment for each.
-/

namespace PowerTest

/-- The lines of the sample configuration. -/
def sampleConfigLines : List String :=
  ["# TPC-H Power Pipeline Configuration",
   "",
   "# === GENERATOR: dbgen/qgen and their resources ===",
   "generator:",
   "  # Directory with built dbgen/qgen, dists.dss, dss.ddl, dss.ri and queries/",
   "  dir: \"./tpch-dbgen\"",
   "",
   "  # Programs, run from inside the output directory after staging",
   "  dbgen: \"./dbgen\"",
   "  qgen: \"./qgen\"",
   "",
   "  # Data size (dbgen -s)",
   "  scale_factor: 1",
   "",
   "  # Number of refresh sets (dbgen -U); set 1 feeds RF1/RF2",
   "  update_factor: 1",
   "  refresh_set: 1",
   "",
   "  # Tables converted into <table>.sql load scripts",
   "  tables: [customer, part, partsupp, region, supplier, nation, orders, lineitem]",
   "",
   "  # Copied into the output directory before generation",
   "  resources: [\"dss.ddl\", \"dss.ri\", \"dbgen\", \"dists.dss\", \"qgen\"]",
   "",
   "  # Query templates <id>.sql, relative to dir",
   "  query_dir: \"queries\"",
   "",
   "  # Removed from the output directory once queries are generated",
   "  transient: [\"dbgen\", \"qgen\", \"dists.dss\"]",
   "",
   "# === OUTPUT: generated scripts ===",
   "output:",
   "  dir: \"./data\"",
   "",
   "  # Emit RF2 keys as '123' instead of 123",
   "  quote_delete_keys: false",
   "",
   "# === CLIENT: benchmark client, run in a fresh <output>/<millis> directory ===",
   "client:",
   "  # Leave empty to stop after query generation",
   "  command: []",
   "  # command: [\"java\", \"-Dfile.encoding=UTF-8\", \"-classpath\", \"hsqldb/lib/hsqldb.jar:hsqldb/bin\", \"org.hsqldb.sample.Testdb\"]",
   "",
   "  # Captured client stdout: a header line, then <label>:<elapsed-ms> per query",
   "  log_file_name: \"client_stdout.txt\"",
   "",
   "# === PROCESSING ===",
   "processing:",
   "  # Kill external processes after this many seconds (omit to wait forever)",
   "  # process_timeout_secs: 7200",
   "",
   "  # Tokio worker threads (null = num CPUs)",
   "  # worker_threads: 2",
   "",
   "  # Save the power report as JSON",
   "  # metrics_output_path: \"./data/power.json\""]

/-- The text of the sample configuration. -/
def sampleConfig : String :=
  sampleConfigLines.foldl (fun known line => known ++ line ++ "\n") ""

/-- Write the sample configuration to a file. -/
def writeSampleConfig (store : Store) (path : String) : Except Fault Store :=
  store.write path (Text.encode sampleConfig)

end PowerTest
