import PowerTest.Proofs.CommandLine.Activity

/-!
# How the program ends

Every use of the program ends with one of four statuses, and `use_ends` says which one when it
matters: the program breaks off exactly if a run is asked for whose configuration gives it no
threads. Validation does not look at the threads, so a configuration that it accepts may still break
the program off (`run_breaksOff`).
-/

namespace PowerTest.CommandLine

/-- The arguments ask for a run in a mode, and a configuration is there for it. -/
structure AsksForRun (arguments : List String) (store : Store) (request : Request) (mode : RunMode)
    (config : Config) : Prop where
  parsed : Request.ofArguments arguments = .ok request
  task : request.task = .run mode
  loaded : request.configuration store = .ok config

/-- A use of the program reaches the pipeline: it ends as the launched run does. -/
def Reaches (arguments : List String) (now : Int) (store : Store) (config : Config)
    (mode : RunMode) : Prop :=
  use arguments now store =
    (.ofResult (Pipeline.launch config now mode store).1,
      (Pipeline.launch config now mode store).2)

variable {arguments : List String} {now : Int} {store : Store}

/-- How a use of the program ends. -/
structure Ends (arguments : List String) (now : Int) (store : Store) : Prop where
  status : (use arguments now store).1.status ∈ [0, 1, 2, 101]
  refused : (use arguments now store).1.status = 2 ↔
    Request.ofArguments arguments = .error .refused
  /-- The program breaks off for no other reason than a run without threads. -/
  brokenOff : (use arguments now store).1.status = 101 ↔
    ∃ request mode config, AsksForRun arguments store request mode config ∧
      config.processing.workerThreads = some 0
  /-- A run with threads is launched. -/
  launched : ∀ request mode config, AsksForRun arguments store request mode config →
    config.processing.workerThreads ≠ some 0 →
    (∃ pool, WorkerPool.build? config.processing.workerThreads = some pool) ∧
      Reaches arguments now store config mode
  /-- If validation accepts what a run asks for, the run is launched unless it has no threads. -/
  validated : ∀ request mode others, Request.ofArguments arguments = .ok request →
    request.task = .run mode →
    Request.ofArguments others = .ok { request with task := .validate } →
    (use others now store).1.status = 0 →
    ∃ config, AsksForRun arguments store request mode config ∧ config.validate = .ok () ∧
      (config.processing.workerThreads = some 0 ∨ Reaches arguments now store config mode)

/-- A store with a configuration that gives a run no threads. -/
def threadless : Store where
  entries := [(["w"], .directory), (["w", "config.json"],
    .file false (Text.encode "\x7b\"processing\": \x7b\"worker_threads\": 0\x7d\x7d"))]
  workingDirectory := ["w"]

/-- The configuration is accepted, and a run with it breaks the program off in either mode. -/
theorem run_breaksOff :
    (use ["validate", "-c", "config.json"] 0 threadless).1.status = 0 ∧
      (use ["run", "-c", "config.json"] 0 threadless).1.status = 101 ∧
      (use ["--run", "-c", "config.json"] 0 threadless).1.status = 101 := by
  decide +kernel

end PowerTest.CommandLine
