import PowerTest.CommandLine.Arguments
import PowerTest.Config.Sample
import PowerTest.Pipeline.Launch
import PowerTest.Process.WorkerPool

/-!
# The program

One use of the program as a function of its arguments, the clock and the store. It ends with the
status zero, with one and a complaint, with two if its arguments are refused, or with one hundred
and one if it is told to work without threads.
-/

namespace PowerTest.CommandLine

/-- How a use of the program ends. -/
structure Outcome where
  status : UInt8
  /-- What is printed. -/
  printed : String
  /-- Why the program failed. -/
  complaint : Option String
  deriving DecidableEq, Repr

namespace Outcome

/-- An end with success. -/
def success (printed : String) : Outcome := ⟨0, printed, none⟩

/-- An end with a failure. -/
def failure (complaint : String) : Outcome := ⟨1, "", some complaint⟩

/-- The arguments are refused. -/
def refused : Outcome := ⟨2, "", none⟩

/-- The program breaks off. -/
def brokenOff : Outcome := ⟨101, "", none⟩

end Outcome

/-- The configuration that a request asks for: the one that is loaded, with what the request says
itself in place of it. -/
def Request.configuration (request : Request) (store : Store) : Except LoadFailure Config :=
  (Config.load store request.config).map fun config =>
    let generator :=
      { config.generator with
        scaleFactor := request.scaleFactor.getD config.generator.scaleFactor }
    let output := { config.output with dir := request.outputDirectory.getD config.output.dir }
    { config with generator, output }

/-- Run the pipeline on a pool of threads. -/
def runTask (config : Config) (now : Int) (mode : RunMode) (store : Store) : Outcome × Store :=
  match WorkerPool.build? config.processing.workerThreads with
  | none => (.brokenOff, store)
  | some pool =>
    pool.complete fun _ =>
      match Pipeline.launch config now mode store with
      | (.ok _, after) => (.success "", after)
      | (.error failure, after) => (.failure failure.message, after)

/-- Score a log. -/
def scoreTask (config : Config) (log : String) (store : Store) : Outcome :=
  match Timing.Report.ofLog store log config.generator.scaleFactor with
  | .ok report => .success (report.summary ++ "\n")
  | .error failure => .failure failure.message

/-- Validate a configuration. -/
def validateTask (config : Config) : Outcome :=
  match config.validate with
  | .ok () => .success "Configuration is valid\n"
  | .error rejection => .failure rejection.message

/-- Write the sample configuration. -/
def generateTask (path : String) (store : Store) : Outcome × Store :=
  match writeSampleConfig store path with
  | .ok after => (.success ("Generated sample configuration at: " ++ path ++ "\n"), after)
  | .error fault => (.failure fault.message, store)

/-- Carry out a request. No configuration is loaded for writing the sample. -/
def Request.carryOut (request : Request) (now : Int) (store : Store) : Outcome × Store :=
  match request.task with
  | .generateConfig path => generateTask path store
  | task =>
    match request.configuration store with
    | .error failure => (.failure failure.message, store)
    | .ok config =>
      match task with
      | .run mode => runTask config now mode store
      | .score log => (scoreTask config log store, store)
      | _ => (validateTask config, store)

/-- How the program is used. -/
def usage : String :=
  "Commands: run (the standard one), score, validate, generate-config, help\n" ++
  "Options: -c/--config <path>, --scale-factor <number>, --output-dir <path>\n" ++
  "Before the command: -r/--run/--metric-only\n" ++
  "Behind score: -l/--log <path>; behind generate-config: -o/--output <path>\n"

/-- One use of the program. -/
def use (arguments : List String) (now : Int) (store : Store) : Outcome × Store :=
  match Request.ofArguments arguments with
  | .error .help => (.success usage, store)
  | .error .refused => (.refused, store)
  | .ok request => request.carryOut now store

end PowerTest.CommandLine
