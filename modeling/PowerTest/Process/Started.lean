import PowerTest.Process.Invocation
import PowerTest.Shell.Evaluation

/-!
# Started commands

The runner that starts the program an invocation names: a utility or a script, looked up by name or
found in the store. A program that takes longer than it may is stopped; one that is killed by a
signal has no exit code and gives minus one.
-/

namespace PowerTest

/-- The exit code of a program that is killed. -/
def killedCode : Int := -1

/-- How deeply the commands of a script can be nested, and how often its loops can be repeated. A
script that goes beyond it counts as one that does not end. -/
def scriptFuel : Nat := 20000

namespace Invocation

/-- The program as it is looked up: a path of several steps leads from the working directory, which
has to be there. -/
def resolvedProgram (invocation : Invocation) (store : Store) : Except Failure String :=
  let program := invocation.program
  if Path.isAbsolute program || Path.stepCount program < 2 then .ok program
  else
    match store.find invocation.workingDirectory with
    | .ok (location, _) => .ok (Path.join (Store.pathOf location) program)
    | .error fault => .error (.ofSource invocation.workingDirectory fault)

/-- The store with an empty file for the standard output, and where the output goes. -/
def openOutput (invocation : Invocation) (store : Store) : Except Failure (Store × Shell.Sink) :=
  match invocation.standardOutput with
  | none => .ok (store, .nowhere)
  | some path =>
    match store.write path [] with
    | .error fault => .error (.destinationWrite path fault)
    | .ok after =>
      match after.find path with
      | .ok (location, _) => .ok (after, .file location)
      | .error fault => .error (.destinationWrite path fault)

/-- The directory that the program works in. -/
def directory (invocation : Invocation) (store : Store) : Except Fault Location :=
  match store.find invocation.workingDirectory with
  | .ok (location, .directory) => .ok location
  | .ok (_, .file _ _) => .error .notADirectory
  | .error fault => .error fault

/-- The program and the store as it sees it, if it can be started. -/
def start (invocation : Invocation) (program : String) (store : Store) :
    Except Fault (Shell.Program × Store) := do
  if (invocation.program :: invocation.arguments).any fun text => text.toList.contains '\x00' then
    throw (.described "nul byte found in provided data")
  let location ← invocation.directory store
  let inside := { store with workingDirectory := location }
  let started ← Shell.find inside program invocation.arguments
  return (started, inside)

/-- Run a program to its end. -/
def runStarted (invocation : Invocation) (timeout : Option Nat) (program : Shell.Program)
    (inside : Store) (sink : Shell.Sink) (store : Store) : Except Failure Int × Store :=
  let steps := Shell.Interpreter.untilExit (Shell.Interpreter.runProgram scriptFuel program)
  let leave (session : Shell.Session) : Store :=
    { session.store with workingDirectory := store.workingDirectory }
  match steps (Shell.Session.start inside sink timeout) with
  | .ok () after => (.ok after.status, leave after)
  | .error (.killed _) after => (.ok killedCode, leave after)
  | .error _ after =>
    (.error (.processTimeout invocation.program (timeout.getD 0)), leave after)

end Invocation

/-- The runner that starts programs, each for at most the given nanoseconds. -/
def started (timeout : Option Nat) : Runner Unit := fun invocation _ store =>
  match invocation.resolvedProgram store with
  | .error failure => (.error failure, (), store)
  | .ok program =>
    match invocation.openOutput store with
    | .error failure => (.error failure, (), store)
    | .ok (opened, sink) =>
      match invocation.start program opened with
      | .error fault => (.error (.processSpawn invocation.program fault), (), opened)
      | .ok (start, inside) =>
        let (result, after) := invocation.runStarted timeout start inside sink opened
        (result, (), after)

end PowerTest
