import PowerTest.Failure

/-!
# Invocations

A command to run: its program and arguments, the directory it works in, and the file that takes
what it writes to its standard output.
-/

namespace PowerTest

/-- One command to run. -/
structure Invocation where
  /-- A program with several steps in its path is looked up from the working directory. -/
  program : String
  arguments : List String
  workingDirectory : String
  standardOutput : Option String
  deriving DecidableEq, Repr

namespace Invocation

/-- The program and the arguments with blanks between them. -/
def commandLine (invocation : Invocation) : String :=
  invocation.arguments.foldl (fun known argument => known ++ " " ++ argument) invocation.program

end Invocation

/-- A way to run commands to their end. It sees the store, may change it, keeps a memory of its
own, and gives an exit code unless it fails to run the command at all. -/
abbrev Runner (Memory : Type) :=
  Invocation → Memory → Store → Except Failure Int × Memory × Store

/-- What a run of the pipeline works on: the store, the runner's memory, and the commands that
have been run, in order. -/
structure Machine (Memory : Type) where
  store : Store
  memory : Memory
  invocations : List Invocation

/-- Steps that use the store and run commands, and may fail. -/
abbrev Run (Memory : Type) := EStateM Failure (Machine Memory)

namespace Run

variable {Memory : Type}

/-- Steps on the store alone. -/
def files {α : Type} (steps : Files α) : Run Memory α := fun machine =>
  match steps machine.store with
  | .ok value store => .ok value { machine with store }
  | .error failure store => .error failure { machine with store }

/-- Run a command, and give its exit code. -/
def command (runner : Runner Memory) (invocation : Invocation) : Run Memory Int := fun machine =>
  match runner invocation machine.memory machine.store with
  | (.ok code, memory, store) =>
    .ok code ⟨store, memory, machine.invocations ++ [invocation]⟩
  | (.error failure, memory, store) =>
    .error failure ⟨store, memory, machine.invocations ++ [invocation]⟩

/-- Run a command; an exit code other than zero is a failure. -/
def checkedCommand (runner : Runner Memory) (invocation : Invocation) : Run Memory Unit := do
  let code ← command runner invocation
  if code = 0 then pure () else throw (.processFailure invocation.program code)

end Run

end PowerTest
