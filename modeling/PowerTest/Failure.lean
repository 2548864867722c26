import PowerTest.Number.Duration
import PowerTest.Number.Layout
import PowerTest.Store.Access

/-!
# Failures

Why a step of the preparation or of the benchmark failed, with its wording, and the state in which
steps work on a store. A step that fails keeps what it changed before.
-/

namespace PowerTest

/-- The cause of a failed step. -/
inductive Failure
  | sourceNotFound (path : String)
  | destinationWrite (path : String) (fault : Fault)
  | malformedLog (path : String) (line : Nat) (reason : String)
  | degenerateTiming (label : String) (elapsed : Float)
  | processFailure (program : String) (code : Int)
  | processTimeout (program : String) (nanoseconds : Nat)
  | processSpawn (program : String) (fault : Fault)
  | missingClient
  | inputOutput (path : String) (fault : Fault)

namespace Failure

/-- The failure of opening or reading a source: a source that is not there has one of its own. -/
def ofSource (path : String) (fault : Fault) : Failure :=
  if fault = .notFound then sourceNotFound path else inputOutput path fault

/-- The wording of a failure. -/
def message : Failure → String
  | sourceNotFound path => "source file not found: " ++ path
  | destinationWrite path fault => "failed to write " ++ path ++ ": " ++ fault.message
  | malformedLog path line reason =>
    "malformed timing log " ++ path ++ " at line " ++ Text.decimal line ++ ": " ++ reason
  | degenerateTiming label elapsed =>
    "degenerate timing sample '" ++ label ++ "' (" ++ Number.plain.render elapsed ++
      " ms): geometric mean is zero"
  | processFailure program code =>
    "external process '" ++ program ++ "' exited with status " ++
      Number.withSign (code < 0) (Text.decimal code.natAbs)
  | processTimeout program nanoseconds =>
    "external process '" ++ program ++ "' timed out after " ++ Number.durationText nanoseconds
  | processSpawn program fault =>
    "failed to spawn external process '" ++ program ++ "': " ++ fault.message
  | missingClient => "no benchmark client command configured"
  | inputOutput path fault => "I/O error on " ++ path ++ ": " ++ fault.message

end Failure

/-- Steps that read and change a store and may fail. -/
abbrev Files := EStateM Failure Store

namespace Files

/-- A change of the store; a fault becomes the failure that `blame` makes of it. -/
def change (blame : Fault → Failure) (operation : Store → Except Fault Store) : Files Unit :=
  fun store =>
    match operation store with
    | .ok after => .ok () after
    | .error fault => .error (blame fault) store

/-- A look at the store; a fault becomes the failure that `blame` makes of it. -/
def inspect {α : Type} (blame : Fault → Failure) (query : Store → Except Fault α) : Files α :=
  fun store =>
    match query store with
    | .ok value => .ok value store
    | .error fault => .error (blame fault) store

end Files

end PowerTest
