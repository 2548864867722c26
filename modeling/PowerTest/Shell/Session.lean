import PowerTest.Store.Access

/-!
# Sessions

The state in which commands run: the files, where output goes, the variables and arguments, and
the time that has been waited. Time passes only while a command waits, and a session that waits
longer than it may is interrupted.
-/

namespace PowerTest.Shell

/-- Where output goes. -/
inductive Sink
  | nowhere
  | file (location : Location)
  /-- It is collected in the session. -/
  | memory
  deriving DecidableEq, Repr

/-- The state in which commands run. -/
structure Session where
  /-- The files; relative paths start where the session works. -/
  store : Store
  sink : Sink
  /-- The output that has been collected. -/
  collected : Bytes
  input : Bytes
  bindings : List (String × String)
  /-- The name under which the script was started. -/
  name : String
  arguments : List String
  /-- The exit status of the last command. -/
  status : Nat
  /-- The nanoseconds that have been waited. -/
  elapsed : Nat
  /-- The nanoseconds that may be waited. -/
  limit : Option Nat

/-- Why commands stop before their end. -/
inductive Interruption
  | exited (status : Nat)
  | killed (signal : Nat)
  | timedOut
  /-- The innermost loop ends. -/
  | leftLoop
  /-- The innermost loop starts its next round. -/
  | nextRound
  deriving DecidableEq, Repr

/-- Steps in a session, which can be interrupted. -/
abbrev Interpreter := EStateM Interruption Session

namespace Session

/-- A session on files, with nothing set. -/
def start (store : Store) (sink : Sink) (limit : Option Nat) : Session where
  store := store
  sink := sink
  collected := []
  input := []
  bindings := []
  name := "sh"
  arguments := []
  status := 0
  elapsed := 0
  limit := limit

/-- The session after bytes have been written. -/
def write (session : Session) (bytes : Bytes) : Session :=
  match session.sink with
  | .nowhere => session
  | .memory => { session with collected := session.collected ++ bytes }
  | .file location =>
    match session.store.node? location with
    | some (.file executable content) =>
      { session with store := session.store.put location (.file executable (content ++ bytes)) }
    | _ => session

/-- The value of a variable. -/
def valueOf? (session : Session) (name : String) : Option String :=
  session.bindings.lookup name

/-- The session with a variable set. -/
def set (session : Session) (name value : String) : Session :=
  { session with
    bindings := (name, value) :: session.bindings.filter fun (other, _) => other != name }

end Session

namespace Interpreter

/-- Write bytes. -/
def write (bytes : Bytes) : Interpreter Unit := modify (·.write bytes)

/-- Write a text. -/
def writeText (text : String) : Interpreter Unit := write (Text.encode text)

/-- Let time pass. -/
def wait (nanoseconds : Nat) : Interpreter Unit := do
  modify fun session => { session with elapsed := session.elapsed + nanoseconds }
  let session ← get
  match session.limit with
  | some limit => if limit < session.elapsed then throw .timedOut else return ()
  | none => return ()

/-- Change the files; a fault fails. -/
def change (operation : Store → Except Fault Store) : Interpreter Nat := do
  match operation (← get).store with
  | .ok store =>
    modify fun session => { session with store }
    return 0
  | .error _ => return 1

/-- Do something for each of some texts, and give the greatest status. -/
def forEach (step : String → Interpreter Nat) : List String → Interpreter Nat
  | [] => return 0
  | text :: rest => do
    let status ← step text
    return max status (← forEach step rest)

/-- The number that stands for the session's own process. -/
def processNumber : String := "4711"

end Interpreter

end PowerTest.Shell
