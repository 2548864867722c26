import PowerTest.Process.Invocation
import PowerTest.Text.Cut

/-!
# Rehearsed commands

A runner that starts no program but follows rules: the first rule that fits an invocation says
which files appear, what is written to the standard output and how the command ends.
-/

namespace PowerTest

/-- How a rehearsed command ends. -/
inductive Ending
  | exited (code : Int)
  | timedOut (nanoseconds : Nat)
  | notSpawned
  deriving DecidableEq, Repr

/-- What happens when a program is run. -/
structure Rule where
  program : String
  /-- An argument that the invocation must have for the rule to fit. -/
  argument : Option String
  /-- Files that appear in the working directory. -/
  files : List (String × Bytes)
  /-- The text written to a captured standard output, where `$0` stands for the first argument. -/
  output : Option String
  ending : Ending

namespace Rule

/-- Whether a rule fits an invocation. -/
def fits (rule : Rule) (invocation : Invocation) : Bool :=
  rule.program == invocation.program &&
    match rule.argument with
    | some argument => invocation.arguments.contains argument
    | none => true

/-- A text with the first argument in each place marked for it. -/
def fill (argument : List Char) : List Char → List Char
  | [] => []
  | '$' :: '0' :: rest => argument ++ fill argument rest
  | character :: rest => character :: fill argument rest

/-- Write files into a directory, leaving out those that cannot be written. -/
def placeFiles (directory : String) (store : Store) : List (String × Bytes) → Store
  | [] => store
  | (name, content) :: rest =>
    match store.write (Path.join directory name) content with
    | .ok after => placeFiles directory after rest
    | .error _ => placeFiles directory store rest

/-- Write a rule's output to the captured standard output. -/
def capture (rule : Rule) (invocation : Invocation) (store : Store) : Except Failure Store :=
  match rule.output, invocation.standardOutput with
  | some output, some path =>
    let argument := (invocation.arguments.head?.getD "").toList
    match store.write path (Text.encode (String.ofList (fill argument output.toList))) with
    | .ok after => .ok after
    | .error fault => .error (.destinationWrite path fault)
  | _, _ => .ok store

/-- Follow a rule. -/
def follow (rule : Rule) (invocation : Invocation) (store : Store) : Except Failure Int × Store :=
  let placed := placeFiles invocation.workingDirectory store rule.files
  match rule.capture invocation placed with
  | .error failure => (.error failure, placed)
  | .ok after =>
    match rule.ending with
    | .exited code => (.ok code, after)
    | .timedOut nanoseconds => (.error (.processTimeout invocation.program nanoseconds), after)
    | .notSpawned => (.error (.processSpawn invocation.program .notFound), after)

end Rule

/-- The runner that follows the first rule that fits; a command that none fits does nothing and
succeeds. -/
def rehearsed (rules : List Rule) : Runner Unit := fun invocation _ store =>
  match rules.find? (·.fits invocation) with
  | none => (.ok 0, (), store)
  | some rule =>
    let (result, after) := rule.follow invocation store
    (result, (), after)

end PowerTest
