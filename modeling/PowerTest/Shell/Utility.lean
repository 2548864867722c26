import PowerTest.Number.Numeral
import PowerTest.Shell.Printing
import PowerTest.Shell.Session

/-!
# Utilities

The programs that scripts find everywhere: printing, tests, waiting, and work on files. Each gives
an exit status.
-/

namespace PowerTest.Shell

/-- Whether a test of one operand holds, if there is such a test. -/
def unaryTest? (store : Store) (mark operand : String) : Option Bool :=
  match mark with
  | "-n" => some (!operand.isEmpty)
  | "-z" => some operand.isEmpty
  | "-e" => some (store.hasNode operand)
  | "-f" => some (store.isFile operand)
  | "-d" => some (store.isDirectory operand)
  | "-r" => some (store.hasNode operand)
  | "-w" => some (store.hasNode operand)
  | "-s" => some ((store.read operand).toOption.any fun content => !content.isEmpty)
  | "-x" =>
    match store.find operand with
    | .ok (_, .directory) => some true
    | .ok (_, .file executable _) => some executable
    | .error _ => some false
  | _ => none

/-- Whether a comparison of numbers holds, if there is such a comparison. -/
def comparison? (mark : String) (left right : Int) : Option Bool :=
  match mark with
  | "-eq" => some (left == right)
  | "-ne" => some (left != right)
  | "-lt" => some (left < right)
  | "-le" => some (left ≤ right)
  | "-gt" => some (right < left)
  | "-ge" => some (right ≤ left)
  | _ => none

/-- Whether a test of two operands holds, if there is such a test. -/
def binaryTest? (mark left right : String) : Option Bool :=
  match mark with
  | "=" => some (left == right)
  | "==" => some (left == right)
  | "!=" => some (left != right)
  | _ => do
    let first ← ofNumeral? left.toList
    let second ← ofNumeral? right.toList
    comparison? mark first second

/-- Whether the words of a test hold, if they make sense. -/
def test? (store : Store) : List String → Option Bool
  | [] => some false
  | [word] => some (!word.isEmpty)
  | "!" :: rest => (test? store rest).map (!·)
  | [mark, operand] => unaryTest? store mark operand
  | [left, mark, right] =>
    match mark with
    | "-a" => some (!left.isEmpty && !right.isEmpty)
    | "-o" => some (!left.isEmpty || !right.isEmpty)
    | _ => binaryTest? mark left right
  | _ => none

/-- The status of a test: two if it makes no sense. -/
def testStatus : Option Bool → Nat
  | some true => 0
  | some false => 1
  | none => 2

/-- The units of time, in nanoseconds. -/
def unitOfTime? : List Char → Option Nat
  | [] => some (10 ^ 9)
  | ['s'] => some (10 ^ 9)
  | ['m'] => some (60 * 10 ^ 9)
  | ['h'] => some (3600 * 10 ^ 9)
  | _ => none

/-- The nanoseconds that a text spells: a number of seconds, or of a unit that is named. -/
def nanoseconds? (text : String) : Option Nat := do
  let (whole, rest) := Number.leadingDigits text.toList
  let (fraction, rest) :=
    match rest with
    | '.' :: rest => Number.leadingDigits rest
    | _ => ([], rest)
  let unit ← unitOfTime? rest
  if whole.isEmpty && fraction.isEmpty then none
  else some (Text.decimalValue (whole ++ fraction) * unit / 10 ^ fraction.length)

/-- The bytes of files one after another, or of the input if there is none. -/
def concatenate (paths : List String) : Interpreter Nat := do
  if paths.isEmpty then
    Interpreter.write (← get).input
    return 0
  else
    Interpreter.forEach (fun path => do
      match (← get).store.read path with
      | .ok content =>
        Interpreter.write content
        return 0
      | .error _ => return 1) paths

/-- Remove a file, or a directory with everything below it if that is asked for. -/
def removePath (recursive forced : Bool) (path : String) : Interpreter Nat := do
  match (← get).store.find path with
  | .ok (location, .file _ _) => Interpreter.change fun store => .ok (store.erase location)
  | .ok (location, .directory) =>
    if recursive then Interpreter.change fun store => .ok (store.eraseTree location) else return 1
  | .error _ => return if forced then 0 else 1

/-- Make a directory, and those above it if that is asked for. -/
def makePath (parents : Bool) (path : String) : Interpreter Nat :=
  Interpreter.change fun store =>
    if parents then
      match store.makeDirectories path with
      | (after, none) => .ok after
      | (_, some fault) => .error fault
    else store.makeDirectory path

/-- The path that a file gets when it is copied or moved to a path. -/
def targetPath (store : Store) (source target : String) : String :=
  if store.isDirectory target then Path.join target ((Path.fileName? source).getD source)
  else target

/-- Copy a file. -/
def copyTo (target source : String) : Interpreter Nat :=
  Interpreter.change fun store => store.copy source (targetPath store source target)

/-- Move a file. -/
def moveTo (target source : String) : Interpreter Nat :=
  Interpreter.change fun store => do
    let after ← store.copy source (targetPath store source target)
    after.remove source

/-- Make a file if there is none. -/
def touch (path : String) : Interpreter Nat :=
  Interpreter.change fun store => store.append path []

/-- The letters of options, and the other arguments. -/
def splitOptions (arguments : List String) : List Char × List String :=
  let isOption (text : String) : Bool := text.startsWith "-" && 1 < text.length
  (((arguments.filter isOption).map fun text => text.toList.drop 1).flatten,
    arguments.filter (!isOption ·))

/-- Use the last of some arguments as the target of the others. -/
def toLast (step : String → String → Interpreter Nat) (arguments : List String) :
    Interpreter Nat :=
  match arguments.reverse with
  | target :: first :: others => Interpreter.forEach (step target) (first :: others).reverse
  | _ => return 1

/-- The numbers of a sequence, each on a line of its own. -/
def sequenceText (first last : Int) : String :=
  String.join ((List.range (last - first + 1).toNat).map fun (count : Nat) =>
    numeralText (first + (count : Int)) ++ "\n")

/-- Print a sequence of numbers. -/
def sequence (arguments : List String) : Interpreter Nat := do
  match arguments.map fun text => ofNumeral? text.toList with
  | [some last] =>
    Interpreter.writeText (sequenceText 1 last)
    return 0
  | [some first, some last] =>
    Interpreter.writeText (sequenceText first last)
    return 0
  | _ => return 1

/-- Print arguments. -/
def echo (escapes : Bool) (arguments : List String) : Interpreter Nat := do
  Interpreter.write (echoed escapes arguments)
  return 0

/-- Print arguments in a format. -/
def printFormat : List String → Interpreter Nat
  | [] => return 2
  | format :: arguments => do
    Interpreter.write (formatted (arguments.length + 1) format arguments)
    return 0

/-- Wait for each of some times, one after another. -/
def sleep (arguments : List String) : Interpreter Nat :=
  Interpreter.forEach (fun text => do
    match nanoseconds? text with
    | some nanoseconds =>
      Interpreter.wait nanoseconds
      return 0
    | none => return 1) arguments

/-- The utility with a name. The one that a session runs by itself reads escapes when it prints. -/
def utility? (inSession : Bool) (name : String) : Option (List String → Interpreter Nat) :=
  match name with
  | "true" => some fun _ => return 0
  | "false" => some fun _ => return 1
  | "echo" => some (echo inSession)
  | "printf" => some printFormat
  | "test" => some fun words => do return testStatus (test? (← get).store words)
  | "[" => some fun words => do
    if words.getLast? = some "]" then return testStatus (test? (← get).store words.dropLast)
    else return 2
  | "sleep" => some sleep
  | "cat" => some concatenate
  | "seq" => some sequence
  | "touch" => some (Interpreter.forEach touch)
  | "rm" => some fun arguments =>
    let (options, paths) := splitOptions arguments
    Interpreter.forEach
      (removePath (options.contains 'r' || options.contains 'R') (options.contains 'f')) paths
  | "mkdir" => some fun arguments =>
    let (options, paths) := splitOptions arguments
    Interpreter.forEach (makePath (options.contains 'p')) paths
  | "cp" => some fun arguments => toLast copyTo (splitOptions arguments).2
  | "mv" => some fun arguments => toLast moveTo (splitOptions arguments).2
  | _ => none

end PowerTest.Shell
