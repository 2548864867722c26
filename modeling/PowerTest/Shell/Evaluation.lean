import PowerTest.Shell.Command
import PowerTest.Shell.Program

/-!
# Running scripts

How words become texts and how commands run. Every function takes fuel, which bounds how deeply
commands are nested and how often loops are repeated; a script that would use it up does not end,
so it counts as one that runs out of time.
-/

namespace PowerTest.Shell

/-- The texts that a word has become so far. -/
structure Fields where
  /-- The texts that are complete, the last one first. -/
  complete : List String
  /-- The text that is not complete, in reverse. -/
  current : Option (List Char)

namespace Fields

/-- Nothing so far. -/
def none : Fields := ⟨[], .none⟩

/-- More characters of the text that is not complete. -/
def add (fields : Fields) (text : List Char) : Fields :=
  ⟨fields.complete, some (text.reverse ++ fields.current.getD [])⟩

/-- The text that is not complete becomes complete. -/
def close (fields : Fields) : Fields :=
  match fields.current with
  | some text => ⟨String.ofList text.reverse :: fields.complete, .none⟩
  | .none => fields

/-- More characters, split at blanks and line ends. -/
def addSplit (fields : Fields) : List Char → Fields
  | [] => fields
  | character :: rest =>
    if " \t\n".toList.contains character then fields.close.addSplit rest
    else (fields.add [character]).addSplit rest

/-- More characters of an expansion. -/
def addExpansion (fields : Fields) (quoted : Bool) (text : String) : Fields :=
  if quoted then fields.add text.toList else fields.addSplit text.toList

/-- Texts of their own; the first continues the text that is not complete. -/
def addEach (fields : Fields) : List String → Fields
  | [] => fields
  | [text] => fields.add text.toList
  | text :: rest => ((fields.add text.toList).close).addEach rest

/-- The texts of the whole word. -/
def texts (fields : Fields) : List String := fields.close.complete.reverse

end Fields

namespace Session

/-- The value of a parameter, if it has one. -/
def parameter? (session : Session) (name : String) : Option String :=
  match name with
  | "@" => some (" ".intercalate session.arguments)
  | "*" => some (" ".intercalate session.arguments)
  | "#" => some (Text.decimal session.arguments.length)
  | "?" => some (Text.decimal session.status)
  | "$" => some Interpreter.processNumber
  | "0" => some session.name
  | _ =>
    match Text.ofDigits? 10 name.toList with
    | some position => session.arguments[position - 1]?
    | none => session.valueOf? name

/-- The text of a parameter. A name can be followed by the text that stands for a missing value. -/
def parameterText (session : Session) (name : String) : String :=
  let plain := name.toList.takeWhile (· != ':')
  match name.toList.drop plain.length with
  | ':' :: '-' :: standard =>
    match session.parameter? (String.ofList plain) with
    | some "" => String.ofList standard
    | some value => value
    | none => String.ofList standard
  | _ => (session.parameter? name).getD ""

/-- The session after a round of a loop that was cut short, given the session before it. -/
def inLoop (after before : Session) : Session :=
  { after with status := 0, sink := before.sink, input := before.input }

/-- The number that a variable's value spells. -/
def number? (session : Session) (name : String) : Option Int :=
  ofNumeral? ((session.valueOf? name).getD "").toList

end Session

namespace Interpreter

/-- Set the status of the last command. -/
def setStatus (status : Nat) : Interpreter Unit :=
  modify fun session => { session with status }

/-- The status of a condition. -/
def statusOf (holds : Bool) : Nat := if holds then 0 else 1

/-- Steps whose changes of variables, arguments and directories are taken back. -/
def apart (steps : Interpreter Unit) : Interpreter Unit := do
  let before ← get
  steps
  modify fun after =>
    { before with
      store := { after.store with workingDirectory := before.store.workingDirectory }
      collected := after.collected
      status := after.status
      elapsed := after.elapsed }

/-- Steps that end alone when they exit. -/
def untilExit (steps : Interpreter Unit) : Interpreter Unit := fun session =>
  match steps session with
  | .ok () after => .ok () after
  | .error (.exited status) after => .ok () { after with status }
  | .error .leftLoop after => .ok () after
  | .error .nextRound after => .ok () after
  | .error interruption after => .error interruption after

/-- Steps of a process of its own, which can also be killed alone. -/
def untilEnd (steps : Interpreter Unit) : Interpreter Unit := fun session =>
  match untilExit steps session with
  | .error (.killed signal) after => .ok () { after with status := 128 + signal }
  | result => result

/-- Steps whose output and input are put back at their end. -/
def redirected (steps : Interpreter Unit) : Interpreter Unit := do
  let before ← get
  steps
  modify fun after => { after with sink := before.sink, input := before.input }

/-- The output of steps. -/
def outputOf (steps : Interpreter Unit) : Interpreter Bytes := do
  let before ← get
  modify fun session => { session with sink := .memory, collected := [] }
  steps
  let written := (← get).collected
  modify fun after => { after with sink := before.sink, collected := before.collected }
  return written

/-- The file that takes what is written and gives nothing. -/
def emptyDevice : String := "/dev/null"

/-- Open what a redirection leads to; tells whether that was possible. Only input and the first
output are followed. -/
def openTarget (descriptor : Nat) (direction : Direction) (target : String) :
    Interpreter Bool := do
  let store := (← get).store
  let into (operation : Store → Except Fault Store) : Interpreter Bool := do
    if target = emptyDevice then
      if descriptor = 1 then modify fun session => { session with sink := .nowhere }
      return true
    else
      match operation store with
      | .error _ => return false
      | .ok after =>
        modify fun session => { session with store := after }
        match after.find target with
        | .ok (location, _) =>
          if descriptor = 1 then modify fun session => { session with sink := .file location }
          return true
        | .error _ => return false
  match direction with
  | .write => into (·.write target [])
  | .append => into (·.append target [])
  | .duplicate =>
    if descriptor = 1 && target = "2" then
      modify fun session => { session with sink := .nowhere }
    return true
  | .read =>
    if target = emptyDevice then
      modify fun session => { session with input := [] }
      return true
    else
      match store.read target with
      | .ok content =>
        modify fun session => { session with input := content }
        return true
      | .error _ => return false

/-- The numbers of signals that have names. -/
def signalNames : List (String × Nat) :=
  [("HUP", 1), ("INT", 2), ("QUIT", 3), ("ABRT", 6), ("KILL", 9), ("USR1", 10), ("SEGV", 11),
   ("USR2", 12), ("PIPE", 13), ("ALRM", 14), ("TERM", 15)]

/-- The signal that an option names. -/
def signal? (option : String) : Option Nat :=
  let name := (option.toList.drop 1)
  match Text.ofDigits? 10 name with
  | some number => some number
  | none =>
    let name := String.ofList name
    signalNames.lookup (if name.startsWith "SIG" then (name.drop 3).toString else name)

/-- Send a signal. Only the session's own process is known. -/
def kill (arguments : List String) : Interpreter Nat := do
  let (signal, processes) :=
    match arguments with
    | first :: rest => if first.startsWith "-" then (signal? first, rest) else (some 15, arguments)
    | [] => (none, [])
  match signal, processes with
  | some 0, [process] => return statusOf (process == processNumber)
  | some signal, [process] =>
    if process = processNumber then throw (.killed signal) else return 1
  | _, _ => return 1

/-- The status that an argument gives, or the last one. -/
def givenStatus (arguments : List String) : Interpreter Nat := do
  match arguments with
  | [] => return (← get).status
  | first :: _ =>
    match Text.ofDigits? 10 first.toList with
    | some status => return status % 256
    | none => return 2

/-- Go to another directory. -/
def changeDirectory (arguments : List String) : Interpreter Nat := do
  match (← get).store.find (arguments.head?.getD "") with
  | .ok (location, .directory) =>
    modify fun session =>
      { session with store := { session.store with workingDirectory := location } }
    return 0
  | _ => return 2

/-- Leave arguments out. -/
def shift (arguments : List String) : Interpreter Nat := do
  let count := ((arguments.head?.bind fun text => Text.ofDigits? 10 text.toList)).getD 1
  if (← get).arguments.length < count then return 2
  else
    modify fun session => { session with arguments := session.arguments.drop count }
    return 0

/-- Set the variables that arguments name together with a value. -/
def declare : List String → Interpreter Nat
  | [] => return 0
  | argument :: rest => do
    let name := argument.toList.takeWhile (· != '=')
    match argument.toList.drop name.length with
    | '=' :: value =>
      modify (·.set (String.ofList name) (String.ofList value))
      declare rest
    | _ => declare rest

/-- The commands that only the session itself can carry out. -/
def ownCommand? (name : String) : Option (List String → Interpreter Nat) :=
  match name with
  | ":" => some fun _ => return 0
  | "exit" => some fun arguments => do throw (.exited (← givenStatus arguments))
  | "break" => some fun _ => do throw .leftLoop
  | "continue" => some fun _ => do throw .nextRound
  | "kill" => some kill
  | "cd" => some changeDirectory
  | "shift" => some shift
  | "export" => some declare
  | "readonly" => some declare
  | "set" => some fun _ => return 0
  | "trap" => some fun _ => return 0
  | "wait" => some fun _ => return 0
  | _ => none

/-- Whether a text fits a pattern, in which a star stands for any text and a question mark for any
character. -/
def fits : Nat → List Char → List Char → Bool
  | 0, _, _ => false
  | _ + 1, [], text => text.isEmpty
  | fuel + 1, '*' :: pattern, text =>
    fits fuel pattern text ||
      match text with
      | _ :: rest => fits fuel ('*' :: pattern) rest
      | [] => false
  | fuel + 1, '?' :: pattern, _ :: rest => fits fuel pattern rest
  | fuel + 1, character :: pattern, first :: rest =>
    character == first && fits fuel pattern rest
  | _ + 1, _ :: _, [] => false

/-- The text of output that replaces the script that wrote it: without line ends at its end. -/
def replacement (written : Bytes) : String :=
  (Text.decode? (written.reverse.dropWhile (· == 10)).reverse).getD ""

mutual

/-- The text of a part of a word. -/
def partText : Nat → Part → Interpreter String
  | 0, _ => throw .timedOut
  | _ + 1, .literal _ text => return String.ofList text
  | _ + 1, .parameter _ name => do return (← get).parameterText name
  | fuel + 1, .arithmetic _ expression => do
    match readDouble? (expression.length + 2) [] (expression ++ ['"']) with
    | some (word, []) =>
      let text ← wordText fuel word
      match arithmetic? (← get).number? text.toList with
      | some value => return numeralText value
      | none => throw (.exited 2)
    | _ => throw (.exited 2)
  | fuel + 1, .output _ script => do
    let written ← outputOf (apart (untilExit (runText fuel script)))
    return replacement written

/-- The text of a word that is not split. -/
def wordText : Nat → Word → Interpreter String
  | 0, _ => throw .timedOut
  | _ + 1, [] => return ""
  | fuel + 1, part :: rest => do
    let text ← partText fuel part
    return text ++ (← wordText fuel rest)

/-- The texts of a word that is split. -/
def wordFields (fields : Fields) : Nat → Word → Interpreter Fields
  | 0, _ => throw .timedOut
  | _ + 1, [] => return fields
  | fuel + 1, .literal _ text :: rest => wordFields (fields.add text) fuel rest
  | fuel + 1, .parameter true "@" :: rest => do
    wordFields (fields.addEach (← get).arguments) fuel rest
  | fuel + 1, .parameter quoted name :: rest => do
    let text ← partText fuel (.parameter quoted name)
    wordFields (fields.addExpansion quoted text) fuel rest
  | fuel + 1, .arithmetic quoted expression :: rest => do
    let text ← partText fuel (.arithmetic quoted expression)
    wordFields (fields.addExpansion quoted text) fuel rest
  | fuel + 1, .output quoted script :: rest => do
    let text ← partText fuel (.output quoted script)
    wordFields (fields.addExpansion quoted text) fuel rest

/-- The texts of words. -/
def wordsTexts : Nat → List Word → Interpreter (List String)
  | 0, _ => throw .timedOut
  | _ + 1, [] => return []
  | fuel + 1, word :: rest => do
    let fields ← wordFields .none fuel word
    return fields.texts ++ (← wordsTexts fuel rest)

/-- Set variables. -/
def assign : Nat → List (String × Word) → Interpreter Unit
  | 0, _ => throw .timedOut
  | _ + 1, [] => return ()
  | fuel + 1, (name, word) :: rest => do
    let value ← wordText fuel word
    modify (·.set name value)
    assign fuel rest

/-- Follow redirections; tells whether all of them were possible. -/
def followRedirections : Nat → List Redirection → Interpreter Bool
  | 0, _ => throw .timedOut
  | _ + 1, [] => return true
  | fuel + 1, redirection :: rest => do
    let target ← wordText fuel redirection.target
    if ← openTarget redirection.descriptor redirection.direction target then
      followRedirections fuel rest
    else return false

/-- Run a program as a process of its own. -/
def runProgram : Nat → Program → Interpreter Unit
  | 0, _ => throw .timedOut
  | _ + 1, .nothing status => setStatus status
  | _ + 1, .utility steps => do setStatus (← steps)
  | fuel + 1, .script text name arguments => do
    modify fun session => { session with bindings := [], name, arguments, status := 0 }
    runText fuel text

/-- Run the program with a name as a process of its own. -/
def runNamed : Nat → String → List String → Interpreter Unit
  | 0, _, _ => throw .timedOut
  | fuel + 1, name, arguments => do
    match find (← get).store name arguments with
    | .ok program => apart (untilEnd (runProgram fuel program))
    | .error .notExecutable =>
      apart (untilEnd (runProgram fuel (interpreted (← get).store (name :: arguments))))
    | .error .notFound => setStatus 127
    | .error _ => setStatus 126

/-- Run a command that has become texts. -/
def runTexts : Nat → List String → Interpreter Unit
  | 0, _ => throw .timedOut
  | _ + 1, [] => return ()
  | _ + 1, ["exec"] => setStatus 0
  | fuel + 1, "exec" :: name :: arguments => do
    runNamed fuel name arguments
    throw (.exited (← get).status)
  | fuel + 1, name :: arguments => do
    match ownCommand? name, utility? true name with
    | some steps, _ => setStatus (← steps arguments)
    | none, some steps => setStatus (← steps arguments)
    | none, none => runNamed fuel name arguments

/-- Run the first branch with a pattern that fits a text. -/
def runBranches (subject : String) :
    Nat → List (List Word × List Command) → Interpreter Unit
  | 0, _ => throw .timedOut
  | _ + 1, [] => setStatus 0
  | fuel + 1, (patterns, body) :: rest => do
    let texts ← wordsTexts fuel patterns
    if texts.any fun pattern =>
        fits (pattern.length + subject.length + 1) pattern.toList subject.toList then
      setStatus 0
      runList fuel body
    else runBranches subject fuel rest

/-- Run a body for each of some texts. -/
def runEach (name : String) (body : List Command) : Nat → List String → Interpreter Unit
  | 0, _ => throw .timedOut
  | _ + 1, [] => return ()
  | fuel + 1, text :: rest => do
    modify (·.set name text)
    if ← runRound fuel body then runEach name body fuel rest

/-- Run the body of a loop once; tells whether the loop goes on. -/
def runRound : Nat → List Command → Interpreter Bool
  | 0, _ => throw .timedOut
  | fuel + 1, body => fun session =>
    match runList fuel body session with
    | .ok () after => .ok true after
    | .error .leftLoop after => .ok false (after.inLoop session)
    | .error .nextRound after => .ok true (after.inLoop session)
    | .error interruption after => .error interruption after

/-- Run the rounds of a loop, given the status of the last one. -/
def runLoop (untilSuccess : Bool) (condition body : List Command) (last : Nat) :
    Nat → Interpreter Unit
  | 0 => throw .timedOut
  | fuel + 1 => do
    runList fuel condition
    if ((← get).status == 0) == untilSuccess then setStatus last
    else if ← runRound fuel body then
      runLoop untilSuccess condition body (← get).status fuel

/-- Run a command. -/
def runCommand : Nat → Command → Interpreter Unit
  | 0, _ => throw .timedOut
  | fuel + 1, .simple assignments words redirections => do
    let texts ← wordsTexts fuel words
    let steps : Interpreter Unit := do
      if ← followRedirections fuel redirections then
        if texts.isEmpty then
          setStatus 0
          assign fuel assignments
        else runTexts fuel texts
      else setStatus 2
    if texts = ["exec"] then steps else redirected steps
  | fuel + 1, .both first second => do
    runCommand fuel first
    if (← get).status = 0 then runCommand fuel second
  | fuel + 1, .either first second => do
    runCommand fuel first
    if (← get).status ≠ 0 then runCommand fuel second
  | fuel + 1, .negated command => do
    runCommand fuel command
    setStatus (statusOf ((← get).status != 0))
  | fuel + 1, .piped first second => do
    let written ← outputOf (apart (untilExit (runCommand fuel first)))
    redirected do
      modify fun session => { session with input := written }
      apart (untilExit (runCommand fuel second))
  | fuel + 1, .group body => runList fuel body
  | fuel + 1, .subshell body => apart (untilExit (runList fuel body))
  | fuel + 1, .conditional condition yes no => do
    runList fuel condition
    if (← get).status = 0 then runList fuel yes
    else
      setStatus 0
      runList fuel no
  | fuel + 1, .loop untilSuccess condition body => runLoop untilSuccess condition body 0 fuel
  | fuel + 1, .forEach name words body => do
    let texts ←
      match words with
      | some words => wordsTexts fuel words
      | none => do pure (← get).arguments
    setStatus 0
    runEach name body fuel texts
  | fuel + 1, .choice subject branches => do
    runBranches (← wordText fuel subject) fuel branches
  | fuel + 1, .redirected command redirections =>
    redirected do
      if ← followRedirections fuel redirections then runCommand fuel command
      else setStatus 2

/-- Run commands one after another. -/
def runList : Nat → List Command → Interpreter Unit
  | 0, _ => throw .timedOut
  | _ + 1, [] => return ()
  | fuel + 1, command :: rest => do
    runCommand fuel command
    runList fuel rest

/-- Run a script; one that cannot be read fails. -/
def runText : Nat → List Char → Interpreter Unit
  | 0, _ => throw .timedOut
  | fuel + 1, text =>
    match commands? text with
    | some commands => runList fuel commands
    | none => setStatus 2

end

end Interpreter

end PowerTest.Shell
