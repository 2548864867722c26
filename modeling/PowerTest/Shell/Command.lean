import PowerTest.Shell.Word

/-!
# Commands

A script as a list of commands. Reserved words count only where a command can start and only if no
part of them is quoted.
-/

namespace PowerTest.Shell

/-- A change of where a command reads from or writes to. -/
structure Redirection where
  descriptor : Nat
  direction : Direction
  target : Word
  deriving DecidableEq, Repr

/-- A command. -/
inductive Command
  | simple (assignments : List (String × Word)) (words : List Word)
      (redirections : List Redirection)
  /-- The second command runs if the first succeeds. -/
  | both (first second : Command)
  /-- The second command runs if the first fails. -/
  | either (first second : Command)
  | negated (command : Command)
  /-- The second command reads what the first writes. -/
  | piped (first second : Command)
  | group (body : List Command)
  /-- A group whose variables and directory are its own. -/
  | subshell (body : List Command)
  | conditional (condition yes no : List Command)
  /-- A body that is repeated while a condition succeeds, or until it does. -/
  | loop (untilSuccess : Bool) (condition body : List Command)
  /-- A body that is run for each of some words, or for each argument. -/
  | forEach (name : String) (words : Option (List Word)) (body : List Command)
  /-- The first branch with a pattern that fits. -/
  | choice (subject : Word) (branches : List (List Word × List Command))
  | redirected (command : Command) (redirections : List Redirection)

/-- Steps that take tokens of a script. -/
abbrev Reader := StateT (List Token) Option

namespace Reader

/-- The next token. -/
def peek : Reader (Option Token) := do
  return (← get).head?

/-- Leave the next token out. -/
def skip : Reader Unit := modify (List.drop 1)

/-- Whether an operator is next; it is taken if so. -/
def takeOperator (mark : String) : Reader Bool := do
  if (← peek) = some (.operator mark) then
    skip
    return true
  else return false

/-- The text of a word without quotes and expansions. -/
def plainText? : Word → Option String
  | [.literal false text] => some (String.ofList text)
  | _ => none

/-- Whether a reserved word is next; it is taken if so. -/
def takeReserved (text : String) : Reader Bool := do
  match ← peek with
  | some (.word word) =>
    if plainText? word = some text then
      skip
      return true
    else return false
  | _ => return false

/-- Take a reserved word that has to be there. -/
def needReserved (text : String) : Reader Unit := do
  if ← takeReserved text then return () else failure

/-- Take an operator that has to be there. -/
def needOperator (mark : String) : Reader Unit := do
  if ← takeOperator mark then return () else failure

/-- Take a word that has to be there. -/
def needWord : Reader Word := do
  match ← peek with
  | some (.word word) =>
    skip
    return word
  | _ => failure

/-- Take a name that has to be there. -/
def needName : Reader String := do
  match plainText? (← needWord) with
  | some name => return name
  | none => failure

/-- The words that end a list of commands. -/
def closers : List String := ["then", "else", "elif", "fi", "do", "done", "esac", "\x7d"]

/-- Whether a list of commands ends here. -/
def atClose : Reader Bool := do
  match ← peek with
  | none => return true
  | some (.operator mark) => return mark == ")" || mark == ";;"
  | some (.word word) =>
    match plainText? word with
    | some text => return closers.contains text
    | none => return false
  | some (.redirection _ _) => return false

/-- The name and the value of an assignment. -/
def assignment? (word : Word) : Option (String × Word) :=
  match word with
  | .literal false text :: rest =>
    let name := text.takeWhile (· != '=')
    match text.drop name.length with
    | '=' :: value =>
      if name.head?.any startsName && name.all inName then
        some (String.ofList name, if value.isEmpty then rest else .literal false value :: rest)
      else none
    | _ => none
  | _ => none

/-- Leave line ends out. -/
def skipLines : Nat → Reader Unit
  | 0 => return ()
  | fuel + 1 => do
    if ← takeOperator "\n" then skipLines fuel

/-- Leave the ends of commands out, and tell whether there was one. -/
def skipEnds : Nat → Bool → Reader Bool
  | 0, found => return found
  | fuel + 1, found => do
    if ← takeOperator "\n" then skipEnds fuel true
    else if ← takeOperator ";" then skipEnds fuel true
    else return found

/-- The redirections that are next. -/
def readRedirections : Nat → Reader (List Redirection)
  | 0 => failure
  | fuel + 1 => do
    match ← peek with
    | some (.redirection descriptor direction) =>
      skip
      let target ← needWord
      return ⟨descriptor, direction, target⟩ :: (← readRedirections fuel)
    | _ => return []

/-- A command of assignments, words and redirections. -/
def readSimple (assignments : List (String × Word)) (words : List Word)
    (redirections : List Redirection) : Nat → Reader Command
  | 0 => failure
  | fuel + 1 => do
    match ← peek with
    | some (.redirection descriptor direction) =>
      skip
      let target ← needWord
      readSimple assignments words (redirections ++ [⟨descriptor, direction, target⟩]) fuel
    | some (.word word) =>
      skip
      match words.isEmpty, assignment? word with
      | true, some assignment => readSimple (assignments ++ [assignment]) words redirections fuel
      | _, _ => readSimple assignments (words ++ [word]) redirections fuel
    | _ =>
      if assignments.isEmpty && words.isEmpty && redirections.isEmpty then failure
      else return .simple assignments words redirections

/-- Words up to the end of a command. -/
def readWords : Nat → Reader (List Word)
  | 0 => failure
  | fuel + 1 => do
    match ← peek with
    | some (.word word) =>
      skip
      return word :: (← readWords fuel)
    | _ => return []

/-- The patterns of a branch. -/
def readPatterns : Nat → Reader (List Word)
  | 0 => failure
  | fuel + 1 => do
    let pattern ← needWord
    if ← takeOperator "|" then return pattern :: (← readPatterns fuel)
    else return [pattern]

mutual

/-- Commands up to what ends their list. -/
def readList : Nat → Reader (List Command)
  | 0 => failure
  | fuel + 1 => do
    let _ ← skipEnds fuel false
    if ← atClose then return []
    else
      let command ← readSequence fuel
      let ended ← skipEnds fuel false
      if ended || (← atClose) then return command :: (← readList fuel) else failure

/-- Commands between which success decides. -/
def readSequence : Nat → Reader Command
  | 0 => failure
  | fuel + 1 => do readSequenceFrom (← readPipeline fuel) fuel

/-- The rest of a sequence of which a part is known. -/
def readSequenceFrom (known : Command) : Nat → Reader Command
  | 0 => failure
  | fuel + 1 => do
    if ← takeOperator "&&" then
      skipLines fuel
      readSequenceFrom (.both known (← readPipeline fuel)) fuel
    else if ← takeOperator "||" then
      skipLines fuel
      readSequenceFrom (.either known (← readPipeline fuel)) fuel
    else return known

/-- Commands of which each reads what the one before writes. -/
def readPipeline : Nat → Reader Command
  | 0 => failure
  | fuel + 1 => do
    let negated ← takeReserved "!"
    let command ← readPipelineFrom (← readCommand fuel) fuel
    return if negated then .negated command else command

/-- The rest of a pipeline of which a part is known. -/
def readPipelineFrom (known : Command) : Nat → Reader Command
  | 0 => failure
  | fuel + 1 => do
    if ← takeOperator "|" then
      skipLines fuel
      readPipelineFrom (.piped known (← readCommand fuel)) fuel
    else return known

/-- A single command. -/
def readCommand : Nat → Reader Command
  | 0 => failure
  | fuel + 1 => do
    match ← readCompound fuel with
    | none => readSimple [] [] [] fuel
    | some command =>
      let redirections ← readRedirections fuel
      return if redirections.isEmpty then command else .redirected command redirections

/-- A command that starts with a reserved word or a parenthesis, if one is next. -/
def readCompound : Nat → Reader (Option Command)
  | 0 => failure
  | fuel + 1 => do
    if ← takeOperator "(" then
      let body ← readList fuel
      needOperator ")"
      return some (.subshell body)
    else if ← takeReserved "\x7b" then
      let body ← readList fuel
      needReserved "\x7d"
      return some (.group body)
    else if ← takeReserved "if" then return some (← readConditional fuel)
    else if ← takeReserved "while" then return some (← readLoop false fuel)
    else if ← takeReserved "until" then return some (← readLoop true fuel)
    else if ← takeReserved "for" then return some (← readForEach fuel)
    else if ← takeReserved "case" then return some (← readChoice fuel)
    else return none

/-- A conditional whose first word has been read. -/
def readConditional : Nat → Reader Command
  | 0 => failure
  | fuel + 1 => do
    let condition ← readList fuel
    needReserved "then"
    let yes ← readList fuel
    if ← takeReserved "elif" then return .conditional condition yes [← readConditional fuel]
    else
      let no ← if ← takeReserved "else" then readList fuel else pure []
      needReserved "fi"
      return .conditional condition yes no

/-- A loop whose first word has been read. -/
def readLoop (untilSuccess : Bool) : Nat → Reader Command
  | 0 => failure
  | fuel + 1 => do
    let condition ← readList fuel
    needReserved "do"
    let body ← readList fuel
    needReserved "done"
    return .loop untilSuccess condition body

/-- A loop over words whose first word has been read. -/
def readForEach : Nat → Reader Command
  | 0 => failure
  | fuel + 1 => do
    let name ← needName
    skipLines fuel
    let words ← if ← takeReserved "in" then some <$> readWords fuel else pure none
    let _ ← skipEnds fuel false
    needReserved "do"
    let body ← readList fuel
    needReserved "done"
    return .forEach name words body

/-- A choice whose first word has been read. -/
def readChoice : Nat → Reader Command
  | 0 => failure
  | fuel + 1 => do
    let subject ← needWord
    skipLines fuel
    needReserved "in"
    let branches ← readBranches fuel
    needReserved "esac"
    return .choice subject branches

/-- The branches of a choice. -/
def readBranches : Nat → Reader (List (List Word × List Command))
  | 0 => failure
  | fuel + 1 => do
    let _ ← skipEnds fuel false
    if ← atClose then return []
    else
      let _ ← takeOperator "("
      let patterns ← readPatterns fuel
      needOperator ")"
      let body ← readList fuel
      let more ← takeOperator ";;"
      let others ← if more then readBranches fuel else pure []
      return (patterns, body) :: others

end

end Reader

/-- The commands of a script, if it can be read. -/
def commands? (script : List Char) : Option (List Command) := do
  let tokens ← tokens? script
  let (commands, left) ← (Reader.readList (8 * tokens.length + 8)).run tokens
  if left.isEmpty then some commands else none

end PowerTest.Shell
