import PowerTest.Shell.Utility

/-!
# Programs

What a program name or the path of a file stands for: a utility, or a script of the command
language. A file that can be run names the program that reads it in its first line.
-/

namespace PowerTest.Shell

/-- Something that can be run. -/
inductive Program
  | utility (steps : Interpreter Nat)
  | script (text : List Char) (name : String) (arguments : List String)
  /-- Something that ends at once with a status. -/
  | nothing (status : Nat)

/-- The names of the command language's interpreter. -/
def interpreterNames : List String := ["sh", "dash", "bash"]

/-- Whether an argument is an option that asks for the script in the next argument. -/
def asksForText (argument : String) : Bool :=
  argument.startsWith "-" && argument.toList.getLast? == some 'c'

/-- The script that arguments of the interpreter ask for. -/
def interpreted (store : Store) : List String → Program
  | [] => .nothing 0
  | first :: rest =>
    if asksForText first then
      match rest with
      | [] => .nothing 2
      | text :: rest => .script text.toList (rest.head?.getD "sh") (rest.drop 1)
    else if first.startsWith "-" then interpreted store rest
    else
      match store.readText first with
      | .ok text => .script text.toList first rest
      | .error _ => .nothing 127

/-- The program with a name. -/
def named? (store : Store) (name : String) (arguments : List String) : Option Program :=
  if interpreterNames.contains name then some (interpreted store arguments)
  else (utility? false name).map fun steps => .utility (steps arguments)

/-- The directories in which programs are looked up by name. -/
def programDirectories : List String := ["/usr/local/bin", "/usr/bin", "/bin"]

/-- The words of the first line of a file that names its reader. -/
def readerWords? (content : Bytes) : Option (List String) :=
  match content with
  | 35 :: 33 :: rest =>
    (Text.decode? (rest.takeWhile (· != 10))).map fun line =>
      ((Text.cut (fun character => character == ' ' || character == '\t') line.toList).filter
        (!·.isEmpty)).map String.ofList
  | _ => none

/-- Whether the words of a first line name the command language's interpreter. -/
def namesInterpreter (words : List String) : Bool :=
  let isInterpreter (path : String) : Bool :=
    interpreterNames.contains ((Path.fileName? path).getD "")
  match words with
  | first :: second :: _ => isInterpreter first || (first.endsWith "/env" && isInterpreter second)
  | [first] => isInterpreter first
  | [] => false

/-- The program in a file, if it can be started. -/
def inFile (store : Store) (path : String) (arguments : List String) : Except Fault Program :=
  match store.find path with
  | .error fault =>
    match programDirectories.find? fun directory => path.startsWith (directory ++ "/") with
    | none => .error fault
    | some directory =>
      match named? store (path.drop (directory.length + 1)).toString arguments with
      | some program => .ok program
      | none => .error fault
  | .ok (_, .directory) => .error .permissionDenied
  | .ok (_, .file false _) => .error .permissionDenied
  | .ok (_, .file true content) =>
    match readerWords? content with
    | none => .error .notExecutable
    | some words =>
      if namesInterpreter words then
        match Text.decode? content with
        | some text => .ok (.script text.toList path arguments)
        | none => .error .notExecutable
      else .error .notFound

/-- The program of a command, which is looked up by name unless it is a path. -/
def find (store : Store) (program : String) (arguments : List String) : Except Fault Program :=
  if program.toList.contains '/' then inFile store program arguments
  else
    match named? store program arguments with
    | some program => .ok program
    | none => .error .notFound

end PowerTest.Shell
