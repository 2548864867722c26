import PowerTest.Number.Numeral
import PowerTest.Pipeline.Stage

/-!
# Arguments

What the arguments of the program ask for. Some options count for all commands and can stand before
or after the command's name, where the later place wins; an option given twice in one place is
refused, and so is everything else that is not understood.
-/

namespace PowerTest.CommandLine

/-- What an option sets. -/
inductive Setting
  | config
  | scaleFactor
  | outputDirectory
  | metricOnly
  | log
  | output
  deriving DecidableEq, Repr

/-- Whether an option takes a value. -/
def Setting.takesValue (setting : Setting) : Bool := setting != .metricOnly

/-- A place where options can stand: before any command, or behind the name of one. -/
inductive Place
  | top
  | run
  | score
  | validate
  | generateConfig
  deriving DecidableEq, Repr

namespace Place

/-- The place behind the name of a command. -/
def ofCommand? : String → Option Place
  | "run" => some run
  | "score" => some score
  | "validate" => some validate
  | "generate-config" => some generateConfig
  | _ => none

/-- The settings that can be made in a place. -/
def settings : Place → List Setting
  | top => [.config, .scaleFactor, .outputDirectory, .metricOnly]
  | score => [.config, .scaleFactor, .outputDirectory, .log]
  | generateConfig => [.config, .scaleFactor, .outputDirectory, .output]
  | _ => [.config, .scaleFactor, .outputDirectory]

end Place

/-- The long names of options. -/
def longNames : List (String × Setting) :=
  [("config", .config), ("scale-factor", .scaleFactor), ("output-dir", .outputDirectory),
   ("run", .metricOnly), ("metric-only", .metricOnly), ("log", .log), ("output", .output)]

/-- The letters of options. -/
def letters : List (Char × Setting) :=
  [('c', .config), ('r', .metricOnly), ('l', .log), ('o', .output)]

/-- What a setting is set to. -/
inductive Value
  | flag
  | path (text : String)
  | factor (value : Float)

/-- Why arguments lead to no command. -/
inductive Ending
  /-- They ask how the program is used. -/
  | help
  | refused
  deriving DecidableEq, Repr

/-- What the program is to do. -/
inductive Task
  | run (mode : RunMode)
  | score (log : String)
  | validate
  | generateConfig (path : String)
  deriving DecidableEq, Repr

/-- What the arguments ask for. -/
structure Request where
  config : Option String
  scaleFactor : Option Float
  outputDirectory : Option String
  task : Task

/-- The arguments read so far. -/
structure Reading where
  place : Place
  /-- The settings made before the command's name. -/
  outer : List (Setting × Value)
  /-- The settings made in this place. -/
  inner : List (Setting × Value)
  /-- The option whose value is next. -/
  pending : Option Setting

namespace Reading

/-- Nothing has been read. -/
def start : Reading := ⟨.top, [], [], none⟩

/-- Make a setting, unless it has been made in this place. -/
def set (reading : Reading) (setting : Setting) (value : Value) : Except Ending Reading :=
  if (reading.inner.lookup setting).isSome then .error .refused
  else .ok { reading with inner := (setting, value) :: reading.inner, pending := none }

/-- Make a setting from a text: a number for the scale factor, a path that is not empty for all
others. -/
def setText (reading : Reading) (setting : Setting) (text : String) : Except Ending Reading :=
  match setting with
  | .metricOnly => .error .refused
  | .scaleFactor =>
    match Number.readFloat text.toList with
    | .ok value => reading.set setting (.factor value)
    | .error _ => .error .refused
  | _ => if text.isEmpty then .error .refused else reading.set setting (.path text)

/-- Begin a setting whose option has been read without a value. -/
def begin (reading : Reading) (setting : Setting) : Except Ending Reading :=
  if (reading.inner.lookup setting).isSome then .error .refused
  else if setting.takesValue then .ok { reading with pending := some setting }
  else reading.set setting .flag

/-- The setting of an option in this place. -/
def known? (reading : Reading) (setting : Option Setting) : Option Setting :=
  setting.bind fun setting =>
    if reading.place.settings.contains setting then some setting else none

/-- Read an option with a long name, its dashes taken away. -/
def readLong (reading : Reading) (text : List Char) : Except Ending Reading :=
  let name := text.takeWhile (· != '=')
  match reading.known? (longNames.lookup (String.ofList name)), text.drop name.length with
  | some setting, [] => reading.begin setting
  | some setting, _ :: value => reading.setText setting (String.ofList value)
  | none, [] => .error (if String.ofList name = "help" then .help else .refused)
  | none, _ :: _ => .error .refused

/-- Read the letters of options behind one dash. What follows the letter of an option with a value
is that value. -/
def readLetters (reading : Reading) : List Char → Except Ending Reading
  | [] => .ok reading
  | 'h' :: _ => .error .help
  | letter :: rest =>
    match reading.known? (letters.lookup letter) with
    | none => .error .refused
    | some setting =>
      if setting.takesValue then
        match rest with
        | [] => reading.begin setting
        | '=' :: value => reading.setText setting (String.ofList value)
        | value => reading.setText setting (String.ofList value)
      else
        match reading.set setting .flag with
        | .ok next => next.readLetters rest
        | .error ending => .error ending

/-- The end of arguments that start with the command that explains others. -/
def helpEnding : List String → Ending
  | [] => .help
  | [name] => if name = "help" || (Place.ofCommand? name).isSome then .help else .refused
  | _ => .refused

/-- Read an argument that is no option; only the name of a command can be one. -/
def readName (reading : Reading) (name : String) (rest : List String) : Except Ending Reading :=
  if reading.place = .top then
    if name = "help" then .error (helpEnding rest)
    else
      match Place.ofCommand? name with
      | some place => .ok ⟨place, reading.inner, [], none⟩
      | none => .error .refused
  else .error .refused

/-- Whether an argument is an option. -/
def isOption (argument : String) : Bool := argument.startsWith "-" && argument != "-"

/-- Read one argument, given those behind it. -/
def readOne (reading : Reading) (argument : String) (rest : List String) :
    Except Ending Reading :=
  match reading.pending with
  | some setting =>
    if isOption argument then .error .refused else reading.setText setting argument
  | none =>
    match argument.toList with
    | ['-', '-'] => if rest.isEmpty then .ok reading else .error .refused
    | ['-'] => reading.readName argument rest
    | '-' :: '-' :: text => reading.readLong text
    | '-' :: text => reading.readLetters text
    | _ => reading.readName argument rest

/-- Read arguments one after another. -/
def readAll (reading : Reading) : List String → Except Ending Reading
  | [] => if reading.pending.isSome then .error .refused else .ok reading
  | argument :: rest =>
    match reading.readOne argument rest with
    | .ok next => next.readAll rest
    | .error ending => .error ending

/-- The value of a setting; the place behind the command's name wins. -/
def value? (reading : Reading) (setting : Setting) : Option Value :=
  match reading.inner.lookup setting with
  | some value => some value
  | none => reading.outer.lookup setting

/-- The path that a setting is set to. -/
def path? (reading : Reading) (setting : Setting) : Option String :=
  match reading.value? setting with
  | some (.path text) => some text
  | _ => none

/-- The scale factor that is given. -/
def factor? (reading : Reading) : Option Float :=
  match reading.value? .scaleFactor with
  | some (.factor value) => some value
  | _ => none

/-- The mode that a run is asked for in. -/
def mode (reading : Reading) : RunMode :=
  if (reading.value? .metricOnly).isSome then .metricOnly else .full

/-- Where the sample configuration is written unless a path is given. -/
def standardOutput : String := "config.yaml"

/-- What the program is to do. A run is asked for by its name or by naming no command. -/
def task (reading : Reading) : Except Ending Task :=
  match reading.place with
  | .top => .ok (.run reading.mode)
  | .run => .ok (.run reading.mode)
  | .validate => .ok .validate
  | .generateConfig => .ok (.generateConfig ((reading.path? .output).getD standardOutput))
  | .score =>
    match reading.path? .log with
    | some log => .ok (.score log)
    | none => .error .refused

end Reading

/-- What the arguments ask for. -/
def Request.ofArguments (arguments : List String) : Except Ending Request := do
  let reading ← Reading.start.readAll arguments
  let task ← reading.task
  return { config := reading.path? .config, scaleFactor := reading.factor?,
           outputDirectory := reading.path? .outputDirectory, task }

end PowerTest.CommandLine
