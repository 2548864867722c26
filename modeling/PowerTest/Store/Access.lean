import PowerTest.Store.Basic
import PowerTest.Store.Fault
import PowerTest.Store.Path

/-!
# Access by path

Paths are followed name by name through a store: every name but the last must lead to a directory,
two dots lead to the directory above, and a slash at the end asks for a directory. The operations
give either a fault or the store afterwards, so a failed one leaves the store as it was.
-/

namespace PowerTest

/-- What a path leads to. -/
inductive Target
  | present (location : Location) (node : Node)
  /-- Nothing stands at the location, and it lies in a directory. -/
  | absent (location : Location)
  deriving Repr

namespace Store

/-- The greatest number of bytes in a name. -/
def longestName : Nat := 255

/-- The least number of bytes that a path cannot have. -/
def tooLongPath : Nat := 4096

/-- The absolute path of a location. -/
def pathOf (location : Location) : String := "/" ++ "/".intercalate location

/-- Follow names from a location. -/
def walk (store : Store) (location : Location) : List String → Except Fault Target
  | [] =>
    match store.node? location with
    | some node => .ok (.present location node)
    | none => .error .notFound
  | name :: rest =>
    match store.node? location with
    | none => .error .notFound
    | some (.file _ _) => .error .notADirectory
    | some .directory =>
      if name = "." then store.walk location rest
      else if name = ".." then store.walk location.dropLast rest
      else if longestName < name.utf8ByteSize then .error .nameTooLong
      else
        match rest, store.node? (location ++ [name]) with
        | [], none => .ok (.absent (location ++ [name]))
        | _, _ => store.walk (location ++ [name]) rest

/-- Follow a path, a slash at its end taken away. -/
def locate (store : Store) (path : String) : Except Fault Target :=
  if path.isEmpty then .error .notFound
  else if path.toList.contains '\x00' then .error .nullInPath
  else if tooLongPath ≤ path.utf8ByteSize then .error .nameTooLong
  else
    store.walk (if Path.isAbsolute path then [] else store.workingDirectory) (Path.names path)

/-- What stands where a path leads, and its location. -/
def find (store : Store) (path : String) : Except Fault (Location × Node) :=
  match store.locate path with
  | .error fault => .error fault
  | .ok (.absent _) => .error .notFound
  | .ok (.present location node) =>
    match node with
    | .directory => .ok (location, node)
    | .file _ _ => if Path.endsInSlash path then .error .notADirectory else .ok (location, node)

/-- Whether a path leads to anything. -/
def hasNode (store : Store) (path : String) : Bool :=
  (store.find path).toOption.isSome

/-- Whether a path leads to a directory. -/
def isDirectory (store : Store) (path : String) : Bool :=
  match store.find path with
  | .ok (_, .directory) => true
  | _ => false

/-- Whether a path leads to a regular file. -/
def isFile (store : Store) (path : String) : Bool :=
  match store.find path with
  | .ok (_, .file _ _) => true
  | _ => false

/-- The bytes of the file that a path leads to. -/
def read (store : Store) (path : String) : Except Fault Bytes :=
  match store.find path with
  | .error fault => .error fault
  | .ok (_, .directory) => .error .isADirectory
  | .ok (_, .file _ content) => .ok content

/-- The text of the file that a path leads to. -/
def readText (store : Store) (path : String) : Except Fault String :=
  match store.read path with
  | .error fault => .error fault
  | .ok content =>
    match Text.decode? content with
    | some text => .ok text
    | none => .error .undecodable

/-- The location of the file that a path leads to or that can be made there, with the mark and the
content that the file has already. -/
def destination (store : Store) (path : String) : Except Fault (Location × Bool × Bytes) :=
  match store.locate path with
  | .error fault => .error fault
  | .ok (.present _ .directory) => .error .isADirectory
  | .ok (.present location (.file executable content)) =>
    if Path.endsInSlash path then .error .isADirectory else .ok (location, executable, content)
  | .ok (.absent location) =>
    if Path.endsInSlash path then .error .isADirectory else .ok (location, false, [])

/-- Give the file that a path leads to a new content, making the file if there is none. -/
def write (store : Store) (path : String) (content : Bytes) : Except Fault Store :=
  match store.destination path with
  | .error fault => .error fault
  | .ok (location, executable, _) => .ok (store.put location (.file executable content))

/-- Add to the end of the file that a path leads to, making the file if there is none. -/
def append (store : Store) (path : String) (more : Bytes) : Except Fault Store :=
  match store.destination path with
  | .error fault => .error fault
  | .ok (location, executable, content) =>
    .ok (store.put location (.file executable (content ++ more)))

/-- Copy a file and its mark. The destination is emptied before the source is read, so copying a
file onto itself empties it. -/
def copy (store : Store) (source destination : String) : Except Fault Store :=
  match store.find source with
  | .error fault => .error fault
  | .ok (_, .directory) => .error (.described
      "the source path is neither a regular file nor a symlink to a regular file")
  | .ok (location, .file executable content) =>
    match store.destination destination with
    | .error fault => .error fault
    | .ok (target, _, _) =>
      .ok (store.put target (.file executable (if target = location then [] else content)))

/-- Remove the file that a path leads to. -/
def remove (store : Store) (path : String) : Except Fault Store :=
  match store.find path with
  | .error fault => .error fault
  | .ok (_, .directory) => .error .isADirectory
  | .ok (location, .file _ _) => .ok (store.erase location)

/-- Make a directory in a directory that exists. -/
def makeDirectory (store : Store) (path : String) : Except Fault Store :=
  match store.locate path with
  | .error fault => .error fault
  | .ok (.present _ _) => .error .alreadyExists
  | .ok (.absent location) => .ok (store.put location .directory)

/-- A path and the paths above it that can be missing, longest first: all but the root and the
empty path. At most `fuel` steps are taken. -/
def ancestors : Nat → String → List String
  | 0, _ => []
  | fuel + 1, path =>
    match Path.parent? path with
    | none => []
    | some parent => path :: ancestors fuel parent

/-- The paths, longest first, that have to be made before the longest one can be, or the fault
that keeps one from being made. Making stops at the first that can be made or is a directory
already, and gives the store afterwards. -/
def makeNearest (store : Store) : List String → Except Fault (Store × List String)
  | [] => .ok (store, [])
  | path :: above =>
    match store.makeDirectory path with
    | .ok after => .ok (after, [])
    | .error .notFound =>
      match store.makeNearest above with
      | .ok (after, missing) => .ok (after, path :: missing)
      | .error fault => .error fault
    | .error .alreadyExists =>
      if store.isDirectory path then .ok (store, []) else .error .alreadyExists
    | .error fault => .error fault

/-- Make directories, shortest path first. What was made before a fault stays. -/
def makeEach (store : Store) : List String → Store × Option Fault
  | [] => (store, none)
  | path :: rest =>
    match store.makeDirectory path with
    | .ok after => after.makeEach rest
    | .error fault =>
      if fault = .alreadyExists && store.isDirectory path then store.makeEach rest
      else (store, some fault)

/-- Make a directory and the directories above it that are missing. Nothing is needed for the empty
path. -/
def makeDirectories (store : Store) (path : String) : Store × Option Fault :=
  if path.isEmpty then (store, none)
  else
    match store.makeNearest (ancestors (path.length + 1) path) with
    | .error fault => (store, some fault)
    | .ok (after, missing) => after.makeEach missing.reverse

end Store

end PowerTest
