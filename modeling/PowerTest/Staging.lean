import PowerTest.Failure

/-!
# Staging

Copying what the generator needs into the output directory, removing it again, and making a fresh
directory for each run of the benchmark.
-/

namespace PowerTest

/-- Make a directory and those above it, unless the path leads somewhere already. -/
def ensureDirectory (directory : String) : Files Unit := fun store =>
  if store.hasNode directory then .ok () store
  else
    match store.makeDirectories directory with
    | (after, none) => .ok () after
    | (after, some fault) => .error (.inputOutput directory fault) after

/-- Copy one file between directories. -/
def copyFile (origin target name : String) : Files Unit := fun store =>
  let source := Path.join origin name
  let destination := Path.join target name
  if store.isFile source then
    Files.change (.destinationWrite destination) (·.copy source destination) store
  else .error (.sourceNotFound source) store

/-- Copy files between directories, one after another. -/
def copyFiles (origin target : String) : List String → Files Unit
  | [] => pure ()
  | name :: rest => do
    copyFile origin target name
    copyFiles origin target rest

/-- Remove files from a directory, one after another; each has to be there. -/
def removeFiles (directory : String) : List String → Files Unit
  | [] => pure ()
  | name :: rest => do
    let path := Path.join directory name
    Files.change (.ofSource path) (·.remove path)
    removeFiles directory rest

/-- The name of a run directory: the milliseconds since the epoch, none before it. -/
def runDirectoryName (now : Int) : String := Text.decimal now.toNat

/-- Make the directory of a run that starts now. It must not be there yet, so no two runs share
one. -/
def createRunDirectory (now : Int) (parent : String) : Files String := do
  let path := Path.join parent (runDirectoryName now)
  Files.change (.inputOutput path) (·.makeDirectory path)
  pure path

end PowerTest
