import PowerTest.CommandLine.Run
import Std.Time.DateTime.Timestamp

/-!
# The executable

The outer layer: the files below the working directory become a store, one use of the program is
computed, and what it changed is written back. A file counts as one that can be run if it starts by
naming its reader.
-/

namespace PowerTest

/-- Whether a file starts by naming its reader. -/
def namesReader (content : Bytes) : Bool := content.take 2 == [35, 33]

/-- The nodes at and below directory entries. -/
partial def readEntries (above : Location) (entries : Array IO.FS.DirEntry) :
    IO (List (Location × Node)) := do
  let mut nodes := []
  for entry in entries do
    let location := above ++ [entry.fileName]
    match (← entry.path.symlinkMetadata).type with
    | .dir =>
      nodes := (location, Node.directory) :: (← readEntries location (← entry.path.readDir)) ++ nodes
    | .file =>
      let content := (← IO.FS.readBinFile entry.path).data.toList
      nodes := (location, .file (namesReader content) content) :: nodes
    | _ => pure ()
  return nodes

/-- The store of what lies below the working directory. -/
def readStore : IO Store := do
  let directory ← IO.currentDir
  let location := Path.names directory.toString
  let nodes ← readEntries location (← directory.readDir)
  let store := Store.empty location
  return { store with entries := nodes ++ store.entries }

/-- Write one node. -/
def writeNode (location : Location) : Node → IO Unit
  | .directory => IO.FS.createDirAll (Store.pathOf location)
  | .file executable content => do
    IO.FS.createDirAll (Store.pathOf location.dropLast)
    IO.FS.writeBinFile (Store.pathOf location) ⟨content.toArray⟩
    if executable then
      let right : IO.AccessRight := ⟨true, true, true⟩
      IO.setAccessRights (Store.pathOf location) ⟨right, right, right⟩

/-- Remove one node. -/
def removeNode (location : Location) : Node → IO Unit
  | .directory => IO.FS.removeDir (Store.pathOf location)
  | .file _ _ => IO.FS.removeFile (Store.pathOf location)

/-- Write what has changed between two stores: first what is gone, the deepest first. -/
def writeChanges (before after : Store) : IO Unit := do
  let gone := before.entries.filter fun (location, _) => (after.node? location).isNone
  for (location, node) in gone.mergeSort fun first second =>
      second.1.length ≤ first.1.length do
    removeNode location node
  for (location, node) in after.entries do
    if before.node? location != some node then writeNode location node

end PowerTest

/-- One use of the program on the files below the working directory. -/
def main (arguments : List String) : IO UInt32 := do
  let now ← Std.Time.Timestamp.now
  let before ← PowerTest.readStore
  let (outcome, after) :=
    PowerTest.CommandLine.use arguments now.toMillisecondsSinceUnixEpoch.val before
  PowerTest.writeChanges before after
  IO.print outcome.printed
  match outcome.complaint with
  | some message => IO.eprintln ("Error: " ++ message)
  | none => pure ()
  return outcome.status.toUInt32
