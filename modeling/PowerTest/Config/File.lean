import PowerTest.Config.OfJson
import PowerTest.Config.OfYaml
import PowerTest.Store.Access

/-!
# Configuration files

A configuration file is read as JSON if its name ends in that extension and as YAML otherwise. When
no file is named, one in the working directory is read if it is there.
-/

namespace PowerTest

/-- Why a configuration file cannot be read. -/
inductive ConfigFault
  | notYaml
  | notJson
  | inputOutput (fault : Fault)
  deriving DecidableEq, Repr

/-- A configuration file that cannot be read, and why. -/
structure LoadFailure where
  path : String
  cause : ConfigFault
  deriving DecidableEq, Repr

/-- The wording of a failure to load a configuration. -/
def LoadFailure.message (failure : LoadFailure) : String :=
  "failed to load config " ++ failure.path

namespace Config

/-- The configuration file that is read when none is named. -/
def standardPath : String := "config.yaml"

/-- The configuration that the text of a file holds. -/
def ofText (path text : String) : Except ConfigFault Config :=
  if Path.extension? path = some "json" then
    match ofJson? text with
    | some config => .ok config
    | none => .error .notJson
  else
    match ofYaml? text with
    | some config => .ok config
    | none => .error .notYaml

/-- The configuration in a file. -/
def ofFile (store : Store) (path : String) : Except ConfigFault Config :=
  match store.readText path with
  | .ok text => ofText path text
  | .error fault => .error (.inputOutput fault)

/-- The configuration in a file that has to be there. -/
def loadFrom (store : Store) (path : String) : Except LoadFailure Config :=
  match ofFile store path with
  | .ok config => .ok config
  | .error cause => .error ⟨path, cause⟩

/-- The configuration in the file that is named, or else in the standard one; without that, the
standard configuration. -/
def load (store : Store) (named : Option String) : Except LoadFailure Config :=
  match named with
  | some path => loadFrom store path
  | none => if store.hasNode standardPath then loadFrom store standardPath else .ok .standard

end Config

end PowerTest
