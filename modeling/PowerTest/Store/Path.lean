import PowerTest.Text.Cut

/-!
# Paths

A path is a text of names separated by slashes. Joining keeps both texts as they are, except that
an absolute path stands for itself whatever it is joined to.
-/

namespace PowerTest.Path

/-- The names between the slashes of a path, empty ones left out. -/
def names (path : String) : List String :=
  ((Text.cut (· == '/') path.toList).filter (!·.isEmpty)).map String.ofList

/-- Whether a path starts at the root. -/
def isAbsolute (path : String) : Bool :=
  path.toList.head? == some '/'

/-- Whether a path ends in a slash. -/
def endsInSlash (path : String) : Bool :=
  path.toList.getLast? == some '/'

/-- A path followed from a directory. -/
def join (directory path : String) : String :=
  if isAbsolute path then path
  else if directory.isEmpty || endsInSlash directory then directory ++ path
  else directory ++ "/" ++ path

/-- The names that matter on the way along a path: a dot counts only as the first of a relative
path. -/
def components (path : String) : List String :=
  match names path with
  | [] => []
  | first :: rest =>
    let rest := rest.filter (· != ".")
    if first == "." && isAbsolute path then rest else first :: rest

/-- How many steps a path has, the root counting as one. -/
def stepCount (path : String) : Nat :=
  (components path).length + if isAbsolute path then 1 else 0

/-- The path one step shorter, if there is a step to leave out. -/
def parent? (path : String) : Option String :=
  match (components path).reverse with
  | [] => none
  | _ :: before =>
    let kept := String.ofList (Text.join ['/'] (before.reverse.map String.toList))
    some (if isAbsolute path then "/" ++ kept else kept)

/-- The name at the end of a path, unless it leads upwards or nowhere. -/
def fileName? (path : String) : Option String :=
  match (components path).getLast? with
  | some name => if name == ".." || name == "." then none else some name
  | none => none

/-- What follows the last dot of the name at the end of a path; a dot that starts the name does
not count. -/
def extension? (path : String) : Option String :=
  (fileName? path).bind fun name =>
    match Text.once (· == '.') name.toList.reverse with
    | some (after, before) => if before.isEmpty then none else some (String.ofList after.reverse)
    | none => none

example : join "data" "q1.sql" = "data/q1.sql" := by decide +kernel
example : join "./" "x" = "./x" := by decide +kernel
example : join "data" "" = "data/" := by decide +kernel
example : join "data" "/etc" = "/etc" := by decide +kernel
example : extension? "a/config.json" = some "json" := by decide +kernel
example : extension? ".json" = none := by decide +kernel

end PowerTest.Path
