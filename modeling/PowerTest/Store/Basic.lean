import PowerTest.Text.Encoding

/-!
# The store

A store holds the files that the program can see: a tree of directories and regular files, kept
as a list from locations to nodes, and the directory that relative paths start from. `node?` is
the view of a store; `node?_put` and `node?_erase` say what the two changes do to it.
-/

namespace PowerTest

/-- The names on the way from the root to a node. -/
abbrev Location := List String

/-- What stands at a location. -/
inductive Node
  | directory
  | file (executable : Bool) (content : Bytes)
  deriving DecidableEq, Repr

/-- A tree of files and the directory that relative paths start from. -/
structure Store where
  entries : List (Location × Node)
  workingDirectory : Location
  deriving Repr

namespace Store

/-- A store with an empty working directory and nothing else. -/
def empty (workingDirectory : Location) : Store where
  entries := (List.range workingDirectory.length).map fun depth =>
    (workingDirectory.take (depth + 1), .directory)
  workingDirectory := workingDirectory

/-- What stands at a location, if anything; the root is a directory. -/
def node? (store : Store) (location : Location) : Option Node :=
  if location = [] then some .directory else store.entries.lookup location

/-- The store with a node at a location, in place of what stood there. -/
def put (store : Store) (location : Location) (node : Node) : Store :=
  { store with
    entries := (location, node) :: store.entries.filter fun (other, _) => other != location }

/-- The store without what stood at a location. -/
def erase (store : Store) (location : Location) : Store :=
  { store with entries := store.entries.filter fun (other, _) => other != location }

/-- The store without a location and everything below it. -/
def eraseTree (store : Store) (location : Location) : Store :=
  { store with entries := store.entries.filter fun (other, _) => !location.isPrefixOf other }

/-- The nodes below a directory, under the names that lead to them from there. -/
def below (store : Store) (directory : Location) : List (List String × Node) :=
  store.entries.filterMap fun (location, node) =>
    if directory.isPrefixOf location && location != directory then
      some (location.drop directory.length, node)
    else none

theorem lookup_filter_of_ne (entries : List (Location × Node)) {removed location : Location}
    (different : location ≠ removed) :
    (entries.filter fun (other, _) => other != removed).lookup location =
      entries.lookup location := by
  induction entries with
  | nil => rfl
  | cons entry rest ih =>
    obtain ⟨other, node⟩ := entry
    by_cases same : other = removed
    · subst same
      have skipped : (location == other) = false := beq_false_of_ne different
      simp [List.lookup_cons, skipped, ih]
    · by_cases found : location = other
      · subst found
        simp [same]
      · have skipped : (location == other) = false := beq_false_of_ne found
        simp [same, List.lookup_cons, skipped, ih]

theorem lookup_filter_self (entries : List (Location × Node)) (location : Location) :
    (entries.filter fun (other, _) => other != location).lookup location = none := by
  induction entries with
  | nil => rfl
  | cons entry rest ih =>
    obtain ⟨other, node⟩ := entry
    by_cases same : other = location
    · simp [same, ih]
    · have skipped : (location == other) = false := beq_false_of_ne (Ne.symm same)
      simp [same, List.lookup_cons, skipped, ih]

/-- Putting a node changes what stands at its location and nothing else. -/
theorem node?_put (store : Store) (location other : Location) (node : Node)
    (notRoot : location ≠ []) :
    (store.put location node).node? other =
      if other = location then some node else store.node? other := by
  by_cases same : other = location
  · subst same
    simp [node?, put, notRoot]
  · by_cases root : other = []
    · subst root
      simp [node?, Ne.symm notRoot]
    · have skipped : (other == location) = false := beq_false_of_ne same
      simp only [node?, put, root, same, if_false, List.lookup_cons, skipped]
      exact lookup_filter_of_ne _ same

/-- Erasing a location removes what stands there and nothing else. -/
theorem node?_erase (store : Store) (location other : Location) (notRoot : location ≠ []) :
    (store.erase location).node? other = if other = location then none else store.node? other := by
  by_cases same : other = location
  · subst same
    simp only [node?, erase, notRoot, if_false, if_true]
    exact lookup_filter_self _ _
  · by_cases root : other = []
    · subst root
      simp [node?, Ne.symm notRoot]
    · simp only [node?, erase, root, same, if_false]
      exact lookup_filter_of_ne _ same

end Store

end PowerTest
