import PowerTest.Proofs.Store.Directory

/-!
# Making directories

Making directories adds to a store and takes nothing away, so what was found under a path before
is found there afterwards. What is added are directories on the way along the path (`MadeAlong`). In
a tree a directory that was just made has nothing in it.
-/

namespace PowerTest.Store

/-- A store to which nodes were added. -/
structure Grows (store after : Store) : Prop where
  workingDirectory : after.workingDirectory = store.workingDirectory
  stay : ∀ location node, store.node? location = some node → after.node? location = some node

variable {store middle after : Store} {path name : String} {location : Location} {node : Node}

theorem grows_refl (store : Store) : Grows store store :=
  ⟨rfl, fun _ _ stands => stands⟩

theorem Grows.trans (first : Grows store middle) (second : Grows middle after) :
    Grows store after :=
  ⟨second.workingDirectory.trans first.workingDirectory, fun location node stands =>
    second.stay location node (first.stay location node stands)⟩

theorem Grows.find (grows : Grows store after) (found : store.find path = .ok (location, node)) :
    after.find path = .ok (location, node) :=
  find_of_directories grows.workingDirectory (fun place => grows.stay place .directory)
    (grows.stay location node (node?_of_find found)) found

theorem Grows.leads (grows : Grows store after) {home : Location} (leads : store.Leads path home) :
    after.Leads path home :=
  leads.of_directories grows.workingDirectory fun place => grows.stay place .directory

/-- What is missing in the end was missing before. -/
theorem Grows.missing (grows : Grows store after) (nothing : after.node? location = none) :
    store.node? location = none := by
  cases stands : store.node? location with
  | none => rfl
  | some node => cases nothing.symm.trans (grows.stay location node stands)

theorem Grows.isDirectory (grows : Grows store after)
    (directory : store.isDirectory path = true) : after.isDirectory path = true := by
  obtain ⟨home, found⟩ := find_of_isDirectory directory
  rw [Store.isDirectory, grows.find found]

/-- Names that lead to nothing lead to a directory and from there to a name in it. -/
structure Missing (store : Store) (start : Location) (names : List String) (home : Location)
    (name : String) : Prop where
  leads : ∃ before, names = before ++ [name] ∧
    store.walk start before = .ok (.present home .directory)
  notHere : name ≠ "."
  notAbove : name ≠ ".."
  short : name.utf8ByteSize ≤ longestName
  nothing : store.node? (home ++ [name]) = none

theorem walk_eq_absent {names : List String} {start : Location}
    (lost : store.walk start names = .ok (.absent location)) :
    ∃ home name, location = home ++ [name] ∧ store.Missing start names home name := by
  rcases List.eq_nil_or_concat names with rfl | ⟨before, name, rfl⟩
  · simp only [walk] at lost
    split at lost <;> cases lost
  rw [List.concat_eq_append] at lost ⊢
  rw [walk_concat] at lost
  cases reached : store.walk start before with
  | error fault => cases reached ▸ lost
  | ok target =>
    rw [reached] at lost
    rcases target with ⟨home, _ | _⟩ | _
    · cases walk_eq_ok_iff.mp lost with
      | stay _ further => cases further
      | up _ further => cases further
      | down _ _ _ _ further => cases further
      | missing _ notHere notAbove short nothing =>
        exact ⟨home, name, rfl, ⟨before, rfl, reached⟩, notHere, notAbove, short, nothing⟩
    · cases lost
    · cases lost

theorem grows_put (missing : store.node? (location ++ [name]) = none) :
    Grows store (store.put (location ++ [name]) node) := by
  refine ⟨rfl, fun place other stands => ?_⟩
  rw [node?_put_concat, if_neg]
  · exact stands
  · rintro rfl
    cases missing.symm.trans stands

theorem locate_eq_absent (lost : store.locate path = .ok (.absent location)) :
    path.isEmpty = false ∧ path.toList.contains '\x00' = false ∧
      path.utf8ByteSize < tooLongPath ∧
      ∃ home name, location = home ++ [name] ∧
        store.Missing (store.origin path) (Path.names path) home name := by
  obtain ⟨some, clean, short, led⟩ := locate_eq_ok_iff.mp lost
  exact ⟨some, clean, short, walk_eq_absent led⟩

theorem Missing.walk_put {start home : Location} {names : List String}
    (missing : store.Missing start names home name) :
    (store.put (home ++ [name]) .directory).walk start names =
      .ok (.present (home ++ [name]) .directory) := by
  obtain ⟨before, rfl, reached⟩ := missing.leads
  have grows : Grows store (store.put (home ++ [name]) .directory) := grows_put missing.nothing
  have inside := grows.stay home .directory (walk_eq_present reached)
  have again := walk_of_directories (fun place => grows.stay place .directory) inside reached
  rw [walk_concat, again]
  refine (walk_single inside missing.notHere missing.notAbove missing.short).trans ?_
  rw [node?_put_concat, if_pos rfl]

/-- A directory is found where it was made. -/
theorem find_put_of_absent (lost : store.locate path = .ok (.absent location)) :
    (store.put location .directory).find path = .ok (location, .directory) := by
  obtain ⟨some, clean, short, home, name, rfl, missing⟩ := locate_eq_absent lost
  have reached : (store.put (home ++ [name]) .directory).locate path =
      .ok (.present (home ++ [name]) .directory) :=
    locate_eq_ok_iff.mpr ⟨some, clean, short, missing.walk_put⟩
  rw [find, reached]

/-! ## Directories along a path -/

/-- A store in which directories were made where paths lead. -/
structure MadeAlong (paths : List String) (store after : Store) : Prop where
  workingDirectory : after.workingDirectory = store.workingDirectory
  changes : ∀ location, after.node? location = store.node? location ∨
    store.node? location = none ∧ after.node? location = some .directory ∧
      ∃ path ∈ paths, after.Leads path location

variable {paths more : List String}

theorem madeAlong_refl (paths : List String) (store : Store) : MadeAlong paths store store :=
  ⟨rfl, fun _ => .inl rfl⟩

theorem MadeAlong.grows (made : MadeAlong paths store after) : Grows store after := by
  refine ⟨made.workingDirectory, fun location node stands => ?_⟩
  rcases made.changes location with same | ⟨nothing, _⟩
  · rw [same, stands]
  · cases nothing.symm.trans stands

/-- No file is made. -/
theorem MadeAlong.file (made : MadeAlong paths store after) {executable : Bool} {content : Bytes}
    (stands : after.node? location = some (.file executable content)) :
    store.node? location = some (.file executable content) := by
  rcases made.changes location with same | ⟨_, directory, _⟩
  · rw [← same, stands]
  · cases directory.symm.trans stands

theorem MadeAlong.mono (made : MadeAlong paths store after) (among : ∀ path ∈ paths, path ∈ more) :
    MadeAlong more store after := by
  refine ⟨made.workingDirectory, fun location => ?_⟩
  rcases made.changes location with same | ⟨nothing, directory, path, member, leads⟩
  · exact .inl same
  · exact .inr ⟨nothing, directory, path, among path member, leads⟩

theorem MadeAlong.trans (first : MadeAlong paths store middle)
    (second : MadeAlong paths middle after) : MadeAlong paths store after := by
  have grows := second.grows
  refine ⟨second.workingDirectory.trans first.workingDirectory, fun location => ?_⟩
  rcases first.changes location with same | ⟨nothing, directory, path, member, leads⟩
  · rw [← same]
    exact second.changes location
  · have stays := grows.stay location .directory directory
    exact .inr ⟨nothing, stays, path, member, grows.leads leads⟩

theorem madeAlong_makeDirectory (made : store.makeDirectory path = .ok after) :
    MadeAlong [path] store after := by
  obtain ⟨location, lost, rfl⟩ := makeDirectory_eq_ok_iff.mp made
  have leads := leads_of_find (find_put_of_absent lost)
  obtain ⟨_, _, _, home, name, rfl, missing⟩ := locate_eq_absent lost
  refine ⟨rfl, fun place => ?_⟩
  rw [node?_put_concat]
  split
  · rename_i here
    subst here
    exact .inr ⟨missing.nothing, rfl, path, List.mem_singleton_self path, leads⟩
  · exact .inl rfl

/-- A directory with a plain name is made where nothing stands in the directory above. -/
theorem made_of_makeDirectory_join {directory : String} (plain : Path.IsPlain name)
    (made : store.makeDirectory (Path.join directory name) = .ok after) :
    ∃ home, store.Leads directory home ∧ store.node? (home ++ [name]) = none ∧
      after = store.put (home ++ [name]) .directory ∧
      after.Leads (Path.join directory name) (home ++ [name]) := by
  obtain ⟨location, lost, rfl⟩ := makeDirectory_eq_ok_iff.mp made
  have leads := leads_of_find (find_put_of_absent lost)
  obtain ⟨home, led, fits⟩ := leads_of_locate_join plain lost
  rw [locate_of_leads led plain fits] at lost
  split at lost
  · rename_i nothing
    obtain rfl := Target.absent.inj (Except.ok.inj lost)
    exact ⟨home, led, nothing, rfl, leads⟩
  · cases lost

theorem madeAlong_makeNearest {missing : List String}
    (made : store.makeNearest paths = .ok (after, missing)) :
    MadeAlong paths store after ∧ ∀ path ∈ missing, path ∈ paths := by
  induction paths generalizing missing with
  | nil =>
    obtain ⟨rfl, rfl⟩ := Prod.mk.inj (Except.ok.inj made)
    exact ⟨madeAlong_refl [] store, List.forall_mem_nil _⟩
  | cons path above ih =>
    rw [makeNearest] at made
    split at made
    · rename_i next done
      obtain ⟨rfl, rfl⟩ := Prod.mk.inj (Except.ok.inj made)
      have only := madeAlong_makeDirectory done
      exact ⟨only.mono (by simp), List.forall_mem_nil _⟩
    · split at made
      · rename_i next rest done
        obtain ⟨rfl, rfl⟩ := Prod.mk.inj (Except.ok.inj made)
        obtain ⟨along, among⟩ := ih done
        refine ⟨along.mono fun other => List.mem_cons_of_mem path, ?_⟩
        exact List.forall_mem_cons.mpr
          ⟨List.mem_cons_self, fun other member => List.mem_cons_of_mem _ (among other member)⟩
      · cases made
    · split at made
      · obtain ⟨rfl, rfl⟩ := Prod.mk.inj (Except.ok.inj made)
        exact ⟨madeAlong_refl _ store, List.forall_mem_nil _⟩
      · cases made
    · cases made

theorem madeAlong_makeEach (paths : List String) (store : Store) :
    MadeAlong paths store (store.makeEach paths).1 := by
  induction paths generalizing store with
  | nil => exact madeAlong_refl [] store
  | cons path rest ih =>
    have later (other : Store) : MadeAlong (path :: rest) other (other.makeEach rest).1 :=
      (ih other).mono fun _ => List.mem_cons_of_mem path
    rw [makeEach]
    split
    · rename_i after made
      have first : MadeAlong (path :: rest) store after :=
        (madeAlong_makeDirectory made).mono (by simp)
      exact first.trans (later after)
    · split
      · exact later store
      · exact madeAlong_refl _ store

/-- The paths that can be made so that a path leads to a directory. -/
def along (path : String) : List String :=
  ancestors (path.length + 1) path

theorem madeAlong_makeDirectories (store : Store) (path : String) :
    MadeAlong (along path) store (store.makeDirectories path).1 := by
  rw [makeDirectories]
  split
  · exact madeAlong_refl _ store
  split
  · exact madeAlong_refl _ store
  · rename_i after missing made
    obtain ⟨first, among⟩ := madeAlong_makeNearest made
    have second := madeAlong_makeEach missing.reverse after
    refine first.trans (second.mono fun other member => ?_)
    exact among other (List.mem_reverse.mp member)

/-! ## Directories that were just made -/

/-- A store in which everything but the root stands in a directory. -/
def IsTree (store : Store) : Prop :=
  ∀ location name, (store.node? (location ++ [name])).isSome →
    store.node? location = some .directory

theorem isTree_of_entries
    (inside : ∀ entry ∈ store.entries, store.node? entry.1.dropLast = some .directory) :
    store.IsTree := by
  intro location name stands
  rw [Store.node?, if_neg (concat_ne_nil location name)] at stands
  obtain ⟨node, found⟩ := Option.isSome_iff_exists.mp stands
  obtain ⟨before, after, entries, _⟩ := List.lookup_eq_some_iff.mp found
  have member : (location ++ [name], node) ∈ store.entries := by
    rw [entries]
    exact List.mem_append_right _ List.mem_cons_self
  have parent := inside _ member
  rwa [List.dropLast_concat] at parent

/-- Nothing stands below a place where nothing stands. -/
theorem IsTree.node?_below (tree : store.IsTree) (nothing : store.node? location = none)
    (names : List String) : store.node? (location ++ names) = none := by
  induction names generalizing location with
  | nil => rwa [List.append_nil]
  | cons name rest ih =>
    have next : store.node? (location ++ [name]) = none := by
      refine Option.not_isSome_iff_eq_none.mp fun stands => ?_
      cases nothing.symm.trans (tree location name stands)
    rw [List.append_cons]
    exact ih next

theorem components_ne_nil (member : name ∈ Path.names path) (notHere : name ≠ ".") :
    Path.components path ≠ [] := by
  rw [Path.components]
  split
  · rename_i none
    exact absurd (none ▸ member) List.not_mem_nil
  · rename_i first rest names
    rw [names, List.mem_cons] at member
    simp only
    split
    · rename_i here
      rcases member with rfl | later
      · simp [notHere] at here
      · refine List.ne_nil_of_mem (List.mem_filter.mpr ⟨later, ?_⟩)
        simpa using notHere
    · exact List.cons_ne_nil _ _

/-- Where nothing is missing above it only the directory itself is made. -/
theorem makeDirectories_of_absent (lost : store.locate path = .ok (.absent location)) :
    store.makeDirectories path = (store.put location .directory, none) := by
  obtain ⟨some, _, _, home, name, rfl, missing⟩ := locate_eq_absent lost
  obtain ⟨before, names, _⟩ := missing.leads
  have member : name ∈ Path.names path := by
    rw [names]
    exact List.mem_append_right _ (List.mem_singleton_self name)
  have made : store.makeDirectory path = .ok (store.put (home ++ [name]) .directory) := by
    rw [makeDirectory, lost]
  have steps : ∃ parent, Path.parent? path = Option.some parent := by
    rw [Path.parent?]
    split
    · rename_i nothing
      exact absurd (List.reverse_eq_nil_iff.mp nothing) (components_ne_nil member missing.notHere)
    · exact ⟨_, rfl⟩
  obtain ⟨parent, above⟩ := steps
  simp only [makeDirectories, some, ancestors, above, makeNearest, made, makeEach,
    Bool.false_eq_true, if_false, List.reverse_nil]

end PowerTest.Store
