import PowerTest.Proofs.Store.Confinement

/-!
# What a path opens

A path `Reaches` a location in a directory that exists, whether something stands there or nothing.
It `Opens` a file there unless a directory stands there or is asked for, and then it keeps opening
the file whatever is written to it (`destination_putFile`), as every other file stays where it is
found (`find_putFile`). What is written is read again (`read_of_write`).
-/

namespace PowerTest.Store

/-- A path that leads to a location in a directory that exists. -/
def Reaches (store : Store) (path : String) (location : Location) : Prop :=
  ∃ target, store.locate path = .ok target ∧ target.location = location

/-- A path under which a file can be written, with the mark and the content that it has already. -/
structure Opens (store : Store) (path : String) (location : Location) (mark : Bool)
    (content : Bytes) : Prop where
  reaches : store.Reaches path location
  closed : Path.endsInSlash path = false
  free : store.opened location = some (mark, content)

variable {store : Store} {path : String} {location place : Location} {node : Node}
  {mark executable : Bool} {content old : Bytes}

theorem Reaches.locate_eq (reaches : store.Reaches path location) :
    store.locate path =
      match store.node? location with
      | none => .ok (.absent location)
      | some node => .ok (.present location node) := by
  obtain ⟨target, reached, rfl⟩ := reaches
  rw [node?_of_locate reached, reached]
  cases target with
  | present place node => rfl
  | absent place => rfl

theorem Reaches.unique (reaches : store.Reaches path location) (again : store.Reaches path place) :
    location = place := by
  obtain ⟨target, reached, rfl⟩ := reaches
  obtain ⟨other, reachedOther, rfl⟩ := again
  rw [Except.ok.inj (reached.symm.trans reachedOther)]

theorem reaches_of_find (found : store.find path = .ok (location, node)) :
    store.Reaches path location :=
  ⟨_, locate_of_find found, rfl⟩

/-- Nothing is found where there is nothing to read. -/
theorem find_of_read_eq_notFound (lost : store.read path = .error .notFound) :
    store.find path = .error .notFound := by
  rw [Store.read] at lost
  cases found : store.find path with
  | error fault =>
    rw [found] at lost
    obtain rfl := Except.error.inj lost
    rfl
  | ok reached =>
    obtain ⟨location, node⟩ := reached
    rw [found] at lost
    cases node <;> cases lost

/-- Nothing is found where nothing stands. -/
theorem Reaches.find_eq_notFound (reaches : store.Reaches path location)
    (nothing : store.node? location = none) : store.find path = .error .notFound := by
  rw [find, reaches.locate_eq, nothing]

theorem Reaches.destination_eq (reaches : store.Reaches path location) :
    store.destination path =
      match store.opened location with
      | none => .error .isADirectory
      | some (mark, content) =>
        if Path.endsInSlash path then .error .isADirectory else .ok (location, mark, content) := by
  rw [destination, reaches.locate_eq, opened]
  cases store.node? location with
  | none => rfl
  | some node => cases node <;> rfl

/-- What a path opens is what is written under it. -/
theorem destination_eq_ok_iff :
    store.destination path = .ok (location, mark, content) ↔
      store.Opens path location mark content := by
  constructor
  · intro opens
    obtain ⟨target, reached, rfl, _, closed⟩ := locate_of_destination opens
    have reaches : store.Reaches path target.location := ⟨target, reached, rfl⟩
    refine ⟨reaches, closed, ?_⟩
    rw [reaches.destination_eq, closed] at opens
    cases free : store.opened target.location with
    | none => simp only [free, reduceCtorEq] at opens
    | some file =>
      simp only [free, Bool.false_eq_true, if_false] at opens
      exact congrArg some (Prod.mk.inj (Except.ok.inj opens)).2
  · intro opens
    rw [opens.reaches.destination_eq, opens.free, opens.closed]
    rfl

/-- A path that opens nothing is not written under. -/
theorem exists_fault_of_not_opens
    (nothing : ∀ location mark content, ¬store.Opens path location mark content) :
    ∃ fault, store.destination path = .error fault := by
  cases opens : store.destination path with
  | error fault => exact ⟨fault, rfl⟩
  | ok file => exact absurd (destination_eq_ok_iff.mp opens) (nothing _ _ _)

/-- A name in a directory leads to its place there. -/
theorem Reaches.eq_concat {directory name : String} {home : Location} (plain : Path.IsPlain name)
    (leads : store.Leads directory home)
    (reaches : store.Reaches (Path.join directory name) location) : location = home ++ [name] := by
  obtain ⟨target, reached, rfl⟩ := reaches
  obtain ⟨other, again, _, here⟩ := place_of_locate_join plain reached
  obtain rfl := again.unique leads
  exact here

/-- What writing under a name finds depends on the directory and on what stands there. -/
theorem destination_join_congr {after : Store} {directory name : String} {home : Location}
    (plain : Path.IsPlain name) (leads : store.Leads directory home)
    (leadsAfter : after.Leads directory home)
    (same : after.node? (home ++ [name]) = store.node? (home ++ [name])) :
    after.destination (Path.join directory name) =
      store.destination (Path.join directory name) := by
  rw [destination, destination, locate_join_congr plain leads leadsAfter same]

/-! ## Files that are written -/

theorem node?_putFile (free : store.node? location ≠ some .directory) (place : Location) :
    (store.put location node).node? place =
      if place = location then some node else store.node? place := by
  refine node?_put store location place node ?_
  rintro rfl
  exact free rfl

theorem node?_eraseFile (free : store.node? location ≠ some .directory) (place : Location) :
    (store.erase location).node? place =
      if place = location then none else store.node? place := by
  refine node?_erase store location place ?_
  rintro rfl
  exact free rfl

theorem directory_of_putFile (free : store.node? location ≠ some .directory) (place : Location)
    (stands : store.node? place = some .directory) :
    (store.put location node).node? place = some .directory := by
  have apart : place ≠ location := by
    rintro rfl
    exact free stands
  rw [node?_putFile free, if_neg apart, stands]

/-- A path keeps opening a file that is written under it. -/
theorem destination_putFile (opens : store.Opens path location mark old) :
    (store.put location (.file executable content)).destination path =
      .ok (location, executable, content) := by
  have free := opened_ne_directory opens.free
  have stands : (store.put location (.file executable content)).node? location =
      some (.file executable content) := by
    rw [node?_putFile free, if_pos rfl]
  obtain ⟨target, reached, rfl⟩ := opens.reaches
  refine destination_eq_ok_iff.mpr ⟨?_, opens.closed, ?_⟩
  · refine ⟨.present target.location (.file executable content), ?_, rfl⟩
    have here : (store.put target.location (.file executable content)).workingDirectory =
      store.workingDirectory := rfl
    exact locate_of_target here (directory_of_putFile free) stands reached
  · rw [opened, stands]

/-- What is written is read again, whatever was there before. -/
theorem read_of_write {after : Store} (written : store.write path content = .ok after) :
    after.read path = .ok content := by
  obtain ⟨location, mark, old, found, rfl⟩ := write_eq_ok_iff.mp written
  have opens := destination_eq_ok_iff.mp found
  have again : (store.put location (.file mark content)).Opens path location mark content :=
    destination_eq_ok_iff.mp (destination_putFile opens)
  rw [read, find, again.reaches.locate_eq, node?_putFile (opened_ne_directory opens.free),
    if_pos rfl]
  simp only [again.closed, Bool.false_eq_true, if_false]

theorem readText_of_write {after : Store} {text : String}
    (written : store.write path (Text.encode text) = .ok after) :
    after.readText path = .ok text := by
  simp only [readText, read_of_write written, Text.decode?_encode]

/-- A file stays where it is found when another one is written. -/
theorem find_putFile (free : store.node? location ≠ some .directory) (apart : place ≠ location)
    (found : store.find path = .ok (place, node)) (other : Node) :
    (store.put location other).find path = .ok (place, node) := by
  have here : (store.put location other).workingDirectory = store.workingDirectory := rfl
  refine find_of_directories here (directory_of_putFile free) ?_ found
  rw [node?_putFile free, if_neg apart]
  exact node?_of_find found

end PowerTest.Store
