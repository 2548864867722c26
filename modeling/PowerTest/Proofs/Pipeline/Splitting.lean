import PowerTest.Proofs.Names
import PowerTest.Proofs.Steps
import PowerTest.Proofs.Store.Opening
import PowerTest.Pipeline.Run

/-!
# What splitting the refresh query ends in

Fragments are written one after another, each under its number, and the text that they come from is
removed behind the last of them. `Split` has one case for each way this can end: nothing changes if
the text cannot be read, the first fragment that cannot be written leaves the text and the fragments
before it, and otherwise the fragments have taken the place of the text. `split_splitRefreshQuery`
says that there are no other ways.
-/

namespace PowerTest

open Steps Store Text

/-- A store in which pieces were written as the fragments numbered from `first`, the files at some
other places were removed, and nothing else was changed. -/
structure Fragmented (home : Location) (first : Nat) (pieces : List String)
    (removed : List Location) (before after : Store) : Prop where
  workingDirectory : after.workingDirectory = before.workingDirectory
  /-- A file keeps its mark and nothing of its content. -/
  fragment : ∀ index piece, pieces[index]? = some piece →
    ∃ mark old,
      before.opened (home ++ [(Artifact.fragment (first + index)).name]) = some (mark, old) ∧
      after.node? (home ++ [(Artifact.fragment (first + index)).name]) =
        some (.file mark (encode piece))
  gone : ∀ location ∈ removed, after.node? location = none
  kept : ∀ location ∉ removed,
    (∀ index < pieces.length, location ≠ home ++ [(Artifact.fragment (first + index)).name]) →
      after.node? location = before.node? location

variable {directory : String} {home : Location} {store after : Store} {first : Nat}
  {piece : String} {rest : List String}

theorem fragmented_nil (home : Location) (first : Nat) (store : Store) :
    Fragmented home first [] [] store store where
  workingDirectory := rfl
  fragment := nofun
  gone := List.forall_mem_nil _
  kept _ _ _ := rfl

theorem fragment_ne {number other : Nat} (home : Location) (different : number ≠ other) :
    home ++ [(Artifact.fragment number).name] ≠ home ++ [(Artifact.fragment other).name] := by
  rw [ne_eq, concat_inj, Artifact.name_inj, Artifact.fragment.injEq]
  exact different

/-- The first fragment is written, and then those after it. -/
theorem Fragmented.cons {mark : Bool} {old : Bytes}
    (free : store.opened (home ++ [(Artifact.fragment first).name]) = some (mark, old))
    (later : Fragmented home (first + 1) rest []
      (store.put (home ++ [(Artifact.fragment first).name]) (.file mark (encode piece))) after) :
    Fragmented home first (piece :: rest) [] store after where
  workingDirectory := later.workingDirectory
  fragment index text stands := by
    cases index with
    | zero =>
      obtain rfl := Option.some.inj stands
      refine ⟨mark, old, free, ?_⟩
      rw [later.kept _ List.not_mem_nil fun index _ => fragment_ne home (by omega),
        node?_put_concat, Nat.add_zero, if_pos rfl]
    | succ index =>
      obtain ⟨mark, old, freeLater, written⟩ := later.fragment index text stands
      rw [show first + 1 + index = first + (index + 1) by omega] at freeLater written
      refine ⟨mark, old, ?_, written⟩
      rwa [opened, node?_put_concat, if_neg (fragment_ne home (by omega))] at freeLater
  gone := List.forall_mem_nil _
  kept location _ apart := by
    have here := apart 0 (Nat.zero_lt_succ _)
    rw [Nat.add_zero] at here
    rw [later.kept location List.not_mem_nil fun index small => ?_, node?_put_concat, if_neg here]
    rw [show first + 1 + index = first + (index + 1) by omega]
    exact apart (index + 1) (Nat.succ_lt_succ small)

/-- What is found elsewhere is found still when fragments have been written. -/
theorem Fragmented.find {pieces : List String} {path : String} {place : Location} {node : Node}
    (written : Fragmented home first pieces [] store after)
    (apart : ∀ number, place ≠ home ++ [(Artifact.fragment number).name])
    (found : store.find path = .ok (place, node)) : after.find path = .ok (place, node) := by
  refine find_of_directories written.workingDirectory (fun location stands => ?_) ?_ found
  · rw [written.kept location List.not_mem_nil fun index small same => ?_, stands]
    obtain ⟨mark, old, free, _⟩ :=
      written.fragment index pieces[index] (List.getElem?_eq_getElem small)
    exact opened_ne_directory free (same ▸ stands)
  · rw [written.kept place List.not_mem_nil fun index _ => apart (first + index)]
    exact node?_of_find found

/-- Fragments are written up to the first one that cannot be. -/
theorem fragmented_writeFragments (leads : store.Leads directory home) (first : Nat)
    (pieces : List String) :
    (∃ paths after,
      writeFragments directory (Artifact.queryStem refreshQuery) first pieces store =
          .ok paths after ∧
        Fragmented home first pieces [] store after) ∨
      ∃ count fault after, count < pieces.length ∧
        store.destination ((Artifact.fragment (first + count)).path directory) = .error fault ∧
        writeFragments directory (Artifact.queryStem refreshQuery) first pieces store =
          .error (.destinationWrite ((Artifact.fragment (first + count)).path directory) fault)
            after ∧
        Fragmented home first (pieces.take count) [] store after := by
  induction pieces generalizing store first with
  | nil => exact .inl ⟨[], store, rfl, fragmented_nil home first store⟩
  | cons piece rest ih =>
    have plain := (Artifact.fragment first).isPlain_name
    simp only [writeFragments, bind_eq, Files.change,
      show Path.join directory (fragmentName (Artifact.queryStem refreshQuery) first) =
        (Artifact.fragment first).path directory from rfl]
    cases opens : store.destination ((Artifact.fragment first).path directory) with
    | error fault =>
      refine .inr ⟨0, fault, store, Nat.zero_lt_succ _, opens, ?_, fragmented_nil home first store⟩
      simp only [write, opens, Nat.add_zero]
    | ok file =>
      obtain ⟨location, mark, old⟩ := file
      obtain ⟨reaches, closed, free⟩ := destination_eq_ok_iff.mp opens
      obtain rfl := reaches.eq_concat plain leads
      have ready : (store.put (home ++ [(Artifact.fragment first).name])
          (.file mark (encode piece))).Leads directory home :=
        leads.put home (.inr (opened_ne_directory free))
      simp only [write, opens]
      rcases ih ready (first + 1) with ⟨paths, after, done, written⟩ |
        ⟨count, fault, after, small, lost, stopped, written⟩
      · exact .inl ⟨_, after, by rw [done]; rfl, written.cons free⟩
      · rw [show first + 1 + count = first + (count + 1) by omega] at lost stopped
        refine .inr ⟨count + 1, fault, after, Nat.succ_lt_succ small, ?_, by rw [stopped], ?_⟩
        · rw [← lost]
          refine (destination_join_congr (Artifact.isPlain_name _) leads ready ?_).symm
          rw [node?_put_concat, if_neg (fragment_ne home (by omega))]
        · exact written.cons free

/-- The ways in which splitting the refresh query of a directory ends. -/
inductive Split (directory : String) (before : Store) :
    EStateM.Result Failure Store Unit → Prop
  | missing (lost : before.find ((Artifact.query refreshQuery).path directory) = .error .notFound) :
    Split directory before
      (.error (.sourceNotFound ((Artifact.query refreshQuery).path directory)) before)
  | undecodable {content : Bytes}
    (read : before.read ((Artifact.query refreshQuery).path directory) = .ok content)
    (noText : decode? content = none) :
    Split directory before
      (.error (.inputOutput ((Artifact.query refreshQuery).path directory) .undecodable) before)
  /-- A directory stands there, or the path is none. -/
  | unreadable {fault : Fault} (other : fault ≠ .notFound)
    (lost : before.read ((Artifact.query refreshQuery).path directory) = .error fault) :
    Split directory before
      (.error (.inputOutput ((Artifact.query refreshQuery).path directory) fault) before)
  | stopped {home : Location} {text : String} {count : Nat} {fault : Fault} {after : Store}
    (leads : before.Leads directory home)
    (read : before.read ((Artifact.query refreshQuery).path directory) = .ok (encode text))
    (position : count < (fragments text).length)
    (closed : before.destination ((Artifact.fragment (1 + count)).path directory) = .error fault)
    (wrote : Fragmented home 1 ((fragments text).take count) [] before after) :
    Split directory before
      (.error (.destinationWrite ((Artifact.fragment (1 + count)).path directory) fault) after)
  | completed {home : Location} {text : String} {after : Store}
    (leads : before.Leads directory home)
    (read : before.read ((Artifact.query refreshQuery).path directory) = .ok (encode text))
    (replaced : Fragmented home 1 (fragments text)
      [home ++ [(Artifact.query refreshQuery).name]] before after) :
    Split directory before (.ok () after)

/-- The text is removed behind its fragments. -/
theorem Fragmented.erase {pieces : List String} {middle : Store}
    (written : Fragmented home first pieces [] store middle) :
    Fragmented home first pieces [home ++ [(Artifact.query refreshQuery).name]] store
      (middle.erase (home ++ [(Artifact.query refreshQuery).name])) where
  workingDirectory := written.workingDirectory
  fragment index piece within := by
    have apart : home ++ [(Artifact.fragment (first + index)).name] ≠
        home ++ [(Artifact.query refreshQuery).name] := by
      rw [ne_eq, concat_inj, Artifact.name_inj]
      nofun
    rw [node?_erase_concat, if_neg apart]
    exact written.fragment index piece within
  gone := List.forall_mem_singleton.mpr (by rw [node?_erase_concat, if_pos rfl])
  kept location other apart := by
    rw [node?_erase_concat, if_neg fun same => other (List.mem_singleton.mpr same)]
    exact written.kept location List.not_mem_nil apart

/-- A text that cannot be read is missing, or no text, or no file. -/
theorem split_of_readText_eq_error {fault : Fault}
    (lost : store.readText ((Artifact.query refreshQuery).path directory) = .error fault) :
    Split directory store
      (.error (.ofSource ((Artifact.query refreshQuery).path directory) fault) store) := by
  rw [readText] at lost
  cases read : store.read ((Artifact.query refreshQuery).path directory) with
  | error cause =>
    rw [read] at lost
    obtain rfl := Except.error.inj lost
    by_cases missing : cause = .notFound
    · subst missing
      exact .missing (find_of_read_eq_notFound read)
    · rw [Failure.ofSource, if_neg missing]
      exact .unreadable missing read
  | ok content =>
    rw [read] at lost
    cases spelled : decode? content with
    | none =>
      simp only [spelled] at lost
      obtain rfl := Except.error.inj lost
      exact .undecodable read spelled
    | some text => simp only [spelled, reduceCtorEq] at lost

theorem read_of_readText {path text : String} (read : store.readText path = .ok text) :
    store.read path = .ok (encode text) := by
  rw [readText] at read
  cases found : store.read path with
  | error fault => simp only [found, reduceCtorEq] at read
  | ok content =>
    cases spelled : decode? content with
    | none => simp only [found, spelled, reduceCtorEq] at read
    | some other =>
      simp only [found, spelled] at read
      obtain rfl := Except.ok.inj read
      rw [decode?_eq_some_iff.mp spelled]

/-- Splitting the refresh query is complete or leaves the query. -/
theorem split_splitRefreshQuery (directory : String) (store : Store) :
    Split directory store (Pipeline.splitRefreshQuery directory store) := by
  have plain := (Artifact.query refreshQuery).isPlain_name
  rw [Pipeline.splitRefreshQuery, splitFragments]
  simp only [bind_eq, Files.inspect]
  cases spelled : store.readText ((Artifact.query refreshQuery).path directory) with
  | error fault => exact split_of_readText_eq_error spelled
  | ok text =>
    have read := read_of_readText spelled
    obtain ⟨location, executable, found⟩ := find_of_read read
    obtain ⟨home, leads, fits⟩ := leads_of_locate_join plain (locate_of_find found)
    obtain rfl := (reaches_of_find found).eq_concat plain leads
    simp only
    rcases fragmented_writeFragments leads 1 (fragments text) with
      ⟨paths, middle, done, written⟩ | ⟨count, fault, after, small, lost, stopped, written⟩
    · have stays : middle.find ((Artifact.query refreshQuery).path directory) =
          .ok (home ++ [(Artifact.query refreshQuery).name], .file executable (encode text)) := by
        refine written.find (fun number same => ?_) found
        rw [concat_inj, Artifact.name_inj] at same
        cases same
      simp only [done, Files.change, remove, stays]
      exact .completed leads read written.erase
    · simp only [stopped]
      exact .stopped leads read small lost written

end PowerTest
