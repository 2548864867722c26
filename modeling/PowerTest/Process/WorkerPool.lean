import PowerTest.Config.Basic

/-!
# Worker pools

The threads that wait for commands. A pool without threads cannot be built, and asking for one ends
the program before anything else is looked at.
-/

namespace PowerTest

/-- A pool of threads; nothing is said about their number unless it is chosen. -/
structure WorkerPool where
  threads : Option UInt64
  deriving DecidableEq, Repr

namespace WorkerPool

/-- Build a pool, unless it is to have no threads. -/
def build? (threads : Option UInt64) : Option WorkerPool :=
  if threads = some 0 then none else some ⟨threads⟩

/-- The result of work done on a pool. -/
def complete {α : Type} (_ : WorkerPool) (work : Unit → α) : α := work ()

end WorkerPool

end PowerTest
