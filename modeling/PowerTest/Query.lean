/-!
# Queries

The queries of the power test are numbered from one.
-/

namespace PowerTest

/-- The number of queries in the power test. -/
def queryCount : Nat := 22

/-- The numbers of the queries, in order. -/
def queryNumbers : List Nat :=
  (List.range queryCount).map (· + 1)

/-- The query whose text holds several statements. -/
def refreshQuery : Nat := 15

theorem mem_queryNumbers {number : Nat} :
    number ∈ queryNumbers ↔ 1 ≤ number ∧ number ≤ queryCount := by
  simp only [queryNumbers, List.mem_map, List.mem_range]
  constructor
  · rintro ⟨index, small, rfl⟩
    omega
  · intro ⟨least, greatest⟩
    exact ⟨number - 1, by omega, by omega⟩

end PowerTest
