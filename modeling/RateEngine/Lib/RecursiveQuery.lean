import RateEngine.Lib.KeyedRows

/-!
# Recursive queries

A recursive query that keeps duplicates replaces a working table by the successors of its rows until
no row is left; its result is all the working tables together.  This file defines the iteration with
a bound on the number of rounds, and proves that a rank that falls from a row to its successors
gives a bound that is enough, and that a query splits along a key that successors keep.
-/

namespace RecursiveQuery

variable {Row Key : Type*} {next : Row → List Row}

/-- The rows that a recursive query derives from a working table in a number of rounds. -/
def run (next : Row → List Row) : ℕ → List Row → List Row
  | 0, _ => []
  | rounds + 1, working => working ++ run next rounds (working.flatMap next)

@[simp]
theorem run_nil (rounds : ℕ) : run next rounds [] = [] := by
  induction rounds with
  | zero => rfl
  | succ rounds ih => simpa [run] using ih

@[simp]
theorem run_singleton (rounds : ℕ) (row : Row) :
    run next (rounds + 1) [row] = row :: run next rounds (next row) := by
  simp [run]

theorem run_eq_nil_iff (rounds : ℕ) {working : List Row} :
    run next (rounds + 1) working = [] ↔ working = [] := by
  constructor
  · intro empty
    exact (List.append_eq_nil_iff.mp empty).1
  · rintro rfl
    exact run_nil (rounds + 1)

/-! ## Termination -/

section Rank

variable {rank : Row → ℕ} {rounds : ℕ} {working : List Row}

theorem eq_nil_of_rank (bounded : ∀ row ∈ working, rank row < 0) : working = [] :=
  List.eq_nil_iff_forall_not_mem.mpr fun row member => Nat.not_lt_zero _ (bounded row member)

/-- Each round uses up one rank. -/
theorem rank_flatMap_lt (falls : ∀ row, ∀ after ∈ next row, rank after < rank row)
    (bounded : ∀ row ∈ working, rank row < rounds + 1) :
    ∀ after ∈ working.flatMap next, rank after < rounds := by
  intro after member
  obtain ⟨row, row_mem, after_mem⟩ := List.mem_flatMap.mp member
  exact Nat.lt_of_lt_of_le (falls row after after_mem) (Nat.lt_succ_iff.mp (bounded row row_mem))

/-- The working table of a query with a falling rank runs empty, so more rounds derive no more. -/
theorem run_eq_of_rank (falls : ∀ row, ∀ after ∈ next row, rank after < rank row)
    (more : ℕ) (bounded : ∀ row ∈ working, rank row < rounds) :
    run next (rounds + more) working = run next rounds working := by
  induction rounds generalizing working with
  | zero =>
      simp [eq_nil_of_rank bounded]
  | succ rounds ih =>
      rw [Nat.succ_add, run, run, ih (rank_flatMap_lt falls bounded)]

end Rank

/-! ## Partitions -/

section Partition

variable [DecidableEq Key] {key : Row → Key}

/-- The part of the result under one key is the result of the part of the table under it. -/
theorem filter_run (kept : ∀ row, ∀ after ∈ next row, key after = key row) (value : Key)
    (rounds : ℕ) (working : List Row) :
    (run next rounds working).filter (fun row => key row = value) =
      run next rounds (working.filter fun row => key row = value) := by
  induction rounds generalizing working with
  | zero => rfl
  | succ rounds ih => rw [run, run, List.filter_append, ih, KeyedRows.filter_flatMap kept]

end Partition

/-! ## Relabelling -/

/-- A map that commutes with the successors of the rows that a query reaches maps its result. -/
theorem run_map {Row' : Type*} {next' : Row' → List Row'} {relabel : Row → Row'}
    {reached : Row → Prop} (kept : ∀ row, reached row → ∀ after ∈ next row, reached after)
    (commutes : ∀ row, reached row → next' (relabel row) = (next row).map relabel)
    (rounds : ℕ) {working : List Row} (start : ∀ row ∈ working, reached row) :
    run next' rounds (working.map relabel) = (run next rounds working).map relabel := by
  induction rounds generalizing working with
  | zero => rfl
  | succ rounds induction =>
      have round : (working.map relabel).flatMap next' = (working.flatMap next).map relabel := by
        rw [List.flatMap_map, List.map_flatMap]
        exact List.flatMap_congr fun row member => commutes row (start row member)
      have reached_next : ∀ after ∈ working.flatMap next, reached after := by
        intro after member
        obtain ⟨row, row_mem, after_mem⟩ := List.mem_flatMap.mp member
        exact kept row (start row row_mem) after after_mem
      rw [run, run, round, induction reached_next, List.map_append]

end RecursiveQuery
