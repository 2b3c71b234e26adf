import Mathlib.Data.List.Dedup
import Mathlib.Data.List.Sort
import Mathlib.Order.Basic
import RateEngine.Lib.KeyedRows

/-!
# Rows ranked within a key

`ORDER BY rank LIMIT 1` takes one of the rows with the least rank, and `ROW_NUMBER() OVER (PARTITION
BY key ORDER BY rank) = 1` one such row for each key.  Rows of equal rank stand in an order that the
query does not fix; a number, the tie, tells which of them comes first.
-/

namespace RankedRows

/-- Rows that are sorted by the order of their ranks. -/
theorem pairwise_insertionSort {Row Rank : Type*} (order : Rank → Rank → Prop) [Std.Total order]
    [IsTrans Rank order] (rank : Row → Rank)
    [DecidableRel fun row row' => order (rank row) (rank row')] (rows : List Row) :
    (rows.insertionSort fun row row' => order (rank row) (rank row')).Pairwise fun row row' =>
      order (rank row) (rank row') := by
  have total : Std.Total fun row row' => order (rank row) (rank row') :=
    ⟨fun row row' => total_of order (rank row) (rank row')⟩
  have trans : IsTrans Row fun row row' => order (rank row) (rank row') :=
    ⟨fun _ _ _ first second => trans_of order first second⟩
  exact List.pairwise_insertionSort _ rows

variable {Row Key Rank : Type*} [LinearOrder Rank] {rank : Row → Rank}

/-- The rows that `ORDER BY rank` may put first. -/
def leaders (rank : Row → Rank) (rows : List Row) : List Row :=
  rows.filter fun row => rows.all fun other => rank row ≤ rank other

/-- `ORDER BY rank LIMIT 1`. -/
def first? (rank : Row → Rank) (tie : ℕ) (rows : List Row) : Option Row :=
  (leaders rank rows)[tie % (leaders rank rows).length]?

theorem mem_leaders {rows : List Row} {row : Row} :
    row ∈ leaders rank rows ↔ row ∈ rows ∧ ∀ other ∈ rows, rank row ≤ rank other := by
  simp [leaders]

theorem leaders_ne_nil {rows : List Row} (some_row : rows ≠ []) : leaders rank rows ≠ [] := by
  obtain ⟨row, least⟩ := Option.isSome_iff_exists.mp
    (List.isSome_minOn?_iff (f := rank) |>.mpr some_row)
  refine List.ne_nil_of_mem (mem_leaders.mpr ⟨List.minOn?_mem least, fun other member => ?_⟩)
  have le := List.apply_get_minOn?_le_of_mem (f := rank) member
  simpa only [least, Option.get_some] using le

/-- The row that comes first has the least rank. -/
theorem mem_of_first? {tie : ℕ} {rows : List Row} {row : Row}
    (found : first? rank tie rows = some row) :
    row ∈ rows ∧ ∀ other ∈ rows, rank row ≤ rank other :=
  mem_leaders.mp (List.mem_of_getElem? found)

theorem first?_isSome {tie : ℕ} {rows : List Row} (some_row : rows ≠ []) :
    (first? rank tie rows).isSome := by
  have positive : 0 < (leaders rank rows).length :=
    List.length_pos_iff.mpr (leaders_ne_nil some_row)
  rw [first?, List.getElem?_eq_getElem (Nat.mod_lt tie positive)]
  rfl

section Partition

variable [DecidableEq Key] {key : Row → Key} {tie : Key → ℕ} {rows : List Row}

/-- `ROW_NUMBER() OVER (PARTITION BY key ORDER BY rank) = 1`. -/
def firsts (key : Row → Key) (rank : Row → Rank) (tie : Key → ℕ) (rows : List Row) : List Row :=
  (rows.map key).dedup.filterMap fun value =>
    first? rank (tie value) (rows.filter fun row => key row = value)

/-- Every key has one first row. -/
theorem map_key_firsts : (firsts key rank tie rows).map key = (rows.map key).dedup := by
  rw [firsts, List.map_filterMap]
  refine (List.filterMap_congr fun value member => ?_).trans (List.filterMap_some)
  obtain ⟨row, row_mem, rfl⟩ := List.mem_map.mp (List.mem_dedup.mp member)
  have some_row : rows.filter (fun other => key other = key row) ≠ [] :=
    List.ne_nil_of_mem (List.mem_filter.mpr ⟨row_mem, by simp⟩)
  have found :
      (first? rank (tie (key row)) (rows.filter fun other => key other = key row)).isSome :=
    first?_isSome some_row
  obtain ⟨leader, found⟩ := Option.isSome_iff_exists.mp found
  have own := of_decide_eq_true (List.mem_filter.mp (mem_of_first? found).1).2
  rw [found, Option.map_some, own]

theorem keys_nodup_firsts : ((firsts key rank tie rows).map key).Nodup := by
  rw [map_key_firsts]
  exact List.nodup_dedup _

/-- A first row is a row with the least rank of its key. -/
theorem mem_of_mem_firsts {row : Row} (member : row ∈ firsts key rank tie rows) :
    row ∈ rows ∧ ∀ other ∈ rows, key other = key row → rank row ≤ rank other := by
  obtain ⟨value, -, found⟩ := List.mem_filterMap.mp member
  obtain ⟨row_mem, least⟩ := mem_of_first? found
  obtain ⟨row_mem, own⟩ := List.mem_filter.mp row_mem
  refine ⟨row_mem, fun other other_mem same => least other (List.mem_filter.mpr ⟨other_mem, ?_⟩)⟩
  simpa only [same] using own

end Partition

end RankedRows
