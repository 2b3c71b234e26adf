import Mathlib.Data.List.Basic
import Mathlib.Data.List.Nodup

/-!
# Tables with a unique key

Rows of which no two have the same key.  A row whose key is taken is not inserted, so under every
key the row stays that came first: looking a key up after many inserts is looking it up in the list
of all rows that were offered.
-/

/-- Rows under distinct keys. -/
structure UniqueTable {Row Key : Type*} (key : Row → Key) where
  rows : List Row
  unique : (rows.map key).Nodup

namespace UniqueTable

variable {Row Key : Type*} [DecidableEq Key] {key : Row → Key}

/-- A table without rows. -/
def empty : UniqueTable key := ⟨[], List.nodup_nil⟩

/-- The row of a key. -/
def find (table : UniqueTable key) (value : Key) : Option Row :=
  table.rows.find? fun row => key row = value

theorem find_eq_none {table : UniqueTable key} {value : Key} :
    table.find value = none ↔ value ∉ table.rows.map key := by
  simp [find, List.mem_map]

theorem mem_of_find {table : UniqueTable key} {value : Key} {row : Row}
    (found : table.find value = some row) : row ∈ table.rows := List.mem_of_find?_eq_some found

/-- A row of the table is the one that its key finds. -/
theorem find_of_mem {table : UniqueTable key} {row : Row} (member : row ∈ table.rows) :
    table.find (key row) = some row := by
  obtain ⟨rows, unique⟩ := table
  simp only [find] at member ⊢
  induction rows with
  | nil => cases member
  | cons first rest induction =>
      obtain ⟨fresh, distinct⟩ := List.nodup_cons.mp unique
      rcases List.mem_cons.mp member with rfl | later
      · exact List.find?_cons_of_pos (decide_eq_true rfl)
      · have other : ¬ (key first = key row) := fun same => fresh (same ▸ List.mem_map_of_mem later)
        rw [List.find?_cons_of_neg (by simpa using other)]
        exact induction distinct later

/-- Insert a row unless its key is taken. -/
def insert (table : UniqueTable key) (row : Row) : UniqueTable key :=
  if fresh : key row ∈ table.rows.map key then table
  else
    { rows := table.rows ++ [row]
      unique := by
        rw [List.map_append, List.map_singleton, List.nodup_append]
        refine ⟨table.unique, List.nodup_singleton _, ?_⟩
        rintro value taken other own rfl
        exact fresh (List.mem_singleton.mp own ▸ taken) }

/-- Insert rows in order. -/
def insertAll (table : UniqueTable key) (rows : List Row) : UniqueTable key :=
  rows.foldl insert table

/-- An insert leaves the row of a key or gives it the first one. -/
theorem find_insert (table : UniqueTable key) (row : Row) (value : Key) :
    (table.insert row).find value = (table.rows ++ [row]).find? fun row => key row = value := by
  unfold insert
  split
  · rename_i taken
    rw [List.find?_append]
    by_cases own : key row = value
    · obtain ⟨old, found⟩ := Option.ne_none_iff_exists'.mp
        (mt find_eq_none.mp (not_not_intro (own ▸ taken)) : table.find value ≠ none)
      simp only [find] at found ⊢
      rw [found, Option.some_or]
    · rw [List.find?_cons_of_neg (by simpa using own), List.find?_nil, Option.or_none, find]
  · rfl

/-- Under every key the row stays that was offered first. -/
theorem find_insertAll (table : UniqueTable key) (rows : List Row) (value : Key) :
    (table.insertAll rows).find value =
      (table.rows ++ rows).find? fun row => key row = value := by
  induction rows generalizing table with
  | nil => rw [List.append_nil]; rfl
  | cons row rest induction =>
      have first := find_insert table row value
      simp only [find] at first
      rw [insertAll, List.foldl_cons, ← insertAll, induction, List.find?_append, first,
        ← List.find?_append, List.append_assoc, List.singleton_append]

/-- The rows of a key that meet a condition are at most one: the row that the key finds. -/
theorem filter_key (table : UniqueTable key) (value : Key) (meets : Row → Bool) :
    table.rows.filter (fun row => key row = value && meets row) =
      ((table.find value).filter meets).toList := by
  obtain ⟨rows, unique⟩ := table
  simp only [find]
  induction rows with
  | nil => rfl
  | cons first rest induction =>
      obtain ⟨fresh, distinct⟩ := List.nodup_cons.mp unique
      by_cases own : key first = value
      · have others : rest.filter (fun row => key row = value && meets row) = [] := by
          refine List.filter_eq_nil_iff.mpr fun row member both => ?_
          have same : key row = value := by simpa using (Bool.and_eq_true_iff.mp both).1
          exact fresh (own.trans same.symm ▸ List.mem_map_of_mem member)
        rw [List.find?_cons_of_pos (by simpa using own), List.filter_cons, others]
        cases met : meets first <;> simp [own, met, Option.filter]
      · rw [List.find?_cons_of_neg (by simpa using own), List.filter_cons_of_neg (by simp [own])]
        exact induction distinct

end UniqueTable
