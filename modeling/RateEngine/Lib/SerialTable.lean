import Mathlib.Algebra.BigOperators.Group.List.Basic
import Mathlib.Data.List.Nodup
import Mathlib.Tactic.Abel

/-!
# Tables with a serial key

A table keeps its rows under keys that a counter hands out.  The counter is above every key, so an
inserted row never meets an old one; the structure carries this as a field.
-/

/-- Rows under serial keys, in insertion order. -/
structure SerialTable (α : Type*) where
  rows : List (ℕ × α)
  /-- The key of the next insert. -/
  next : ℕ
  next_pos : 0 < next
  key_pos : ∀ row ∈ rows, 0 < row.1
  key_lt : ∀ row ∈ rows, row.1 < next
  keys_nodup : (rows.map Prod.fst).Nodup
deriving DecidableEq

namespace SerialTable

variable {α : Type*}

/-- A table without rows. -/
def empty : SerialTable α where
  rows := []
  next := 1
  next_pos := Nat.one_pos
  key_pos := by simp
  key_lt := by simp
  keys_nodup := List.nodup_nil

/-- Insert a row under the next key. -/
def insert (table : SerialTable α) (value : α) : SerialTable α where
  rows := table.rows ++ [(table.next, value)]
  next := table.next + 1
  next_pos := Nat.succ_pos _
  key_pos := by
    intro row member
    rcases List.mem_append.mp member with old | new
    · exact table.key_pos row old
    · obtain rfl := List.mem_singleton.mp new
      exact table.next_pos
  key_lt := by
    intro row member
    rcases List.mem_append.mp member with old | new
    · exact Nat.lt_succ_of_lt (table.key_lt row old)
    · obtain rfl := List.mem_singleton.mp new
      exact Nat.lt_succ_self _
  keys_nodup := by
    rw [List.map_append, List.nodup_append]
    refine ⟨table.keys_nodup, List.nodup_singleton _, ?_⟩
    intro key old new member equal
    obtain ⟨row, row_member, rfl⟩ := List.mem_map.mp old
    have below : row.1 < table.next := table.key_lt row row_member
    have : new = table.next := by simpa using member
    omega

/-- Rewrite the rows that a condition on key and value picks. -/
def update (table : SerialTable α) (picks : ℕ → α → Bool) (change : α → α) : SerialTable α where
  rows := table.rows.map fun row => if picks row.1 row.2 then (row.1, change row.2) else row
  next := table.next
  next_pos := table.next_pos
  key_pos := by
    intro row member
    obtain ⟨old, old_member, rfl⟩ := List.mem_map.mp member
    have := table.key_pos old old_member
    split <;> exact this
  key_lt := by
    intro row member
    obtain ⟨old, old_member, rfl⟩ := List.mem_map.mp member
    have := table.key_lt old old_member
    split <;> exact this
  keys_nodup := by
    have same_keys : (table.rows.map fun row =>
        if picks row.1 row.2 then (row.1, change row.2) else row).map Prod.fst =
          table.rows.map Prod.fst := by
      rw [List.map_map]
      refine List.map_congr_left fun row _ => ?_
      simp only [Function.comp_apply]
      split <;> rfl
    rw [same_keys]
    exact table.keys_nodup

/-- The rows whose value meets a condition. -/
def select (table : SerialTable α) (meets : α → Bool) : List (ℕ × α) :=
  table.rows.filter fun row => meets row.2

theorem select_insert (table : SerialTable α) (value : α) (meets : α → Bool) :
    (table.insert value).select meets =
      table.select meets ++ if meets value then [(table.next, value)] else [] := by
  simp only [select, insert, List.filter_append]
  congr 1
  cases met : meets value <;> simp [met]

/-- An update that does not change who meets the condition maps the selection. -/
theorem select_update (table : SerialTable α) (picks : ℕ → α → Bool) (change : α → α)
    (meets : α → Bool) (keeps : ∀ value, meets (change value) = meets value) :
    (table.update picks change).select meets =
      (table.select meets).map fun row =>
        if picks row.1 row.2 then (row.1, change row.2) else row := by
  simp only [select, update, List.filter_map]
  congr 1
  refine List.filter_congr fun row _ => ?_
  simp only [Function.comp_apply]
  split
  · exact keeps row.2
  · rfl

theorem mem_rows_of_mem_select {table : SerialTable α} {meets : α → Bool} {row : ℕ × α}
    (member : row ∈ table.select meets) : row ∈ table.rows := (List.mem_filter.mp member).1

/-- The row of a selection with one row is a row of the table. -/
theorem mem_rows_of_select_eq {table : SerialTable α} {meets : α → Bool} {key : ℕ} {value : α}
    (one : table.select meets = [(key, value)]) : (key, value) ∈ table.rows := by
  have member : (key, value) ∈ table.select meets := by rw [one]; exact List.mem_singleton_self _
  exact mem_rows_of_mem_select member

/-- A key has one value. -/
theorem value_eq_of_mem_rows {table : SerialTable α} {key : ℕ} {value value' : α}
    (member : (key, value) ∈ table.rows) (member' : (key, value') ∈ table.rows) :
    value = value' := by
  have same : (key, value) = (key, value') :=
    List.inj_on_of_nodup_map table.keys_nodup member member' rfl
  exact congrArg Prod.snd same

theorem key_pos_of_select_eq {table : SerialTable α} {meets : α → Bool} {key : ℕ} {value : α}
    (one : table.select meets = [(key, value)]) : 0 < key :=
  table.key_pos _ (mem_rows_of_select_eq one)

/-! ## Several inserts -/

/-- Insert rows one after the other. -/
def insertAll (table : SerialTable α) (values : List α) : SerialTable α := values.foldl insert table

/-- The rows that inserts add: what `RETURNING` shows. -/
def newRows (table : SerialTable α) (values : List α) : List (ℕ × α) :=
  (values.zipIdx table.next).map Prod.swap

theorem rows_insertAll (table : SerialTable α) (values : List α) :
    (table.insertAll values).rows = table.rows ++ table.newRows values := by
  induction values generalizing table with
  | nil => simp [insertAll, newRows]
  | cons value rest induction =>
      rw [insertAll, List.foldl_cons, ← insertAll, induction]
      simp [newRows, insert]

theorem map_snd_newRows (table : SerialTable α) (values : List α) :
    (table.newRows values).map Prod.snd = values := by
  rw [newRows, List.map_map]
  exact List.zipIdx_map_fst table.next values

theorem key_pos_of_mem_newRows {table : SerialTable α} {values : List α} {row : ℕ × α}
    (member : row ∈ table.newRows values) : 0 < row.1 := by
  have inserted : row ∈ (table.insertAll values).rows := by
    rw [rows_insertAll]
    exact List.mem_append_right _ member
  exact (table.insertAll values).key_pos row inserted

/-- Pass over keys: those of inserts that were taken back. -/
def skip (table : SerialTable α) (keys : ℕ) : SerialTable α where
  rows := table.rows
  next := table.next + keys
  next_pos := Nat.add_pos_left table.next_pos keys
  key_pos := table.key_pos
  key_lt := fun row member => Nat.lt_add_right keys (table.key_lt row member)
  keys_nodup := table.keys_nodup

/-! ## Values -/

/-- The values that meet a condition, in insertion order. -/
def values (table : SerialTable α) (meets : α → Bool) : List α :=
  (table.select meets).map Prod.snd

theorem values_insert (table : SerialTable α) (value : α) (meets : α → Bool) :
    (table.insert value).values meets = table.values meets ++
      if meets value then [value] else [] := by
  rw [values, select_insert, List.map_append]
  congr 1
  split <;> rfl

theorem values_insertAll (table : SerialTable α) (values : List α) (meets : α → Bool) :
    (table.insertAll values).values meets = table.values meets ++ values.filter meets := by
  induction values generalizing table with
  | nil => simp [insertAll]
  | cons value rest induction =>
      rw [insertAll, List.foldl_cons, ← insertAll, induction, values_insert, List.filter_cons]
      split <;> simp

/-- A narrower selection is a selection among the values. -/
theorem values_filter (table : SerialTable α) {narrow meets : α → Bool}
    (narrower : ∀ value, narrow value = true → meets value = true) :
    (table.values meets).filter narrow = table.values narrow := by
  rw [values, values, List.filter_map, select, List.filter_filter]
  congr 1
  refine List.filter_congr fun row _ => ?_
  cases narrow_eq : narrow row.2 with
  | false => simp [narrow_eq]
  | true => simp [narrow_eq, narrower row.2 narrow_eq]

/-- Rewriting the one row that a condition selects, seen on a wider selection. -/
theorem values_update_of_select_eq {table : SerialTable α} {picks meets : α → Bool} {key : ℕ}
    {value : α} (change : α → α) (one : table.select picks = [(key, value)])
    (keeps : ∀ value, meets (change value) = meets value) :
    (table.update (fun key' _ => key' = key) change).values meets =
      (table.values meets).map fun value => if picks value then change value else value := by
  rw [values, select_update _ _ _ _ keeps, values, List.map_map, List.map_map]
  refine List.map_congr_left fun row member => ?_
  have row_member : row ∈ table.rows := mem_rows_of_mem_select member
  have selected : row ∈ table.select picks ↔ row = (key, value) := by simp [one]
  have key_member : (key, value) ∈ table.rows := mem_rows_of_select_eq one
  have same_key : row.1 = key ↔ picks row.2 = true := by
    constructor
    · intro key_eq
      obtain rfl : row = (key, value) :=
        List.inj_on_of_nodup_map table.keys_nodup row_member key_member key_eq
      exact (List.mem_filter.mp (selected.mpr rfl)).2
    · intro picked
      rw [selected.mp (List.mem_filter.mpr ⟨row_member, picked⟩)]
  by_cases picked : picks row.2 = true
  · simp [picked, same_key.mpr picked]
  · have other : row.1 ≠ key := fun key_eq => picked (same_key.mp key_eq)
    simp [picked, other]

/-! ## Totals -/

section Total

variable {M : Type*}

/-- The weight of all values together. -/
def total [AddCommMonoid M] (weight : α → M) (table : SerialTable α) : M :=
  (table.rows.map fun row => weight row.2).sum

theorem total_insert [AddCommMonoid M] (weight : α → M) (table : SerialTable α) (value : α) :
    (table.insert value).total weight = table.total weight + weight value := by
  simp [total, insert]

/-- Rewriting the row under one key changes the total by the difference of the weights. -/
theorem total_update [AddCommGroup M] (weight : α → M) {table : SerialTable α} {key : ℕ} {value : α}
    (change : α → α) (member : (key, value) ∈ table.rows) :
    (table.update (fun key' _ => key' = key) change).total weight =
      table.total weight + (weight (change value) - weight value) := by
  have nodup := table.keys_nodup
  simp only [total, update]
  generalize table.rows = rows at member nodup
  induction rows with
  | nil => cases member
  | cons row rest ih =>
      rw [List.map_cons, List.nodup_cons] at nodup
      obtain ⟨absent, rest_nodup⟩ := nodup
      simp only [List.map_cons, List.sum_cons]
      rcases List.mem_cons.mp member with rfl | later
      · have rest_kept : (rest.map fun row : ℕ × α =>
            if decide (row.1 = key) then (row.1, change row.2) else row) = rest := by
          refine (List.map_congr_left fun row row_member => ?_).trans (List.map_id' rest)
          have other : row.1 ≠ key := by
            rintro rfl
            exact absent (List.mem_map.mpr ⟨_, row_member, rfl⟩)
          simp [other]
        rw [rest_kept]
        simp only [decide_true, if_true]
        abel
      · have other : row.1 ≠ key := by
          rintro rfl
          exact absent (List.mem_map.mpr ⟨_, later, rfl⟩)
        rw [ih later rest_nodup]
        simp only [other, decide_false, Bool.false_eq_true, if_false]
        abel

end Total

end SerialTable
