import RateEngine.Lib.SerialTable

/-!
# Tables with a serial key and a unique name

A table whose rows have a serial key and a name that no other row has.  Inserting a row needs a new
name; it leaves what every old key and every other name finds.
-/

/-- Rows under serial keys, with distinct names. -/
structure NamedTable {α Name : Type*} (name : α → Name) extends SerialTable α where
  names_nodup : (rows.map fun row => name row.2).Nodup

namespace SerialTable

variable {α : Type*} {table : SerialTable α} {key : ℕ} {value : α}

/-- The row of a key. -/
def get? (table : SerialTable α) (key : ℕ) : Option α :=
  (table.rows.find? fun row => row.1 = key).map Prod.snd

theorem get?_eq_some_iff : table.get? key = some value ↔ (key, value) ∈ table.rows := by
  constructor
  · intro found
    obtain ⟨row, at_key, rfl⟩ := Option.map_eq_some_iff.mp found
    have own : row.1 = key := by simpa using List.find?_some at_key
    exact own ▸ List.mem_of_find?_eq_some at_key
  · intro member
    cases found : table.rows.find? fun row => row.1 = key with
    | none =>
        have other := List.find?_eq_none.mp found _ member
        simp at other
    | some row =>
        have own : row.1 = key := by simpa using List.find?_some found
        have old : (key, row.2) ∈ table.rows := own ▸ List.mem_of_find?_eq_some found
        rw [get?, found, Option.map_some, value_eq_of_mem_rows old member]

theorem lt_next_of_mem (member : (key, value) ∈ table.rows) : key < table.next :=
  table.key_lt _ member

theorem mem_insert {value' : α} :
    (key, value') ∈ (table.insert value).rows ↔
      (key, value') ∈ table.rows ∨ key = table.next ∧ value' = value := by
  simp [insert]

theorem mem_insert_self (table : SerialTable α) (value : α) :
    (table.next, value) ∈ (table.insert value).rows := mem_insert.mpr (Or.inr ⟨rfl, rfl⟩)

theorem filter_key (member : (key, value) ∈ table.rows) :
    table.rows.filter (fun row => row.1 = key) = [(key, value)] := by
  have nodup : table.rows.Nodup := table.keys_nodup.of_map
  have one : (table.rows.filter fun row => row.1 = key).Perm [(key, value)] := by
    refine (List.perm_ext_iff_of_nodup (nodup.filter _) (List.nodup_singleton _)).mpr fun row => ?_
    rw [List.mem_filter, List.mem_singleton, decide_eq_true_eq]
    constructor
    · rintro ⟨old, rfl⟩
      exact Prod.ext rfl (value_eq_of_mem_rows old member)
    · rintro rfl
      exact ⟨member, rfl⟩
  exact List.perm_singleton.mp one

/-- The table has grown by inserts. -/
structure Extends (table table' : SerialTable α) : Prop where
  rows : ∃ new, table'.rows = table.rows ++ new
  next_le : table.next ≤ table'.next
  old_keys : ∀ row ∈ table'.rows, row.1 < table.next → row ∈ table.rows

namespace Extends

variable {table' table'' : SerialTable α}

theorem refl (table : SerialTable α) : Extends table table :=
  ⟨⟨[], by simp⟩, Nat.le_refl _, fun _ member _ => member⟩

theorem trans (first : Extends table table') (later : Extends table' table'') :
    Extends table table'' := by
  obtain ⟨new, rows⟩ := first.rows
  obtain ⟨new', rows'⟩ := later.rows
  refine ⟨⟨new ++ new', by rw [rows', rows, List.append_assoc]⟩,
    first.next_le.trans later.next_le, fun row member below => ?_⟩
  exact first.old_keys row (later.old_keys row member (below.trans_le first.next_le)) below

theorem insert (table : SerialTable α) (value : α) : Extends table (table.insert value) := by
  refine ⟨⟨_, rfl⟩, Nat.le_succ _, fun row member below => ?_⟩
  rcases List.mem_append.mp member with old | new
  · exact old
  · obtain rfl := List.mem_singleton.mp new
    exact absurd below (Nat.lt_irrefl _)

theorem mem (grown : Extends table table') {row : ℕ × α} (member : row ∈ table.rows) :
    row ∈ table'.rows := by
  obtain ⟨new, rows⟩ := grown.rows
  exact rows ▸ List.mem_append_left new member

/-- A key that was handed out keeps its row, or stays without one. -/
theorem get?_eq (grown : Extends table table') (below : key < table.next) :
    table'.get? key = table.get? key := by
  refine Option.ext fun value => ?_
  rw [get?_eq_some_iff, get?_eq_some_iff]
  exact ⟨fun member => grown.old_keys _ member below, grown.mem⟩

end Extends

end SerialTable

namespace NamedTable

variable {α Name : Type*} [DecidableEq Name] {name : α → Name} {table : NamedTable name}
  {key : ℕ} {value : α} {n : Name}

/-- A table without rows. -/
def empty (name : α → Name) : NamedTable name where
  toSerialTable := .empty
  names_nodup := List.nodup_nil

/-- The row of a name, with its key. -/
def find (table : NamedTable name) (n : Name) : Option (ℕ × α) :=
  table.rows.find? fun row => name row.2 = n

/-- The key of a name. -/
def keyOf (table : NamedTable name) (n : Name) : Option ℕ := (table.find n).map Prod.fst

omit [DecidableEq Name] in
/-- A name has one row. -/
theorem row_eq_of_name {row row' : ℕ × α} (member : row ∈ table.rows)
    (member' : row' ∈ table.rows) (same : name row.2 = name row'.2) : row = row' :=
  List.inj_on_of_nodup_map table.names_nodup member member' same

theorem find_eq_some_iff {row : ℕ × α} :
    table.find n = some row ↔ row ∈ table.rows ∧ name row.2 = n := by
  constructor
  · intro found
    exact ⟨List.mem_of_find?_eq_some found, by simpa using List.find?_some found⟩
  · rintro ⟨member, own⟩
    cases found : table.find n with
    | none => exact absurd own (by simpa using List.find?_eq_none.mp found row member)
    | some row' =>
        have own' : name row'.2 = n := by simpa using List.find?_some found
        exact congrArg some
          (row_eq_of_name (List.mem_of_find?_eq_some found) member (own'.trans own.symm))

theorem find_eq_none_iff : table.find n = none ↔ n ∉ table.rows.map fun row => name row.2 := by
  simp [find]

theorem keyOf_eq_some_iff : table.keyOf n = some key ↔ ∃ value, (key, value) ∈ table.rows ∧
    name value = n := by
  simp only [keyOf, Option.map_eq_some_iff, find_eq_some_iff]
  constructor
  · rintro ⟨⟨key, value⟩, ⟨member, own⟩, rfl⟩
    exact ⟨value, member, own⟩
  · rintro ⟨value, member, own⟩
    exact ⟨(key, value), ⟨member, own⟩, rfl⟩

theorem keyOf_eq_none_iff : table.keyOf n = none ↔ n ∉ table.rows.map fun row => name row.2 := by
  rw [keyOf, Option.map_eq_none_iff, find_eq_none_iff]

/-- Insert a row with a new name. -/
def insertNew (table : NamedTable name) (value : α)
    (fresh : name value ∉ table.rows.map fun row => name row.2) : NamedTable name where
  toSerialTable := table.toSerialTable.insert value
  names_nodup := by
    rw [SerialTable.insert, List.map_append, List.nodup_append]
    refine ⟨table.names_nodup, List.nodup_singleton _, ?_⟩
    intro old taken new own same
    obtain rfl : new = name value := List.mem_singleton.mp own
    exact fresh (same ▸ taken)

/-- A new row is found under its name, and nothing else changes. -/
theorem find_insertNew (fresh : name value ∉ table.rows.map fun row => name row.2) :
    (table.insertNew value fresh).find n =
      if name value = n then some (table.next, value) else table.find n := by
  split
  · rename_i own
    rw [find_eq_some_iff]
    exact ⟨SerialTable.mem_insert_self _ value, own⟩
  · rename_i other
    refine Option.ext fun row => ?_
    rw [find_eq_some_iff, find_eq_some_iff]
    refine and_congr_left fun own => ?_
    refine ⟨fun known => ?_, fun known => SerialTable.mem_insert.mpr (Or.inl known)⟩
    exact (SerialTable.mem_insert.mp known).resolve_right fun new => other (new.2 ▸ own)

/-- A name keeps its key. -/
theorem keyOf_of_extends {table' : NamedTable name}
    (grown : table.toSerialTable.Extends table'.toSerialTable) (known : table.keyOf n = some key) :
    table'.keyOf n = some key := by
  obtain ⟨value, member, own⟩ := keyOf_eq_some_iff.mp known
  exact keyOf_eq_some_iff.mpr ⟨value, grown.mem member, own⟩

/-- A key has one name. -/
theorem name_eq_of_keyOf {n' : Name} (known : table.keyOf n = some key)
    (known' : table.keyOf n' = some key) : n = n' := by
  obtain ⟨value, member, rfl⟩ := keyOf_eq_some_iff.mp known
  obtain ⟨value', member', rfl⟩ := keyOf_eq_some_iff.mp known'
  rw [SerialTable.value_eq_of_mem_rows member member']

theorem keyOf_insertNew (fresh : name value ∉ table.rows.map fun row => name row.2) :
    (table.insertNew value fresh).keyOf n =
      if name value = n then some table.next else table.keyOf n := by
  rw [keyOf, find_insertNew]
  split <;> rfl

theorem keyOf_insertNew_self (fresh : name value ∉ table.rows.map fun row => name row.2) :
    (table.insertNew value fresh).keyOf (name value) = some table.next := by
  rw [keyOf_insertNew, if_pos rfl]

end NamedTable
