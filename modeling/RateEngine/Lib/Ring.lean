import Mathlib.Data.Int.ModEq
import Mathlib.Data.List.Basic

/-!
# Rings of cells

A queue can be kept in a ring: its entries lie in the cells from the head on, and the tail is the
cell behind the last entry, both counted modulo the capacity.  This file relates the ring to the
list of its entries and proves what writing at the tail and stepping the head do to that list.
-/

variable {α : Type*} {capacity head tail : ℕ} {cells entries : List α}

/-- The ring of `capacity` cells holds the entries, the first of them in the cell of the head. -/
structure RingHolds (capacity : ℕ) (cells : List α) (head tail : ℕ) (entries : List α) : Prop where
  length_eq : cells.length = capacity
  head_lt : head < capacity
  tail_eq : tail = (head + entries.length) % capacity
  fits : entries.length ≤ capacity
  stored : ∀ i < entries.length, cells[(head + i) % capacity]? = entries[i]?

namespace RingHolds

/-- A ring whose tail is at the head can be read as empty. -/
theorem nil (length_eq : cells.length = capacity) (head_lt : head < capacity) :
    RingHolds capacity cells head head ([] : List α) where
  length_eq := length_eq
  head_lt := head_lt
  tail_eq := (Nat.mod_eq_of_lt head_lt).symm
  fits := Nat.zero_le capacity
  stored i lt := absurd lt (Nat.not_lt_zero i)

/-- Different entries of a ring lie in different cells. -/
theorem index_ne {i j : ℕ} (head : ℕ) (lt : i < j) (bound : j < capacity) :
    (head + i) % capacity ≠ (head + j) % capacity := by
  intro same
  have congruent : i ≡ j [MOD capacity] := Nat.ModEq.add_left_cancel' head same
  exact lt.ne (congruent.eq_of_lt_of_lt (lt.trans bound) bound)

/-- Writing the cell of the tail appends an entry, unless the ring is full. -/
theorem push (holds : RingHolds capacity cells head tail entries)
    (room : entries.length < capacity) (entry : α) :
    RingHolds capacity (cells.set tail entry) head ((tail + 1) % capacity)
      (entries ++ [entry]) where
  length_eq := by rw [List.length_set, holds.length_eq]
  head_lt := holds.head_lt
  tail_eq := by
    rw [holds.tail_eq, List.length_append, List.length_singleton, Nat.mod_add_mod, Nat.add_assoc]
  fits := by
    rw [List.length_append, List.length_singleton]
    exact room
  stored i lt := by
    have positive : 0 < capacity := Nat.zero_lt_of_lt holds.head_lt
    rw [List.length_append, List.length_singleton] at lt
    rcases Nat.lt_succ_iff_lt_or_eq.mp lt with earlier | rfl
    · have apart : tail ≠ (head + i) % capacity := by
        rw [holds.tail_eq]
        exact (index_ne head earlier room).symm
      rw [List.getElem?_set_ne apart, holds.stored i earlier, List.getElem?_append_left earlier]
    · have inside : tail < cells.length := by
        rw [holds.tail_eq, holds.length_eq]
        exact Nat.mod_lt _ positive
      rw [← holds.tail_eq, List.getElem?_set_self inside, List.getElem?_concat_length]

/-- The cell of the head holds the first entry. -/
theorem front {entry : α} (holds : RingHolds capacity cells head tail (entry :: entries)) :
    cells[head]? = some entry := by
  have first := holds.stored 0 (Nat.zero_lt_succ _)
  rwa [Nat.add_zero, Nat.mod_eq_of_lt holds.head_lt, List.getElem?_cons_zero] at first

/-- Stepping the head drops the first entry. -/
theorem pop {entry : α} (holds : RingHolds capacity cells head tail (entry :: entries)) :
    RingHolds capacity cells ((head + 1) % capacity) tail entries where
  length_eq := holds.length_eq
  head_lt := Nat.mod_lt _ (Nat.zero_lt_of_lt holds.head_lt)
  tail_eq := by
    rw [holds.tail_eq, List.length_cons, Nat.mod_add_mod, Nat.add_right_comm, Nat.add_assoc]
  fits := (Nat.le_succ _).trans holds.fits
  stored i lt := by
    have next := holds.stored (i + 1) (Nat.succ_lt_succ lt)
    rwa [List.getElem?_cons_succ, Nat.add_comm i 1, ← Nat.add_assoc, ← Nat.mod_add_mod] at next

end RingHolds
