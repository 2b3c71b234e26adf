import Mathlib.Algebra.BigOperators.Group.List.Basic
import Mathlib.Algebra.Order.BigOperators.Group.List
import Mathlib.Tactic.Abel

/-!
# Tables of slots

A table is a list of cells.  Each cell has a weight, and the total weight of the table changes by
the difference when one cell is rewritten.  A free cell holds `none`; the first free cell is the one
that is taken.
-/

namespace Slots

variable {α β M : Type*}

section Total

/-- The weight of all cells together. -/
def total [AddCommMonoid M] (weight : β → M) (cells : List β) : M := (cells.map weight).sum

@[simp]
theorem total_nil [AddCommMonoid M] (weight : β → M) : total weight [] = 0 := rfl

@[simp]
theorem total_cons [AddCommMonoid M] (weight : β → M) (cell : β) (cells : List β) :
    total weight (cell :: cells) = weight cell + total weight cells := rfl

/-- Weightless cells weigh nothing together. -/
theorem total_eq_zero [AddCommMonoid M] {weight : β → M} {cells : List β}
    (weightless : ∀ cell ∈ cells, weight cell = 0) : total weight cells = 0 :=
  List.sum_eq_zero fun value member => by
    obtain ⟨cell, cell_member, rfl⟩ := List.mem_map.mp member
    exact weightless cell cell_member

theorem total_replicate [AddCommMonoid M] (weight : β → M) (n : ℕ) {cell : β}
    (weightless : weight cell = 0) : total weight (List.replicate n cell) = 0 :=
  total_eq_zero fun _ member => (List.mem_replicate.mp member).2 ▸ weightless

theorem total_nonneg [AddCommMonoid M] [Preorder M] [AddLeftMono M] {weight : β → M}
    {cells : List β} (nonneg : ∀ cell ∈ cells, 0 ≤ weight cell) : 0 ≤ total weight cells := by
  refine List.sum_nonneg fun value member => ?_
  obtain ⟨cell, cell_member, rfl⟩ := List.mem_map.mp member
  exact nonneg cell cell_member

/-- Rewriting one cell changes the total by the difference of the weights. -/
theorem total_set [AddCommGroup M] (weight : β → M) {cells : List β} {i : ℕ} {old : β} (new : β)
    (found : cells[i]? = some old) :
    total weight (cells.set i new) = total weight cells + (weight new - weight old) := by
  induction cells generalizing i with
  | nil => simp at found
  | cons cell rest ih =>
      cases i with
      | zero =>
        obtain rfl : cell = old := by simpa using found
        simp only [List.set_cons_zero, total_cons]
        abel
      | succ i =>
        have found_later : rest[i]? = some old := by simpa using found
        simp only [List.set_cons_succ, total_cons, ih found_later]
        abel

end Total

section Concat

/-- When one cell gets more entries, all cells together get these entries more. -/
theorem flatMap_set_perm {entries : β → List α} {cells : List β} {i : ℕ} {old new : β}
    {extra : List α} (found : cells[i]? = some old) (grown : entries new = entries old ++ extra) :
    ((cells.set i new).flatMap entries).Perm (cells.flatMap entries ++ extra) := by
  induction cells generalizing i with
  | nil => simp at found
  | cons cell rest induction =>
      cases i with
      | zero =>
        obtain rfl : cell = old := by simpa using found
        rw [List.set_cons_zero, List.flatMap_cons, List.flatMap_cons, grown, List.append_assoc,
          List.append_assoc]
        exact List.Perm.append_left _ List.perm_append_comm
      | succ i =>
        have found_later : rest[i]? = some old := by simpa using found
        rw [List.set_cons_succ, List.flatMap_cons, List.flatMap_cons, List.append_assoc]
        exact List.Perm.append_left _ (induction found_later)

end Concat

section Occupy

/-- Take the first free cell; `none` when all are taken. -/
def occupy : List (Option α) → α → Option (List (Option α))
  | [], _ => none
  | none :: rest, value => some (some value :: rest)
  | some taken :: rest, value => (occupy rest value).map (some taken :: ·)

/-- The cell that is taken was free, and no other cell changes. -/
theorem occupy_eq_set {cells cells' : List (Option α)} {value : α}
    (taken : occupy cells value = some cells') :
    ∃ i : ℕ, cells[i]? = some none ∧ cells' = cells.set i (some value) := by
  induction cells generalizing cells' with
  | nil => cases taken
  | cons cell rest ih =>
      cases cell with
      | none =>
        obtain rfl := Option.some.inj taken
        exact ⟨0, rfl, rfl⟩
      | some old =>
        obtain ⟨rest', rest_taken, rfl⟩ := Option.map_eq_some_iff.mp taken
        obtain ⟨i, free, rfl⟩ := ih rest_taken
        exact ⟨i + 1, by simpa using free, rfl⟩

/-- Taking a cell adds the weight of the value. -/
theorem total_occupy [AddCommGroup M] (weight : Option α → M) (weightless : weight none = 0)
    {cells cells' : List (Option α)} {value : α} (taken : occupy cells value = some cells') :
    total weight cells' = total weight cells + weight (some value) := by
  obtain ⟨i, free, rfl⟩ := occupy_eq_set taken
  rw [total_set weight (some value) free, weightless, sub_zero]

/-- A free cell can be taken. -/
theorem exists_occupy {cells : List (Option α)} (free : none ∈ cells) (value : α) :
    ∃ cells', occupy cells value = some cells' := by
  induction cells with
  | nil => exact absurd free List.not_mem_nil
  | cons cell rest induction =>
      cases cell with
      | none => exact ⟨_, rfl⟩
      | some old =>
        obtain ⟨rest', taken⟩ := induction ((List.mem_cons.mp free).resolve_left nofun)
        exact ⟨_, by rw [occupy, taken, Option.map_some]⟩

theorem mem_of_occupy {cells cells' : List (Option α)} {value : α}
    (taken : occupy cells value = some cells') {cell : Option α} (member : cell ∈ cells') :
    cell ∈ cells ∨ cell = some value := by
  obtain ⟨i, -, rfl⟩ := occupy_eq_set taken
  exact (List.mem_or_eq_of_mem_set member)

end Occupy

end Slots
