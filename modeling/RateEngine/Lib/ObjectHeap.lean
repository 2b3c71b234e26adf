import Mathlib.Algebra.Group.Pi.Basic
import Mathlib.Tactic.Ring
import RateEngine.Lib.Slots

/-!
# Objects, owners and frees

A heap names its objects by numbers, counts how often each was freed and how often a freed one was
used.  Parties own objects.  A heap is conserved when every object is either freed once or owned by
one party: then no object that has an owner was freed, and an object without owner was freed exactly
once.
-/

/-- Objects with the number of times each was freed, and the number of uses of freed objects. -/
structure ObjectHeap (α : Type*) where
  cells : List (α × ℕ) := []
  faults : ℕ := 0
deriving DecidableEq, Repr

namespace ObjectHeap

variable {α : Type*}

/-- The name of the next object. -/
def next (h : ObjectHeap α) : ℕ := h.cells.length

/-- The contents of an object. -/
def get? (h : ObjectHeap α) (p : ℕ) : Option α := (h.cells[p]?).map Prod.fst

/-- How often an object was freed. -/
def frees (h : ObjectHeap α) (p : ℕ) : ℕ := (h.cells[p]?).elim 0 Prod.snd

/-- A new object. -/
def alloc (h : ObjectHeap α) (value : α) : ObjectHeap α :=
  { h with cells := h.cells ++ [(value, 0)] }

/-- Use objects: each freed one is a fault. -/
def use (h : ObjectHeap α) (ps : List ℕ) : ObjectHeap α :=
  { h with faults := h.faults + ps.countP fun p => 0 < h.frees p }

/-- Write an object. -/
def write (h : ObjectHeap α) (p : ℕ) (change : α → α) : ObjectHeap α :=
  { h.use [p] with cells := h.cells.modify p (Prod.map change id) }

/-- Free an object. -/
def free (h : ObjectHeap α) (p : ℕ) : ObjectHeap α :=
  { h with cells := h.cells.modify p (Prod.map id (· + 1)) }

section Equations

variable (h : ObjectHeap α) (value : α) (change : α → α) (p q : ℕ) (ps : List ℕ)

@[simp] theorem next_alloc : (h.alloc value).next = h.next + 1 := by simp [next, alloc]

@[simp] theorem next_use : (h.use ps).next = h.next := rfl

@[simp] theorem next_write : (h.write p change).next = h.next := by simp [next, write, use]

@[simp] theorem next_free : (h.free p).next = h.next := by simp [next, free]

theorem get?_alloc : (h.alloc value).get? p = if p = h.next then some value else h.get? p := by
  rw [get?, alloc, next]
  rcases lt_trichotomy p h.cells.length with below | rfl | above
  · rw [List.getElem?_append_left below, if_neg below.ne, get?]
  · simp
  · rw [if_neg above.ne', get?, List.getElem?_eq_none (by simp; omega),
      List.getElem?_eq_none above.le]

@[simp] theorem get?_use : (h.use ps).get? p = h.get? p := rfl

theorem get?_write :
    (h.write p change).get? q = if p = q then (h.get? q).map change else h.get? q := by
  simp only [get?, write, use, List.getElem?_modify]
  split
  · cases h.cells[q]? <;> rfl
  · simp

@[simp] theorem get?_free : (h.free p).get? q = h.get? q := by
  simp only [get?, free, List.getElem?_modify]
  cases h.cells[q]? with
  | none => rfl
  | some cell =>
      simp only [Option.map_eq_map, Option.map_some]
      split <;> rfl

@[simp] theorem frees_alloc : (h.alloc value).frees p = h.frees p := by
  simp only [frees, alloc]
  rcases lt_trichotomy p h.cells.length with below | rfl | above
  · rw [List.getElem?_append_left below]
  · simp
  · rw [List.getElem?_eq_none (by simp; omega), List.getElem?_eq_none above.le]

@[simp] theorem frees_use : (h.use ps).frees p = h.frees p := rfl

@[simp] theorem frees_write : (h.write p change).frees q = h.frees q := by
  simp only [frees, write, use, List.getElem?_modify]
  cases h.cells[q]? with
  | none => rfl
  | some cell =>
      simp only [Option.elim_some]
      split <;> rfl

theorem frees_free (allocated : p < h.next) :
    (h.free p).frees q = h.frees q + if p = q then 1 else 0 := by
  simp only [frees, free, List.getElem?_modify]
  by_cases same : p = q
  · subst same
    rw [next] at allocated
    simp [List.getElem?_eq_getElem allocated]
  · cases h.cells[q]? <;> simp [same]

theorem get?_eq_none (free : h.next ≤ p) : h.get? p = none := by
  rw [get?, List.getElem?_eq_none (by rwa [next] at free), Option.map_none]

theorem get?_isSome (allocated : p < h.next) : ∃ value, h.get? p = some value := by
  rw [next] at allocated
  exact ⟨_, by rw [get?, List.getElem?_eq_getElem allocated, Option.map_some]⟩

@[simp] theorem faults_alloc : (h.alloc value).faults = h.faults := rfl

@[simp] theorem faults_free : (h.free p).faults = h.faults := rfl

@[simp] theorem faults_write : (h.write p change).faults = (h.use [p]).faults := rfl

/-- Using objects that were not freed is no fault. -/
theorem faults_use {h : ObjectHeap α} {ps : List ℕ} (unfreed : ∀ p ∈ ps, h.frees p = 0) :
    (h.use ps).faults = h.faults := by
  have none_freed : ps.countP (fun p => 0 < h.frees p) = 0 := by
    rw [List.countP_eq_zero]
    intro p member
    simp [unfreed p member]
  simp [use, none_freed]

/-- Using objects that were not freed does nothing. -/
theorem use_eq {h : ObjectHeap α} {ps : List ℕ} (unfreed : ∀ p ∈ ps, h.frees p = 0) :
    h.use ps = h :=
  congrArg (ObjectHeap.mk h.cells) (faults_use unfreed)

theorem frees_next : h.frees h.next = 0 := by
  rw [frees, next, List.getElem?_eq_none le_rfl]
  rfl

theorem lt_next_of_get? {h : ObjectHeap α} {p : ℕ} {value : α} (content : h.get? p = some value) :
    p < h.next := by
  by_contra free
  rw [get?_eq_none h p (not_lt.mp free)] at content
  cases content

end Equations

end ObjectHeap

/-! ## Owners -/

namespace Slots

variable {β : Type*}

/-- One for the object, if there is one. -/
def unit (object : Option ℕ) : ℕ → ℤ := fun p => if object = some p then 1 else 0

@[simp] theorem unit_none : unit none = 0 := by
  funext p
  simp [unit]

theorem unit_nonneg (object : Option ℕ) (p : ℕ) : 0 ≤ unit object p := by
  rw [unit]
  split <;> decide

/-- How often each object is owned by the parties of a list. -/
def held (owns : β → Option ℕ) (parties : List β) : ℕ → ℤ :=
  total (fun party => unit (owns party)) parties

variable {owns : β → Option ℕ} {parties : List β}

theorem held_cons (party : β) (rest : List β) :
    held owns (party :: rest) = unit (owns party) + held owns rest := rfl

theorem held_nonneg (owns : β → Option ℕ) (parties : List β) (p : ℕ) :
    0 ≤ held owns parties p := by
  induction parties with
  | nil => exact le_rfl
  | cons party rest induction =>
      have head_nonneg := unit_nonneg (owns party) p
      rw [held_cons, Pi.add_apply]
      omega

/-- One party changes what it owns. -/
theorem held_set {i : ℕ} {old : β} (new : β) (found : parties[i]? = some old) :
    held owns (parties.set i new) =
      held owns parties + (unit (owns new) - unit (owns old)) :=
  total_set _ new found

/-- An object that a party owns is held. -/
theorem held_pos {party : β} {p : ℕ} (member : party ∈ parties) (own : owns party = some p) :
    1 ≤ held owns parties p := by
  induction parties with
  | nil => cases member
  | cons head rest induction =>
      have head_nonneg := unit_nonneg (owns head) p
      have rest_nonneg := held_nonneg owns rest p
      rw [held_cons, Pi.add_apply]
      rcases List.mem_cons.mp member with rfl | later
      · rw [unit, if_pos own]
        omega
      · have := induction later
        omega

/-- An object that is held has an owner. -/
theorem exists_of_held_pos {p : ℕ} (positive : 1 ≤ held owns parties p) :
    ∃ party ∈ parties, owns party = some p := by
  induction parties with
  | nil => exact absurd positive (by simp [held])
  | cons head rest induction =>
      by_cases own : owns head = some p
      · exact ⟨head, List.mem_cons_self, own⟩
      · rw [held_cons, Pi.add_apply, unit, if_neg own, zero_add] at positive
        obtain ⟨party, member, own⟩ := induction positive
        exact ⟨party, List.mem_cons_of_mem head member, own⟩

/-- Parties that own nothing hold nothing. -/
theorem held_eq_zero (idle : ∀ party ∈ parties, owns party = none) : held owns parties = 0 :=
  total_eq_zero fun party member => by rw [idle party member, unit_none]

/-- Parties that own less hold less. -/
theorem held_le {owns' : β → Option ℕ} {p : ℕ}
    (less : ∀ party, owns party = some p → owns' party = some p) :
    held owns parties p ≤ held owns' parties p := by
  induction parties with
  | nil => exact le_rfl
  | cons head rest induction =>
      have head_le : unit (owns head) p ≤ unit (owns' head) p := by
        unfold unit
        by_cases own : owns head = some p
        · rw [if_pos own, if_pos (less head own)]
        · rw [if_neg own]
          exact unit_nonneg (owns' head) p
      rw [held_cons, held_cons, Pi.add_apply, Pi.add_apply]
      omega

/-- When the pointer of one object changes, what is owned through it changes for each owner of that
object. -/
theorem held_via_update {ptr ptr' : ℕ → Option ℕ} {c : ℕ} (others : ∀ p ≠ c, ptr' p = ptr p) :
    held (fun party => (owns party).bind ptr') parties =
      held (fun party => (owns party).bind ptr) parties +
        held owns parties c • (unit (ptr' c) - unit (ptr c)) := by
  induction parties with
  | nil => simp [held]
  | cons party rest induction =>
      simp only [held_cons] at induction ⊢
      rw [induction, Pi.add_apply, add_zsmul]
      cases own : owns party with
      | none => simp [unit]
      | some p =>
          by_cases same : p = c
          · subst same
            simp only [Option.bind_some, unit, if_true, one_zsmul]
            abel
          · have unowned : unit (some p) c = 0 := by simp [unit, same]
            rw [Option.bind_some, Option.bind_some, others p same, unowned,
              zero_zsmul, zero_add, add_assoc]

end Slots

namespace ObjectHeap

open Slots

variable {α : Type*} {h : ObjectHeap α} {held : ℕ → ℤ}

/-- Every object is freed or owned, once in all. -/
def Conserved (h : ObjectHeap α) (held : ℕ → ℤ) : Prop :=
  ∀ p, (h.frees p : ℤ) + held p = if p < h.next then 1 else 0

namespace Conserved

theorem empty : Conserved ({} : ObjectHeap α) 0 := by
  intro p
  simp [frees, next]

/-- A new object gets an owner. -/
theorem alloc (conserved : h.Conserved held) (value : α) :
    (h.alloc value).Conserved (held + unit (some h.next)) := by
  intro p
  have old := conserved p
  rw [frees_alloc, next_alloc, Pi.add_apply, unit]
  split at old <;> split <;> split <;> simp_all <;> omega

/-- An owned object is freed. -/
theorem free (conserved : h.Conserved held) {p : ℕ} (allocated : p < h.next) :
    (h.free p).Conserved (held - unit (some p)) := by
  intro q
  have old := conserved q
  rw [frees_free _ _ _ allocated, next_free, Pi.sub_apply, unit, ← old]
  simp only [Option.some.injEq]
  split <;> push_cast <;> ring

theorem use (conserved : h.Conserved held) (ps : List ℕ) : (h.use ps).Conserved held := conserved

theorem write (conserved : h.Conserved held) (p : ℕ) (change : α → α) :
    (h.write p change).Conserved held := by
  intro q
  rw [frees_write, next_write]
  exact conserved q

section Owned

variable (conserved : h.Conserved held) {p : ℕ} (owned : 1 ≤ held p)
include conserved owned

theorem lt_next : p < h.next := by
  have once := conserved p
  split at once
  · assumption
  · omega

theorem frees_eq_zero : h.frees p = 0 := by
  have once := conserved p
  split at once <;> omega

theorem held_eq_one : held p = 1 := by
  have once := conserved p
  split at once <;> omega

end Owned

/-- An object was freed once, or it was not freed and has an owner. -/
theorem frees_or_held (conserved : h.Conserved held) (nonneg : ∀ p, 0 ≤ held p) {p : ℕ}
    (allocated : p < h.next) : h.frees p = 1 ∨ h.frees p = 0 ∧ 1 ≤ held p := by
  have once := conserved p
  rw [if_pos allocated] at once
  have := nonneg p
  omega

end Conserved

end ObjectHeap
