import Mathlib.Algebra.BigOperators.Group.List.Basic
import Mathlib.Algebra.Order.BigOperators.Group.List
import Mathlib.Algebra.Order.Ring.Defs
import Mathlib.Tactic.Linarith

/-!
# Counts that start anew

A count runs over a list of entries and adds the gain of each; before it does, it may start anew at
zero, which a test on the count and the threshold of the entry decides.  The plain count never
starts anew, and the guarded count does so below the threshold.  The guarded count is monotone in
its start, and it keeps what the plain count from zero reaches exactly when no restart loses
gains that are still needed for a cap.
-/

namespace Tally

/-- One entry: the threshold below which a count starts anew, and the gain. -/
structure Entry (K : Type*) where
  threshold : K
  gain : K
deriving DecidableEq, Repr

section Count

variable {K : Type*} [Zero K] [Add K]

/-- The count over the entries, from `start` on. -/
def count (restarts : K → K → Bool) : List (Entry K) → K → K
  | [], start => start
  | entry :: rest, start =>
      count restarts rest ((if restarts start entry.threshold then 0 else start) + entry.gain)

/-- All gains of the entries. -/
def total (entries : List (Entry K)) : K := (entries.map Entry.gain).sum

@[simp]
theorem total_nil : total ([] : List (Entry K)) = 0 := rfl

@[simp]
theorem total_cons (entry : Entry K) (rest : List (Entry K)) :
    total (entry :: rest) = entry.gain + total rest := rfl

/-- The test that never restarts. -/
def never : K → K → Bool := fun _ _ => false

/-- The test that restarts below the threshold. -/
def below [LT K] [DecidableLT K] : K → K → Bool := fun count threshold => count < threshold

/-- No entry takes from the count. -/
def Nonneg [LE K] (entries : List (Entry K)) : Prop := ∀ entry ∈ entries, 0 ≤ entry.gain

omit [Add K] in
theorem Nonneg.tail [LE K] {entry : Entry K} {rest : List (Entry K)}
    (nonneg : Nonneg (entry :: rest)) : Nonneg rest :=
  fun other member => nonneg other (List.mem_cons_of_mem _ member)

end Count

theorem count_never {K : Type*} [AddMonoid K] (entries : List (Entry K)) (start : K) :
    count never entries start = start + total entries := by
  induction entries generalizing start with
  | nil => simp [count]
  | cons entry rest induction => simp [count, never, induction, add_assoc]

section Ordered

variable {K : Type*} [CommRing K] [LinearOrder K] [IsStrictOrderedRing K]

theorem total_nonneg {entries : List (Entry K)} (nonneg : Nonneg entries) : 0 ≤ total entries := by
  apply List.sum_nonneg
  intro gain member
  obtain ⟨entry, entry_member, rfl⟩ := List.mem_map.mp member
  exact nonneg entry entry_member

/-- Whatever the test, a count stays between zero and the plain count. -/
theorem count_bounds (restarts : K → K → Bool) {entries : List (Entry K)}
    (nonneg : Nonneg entries) {start : K} (start_nonneg : 0 ≤ start) :
    0 ≤ count restarts entries start ∧ count restarts entries start ≤ start + total entries := by
  induction entries generalizing start with
  | nil => simpa [count] using start_nonneg
  | cons entry rest induction =>
      have gain_nonneg : 0 ≤ entry.gain := nonneg entry List.mem_cons_self
      rw [count, total_cons]
      cases restarts start entry.threshold with
      | false =>
          have tail := induction nonneg.tail (add_nonneg start_nonneg gain_nonneg)
          exact ⟨tail.1, tail.2.trans_eq (add_assoc _ _ _)⟩
      | true =>
          have tail := induction nonneg.tail (add_nonneg le_rfl gain_nonneg)
          refine ⟨tail.1, tail.2.trans ?_⟩
          rw [zero_add]
          exact le_add_of_nonneg_left start_nonneg

/-- From a bound up where no entry restarts it, a count does not fall below its start. -/
theorem start_le_count {restarts : K → K → Bool} {entries : List (Entry K)}
    (nonneg : Nonneg entries) {bound start : K}
    (quiet : ∀ entry ∈ entries, ∀ held, bound ≤ held → restarts held entry.threshold = false)
    (high : bound ≤ start) : start ≤ count restarts entries start := by
  induction entries generalizing start with
  | nil => exact le_rfl
  | cons entry rest induction =>
      have gain_nonneg : 0 ≤ entry.gain := nonneg entry List.mem_cons_self
      have carried : (if restarts start entry.threshold then 0 else start) = start := by
        simp [quiet entry List.mem_cons_self start high]
      rw [count, carried]
      calc
        start ≤ start + entry.gain := le_add_of_nonneg_right gain_nonneg
        _ ≤ count restarts rest (start + entry.gain) :=
          induction nonneg.tail
            (fun other member => quiet other (List.mem_cons_of_mem _ member))
            (high.trans (le_add_of_nonneg_right gain_nonneg))

/-- Two tests that agree below a bound give the same count when the count ends below it, provided
that the count does not restart from the bound up. -/
theorem count_eq_of_lt {restarts other : K → K → Bool} {entries : List (Entry K)}
    (nonneg : Nonneg entries) {bound start : K} (start_nonneg : 0 ≤ start)
    (agree : ∀ held threshold, 0 ≤ held → held < bound →
      other held threshold = restarts held threshold)
    (quiet : ∀ entry ∈ entries, ∀ held, bound ≤ held → restarts held entry.threshold = false)
    (small : count restarts entries start < bound) :
    count other entries start = count restarts entries start := by
  induction entries generalizing start with
  | nil => rfl
  | cons entry rest induction =>
      have gain_nonneg : 0 ≤ entry.gain := nonneg entry List.mem_cons_self
      have low : start < bound := by
        by_contra high
        rw [not_lt] at high
        exact absurd (high.trans (start_le_count nonneg quiet high)) (not_le.mpr small)
      rw [count] at small ⊢
      rw [count, agree start entry.threshold start_nonneg low]
      refine induction nonneg.tail (add_nonneg ?_ gain_nonneg)
        (fun other member => quiet other (List.mem_cons_of_mem _ member)) small
      split
      · exact le_rfl
      · exact start_nonneg

/-- One step of the guarded count is monotone. -/
theorem restart_mono (threshold : K) {few many : K} (few_nonneg : 0 ≤ few) (few_le : few ≤ many) :
    (if below few threshold then 0 else few) ≤ if below many threshold then 0 else many := by
  simp only [below, decide_eq_true_eq]
  split <;> split <;> linarith

/-- A larger start never gives a smaller guarded count. -/
theorem count_below_mono {entries : List (Entry K)} (nonneg : Nonneg entries) {few many : K}
    (few_nonneg : 0 ≤ few) (few_le : few ≤ many) :
    count below entries few ≤ count below entries many := by
  induction entries generalizing few many with
  | nil => exact few_le
  | cons entry rest induction =>
      refine induction nonneg.tail (add_nonneg ?_ (nonneg entry List.mem_cons_self))
        (add_le_add_left (restart_mono entry.threshold few_nonneg few_le) _)
      split
      · exact le_rfl
      · exact few_nonneg

/-- No restart of the guarded count from `start` loses gains that the cap needs.  `gained` are the
gains so far, without restarts: when there are any, a restart may happen only where the gains from
there on reach the cap. -/
def Keeps (cap : K) : List (Entry K) → K → K → Prop
  | [], _, _ => True
  | entry :: rest, start, gained =>
      if start < entry.threshold then
        (0 < gained → cap ≤ total (entry :: rest)) ∧ Keeps cap rest entry.gain (gained + entry.gain)
      else Keeps cap rest (start + entry.gain) (gained + entry.gain)

/-- The guarded count reaches what the plain count from `gained` on reaches below the cap exactly
when it keeps the gains. -/
theorem min_le_count_below_iff (cap : K) {entries : List (Entry K)} (nonneg : Nonneg entries)
    {start gained : K} (start_nonneg : 0 ≤ start) (gained_nonneg : 0 ≤ gained)
    (kept : gained ≤ start ∨ cap ≤ start + total entries) :
    min cap (gained + total entries) ≤ count below entries start ↔
      Keeps cap entries start gained := by
  induction entries generalizing start gained with
  | nil => simpa [count, Keeps, or_comm] using kept
  | cons entry rest induction =>
      have gain_nonneg : 0 ≤ entry.gain := nonneg entry List.mem_cons_self
      have gained_next := add_nonneg gained_nonneg gain_nonneg
      have next : gained + total (entry :: rest) = gained + entry.gain + total rest := by
        rw [total_cons, add_assoc]
      by_cases low : start < entry.threshold
      · have restarted : count below (entry :: rest) start = count below rest entry.gain := by
          simp [count, below, low]
        have reaches : count below rest entry.gain ≤ total (entry :: rest) :=
          (count_bounds below nonneg.tail gain_nonneg).2
        have step (covered : 0 < gained → cap ≤ total (entry :: rest)) :=
          induction nonneg.tail gain_nonneg gained_next (by
            rcases gained_nonneg.eq_or_lt with rfl | gained_pos
            · exact Or.inl (by rw [zero_add])
            · exact Or.inr (covered gained_pos))
        rw [restarted, next]
        simp only [Keeps, low, if_true]
        constructor
        · intro reached
          have covered (gained_pos : 0 < gained) : cap ≤ total (entry :: rest) := by
            rcases min_le_iff.mp (reached.trans reaches) with capped | beyond
            · exact capped
            · rw [total_cons] at beyond
              linarith
          exact ⟨covered, (step covered).mp reached⟩
        · rintro ⟨covered, keeps⟩
          exact (step covered).mpr keeps
      · have carried : count below (entry :: rest) start = count below rest
            (start + entry.gain) := by
          simp [count, below, low]
        rw [carried, next]
        simp only [Keeps, low, if_false]
        refine induction nonneg.tail (add_nonneg start_nonneg gain_nonneg) gained_next ?_
        refine kept.imp (fun held => by linarith) fun capped => ?_
        rwa [add_assoc]

end Ordered

end Tally
