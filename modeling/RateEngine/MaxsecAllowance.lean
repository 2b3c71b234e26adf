import RateEngine.CalcFunctions
import RateEngine.Lib.Tally

/-!
# Free seconds and the granted duration

`calc_maxsec` starts its count with the free seconds that remain and adds what each tier sells for
the limit.  While free seconds remain it starts anew at every tier whose unit is longer than the
count so far, and then it also loses what earlier tiers sold.  What a tier sells does not depend on
the count, so the loop is a guarded tally of the tiers; this file states exactly when more free
seconds never shorten a call.
-/

namespace RateEngine

open Tally (Entry)

/-- What each tier that the loop of `calc_maxsec` reaches adds to the count, beside the length of
its unit; a tier that is reached without a limit ends the loop and adds nothing. -/
def soldEntries : List CalcFunction → ℤ → ℚ → List (Entry ℤ)
  | [], _, _ => []
  | tr :: rest, units, limit =>
      if tr.pos = 0 then []
      else if limit ≤ 0 then [⟨tr.delta, 0⟩]
      else
        let units := MaxsecTotals.tierUnits { units, limit } tr
        if tr.iterations = 0 then [⟨tr.delta, units * tr.delta⟩]
        else
          let used := if tr.iterations < units then tr.iterations else units
          ⟨tr.delta, used * tr.delta⟩ :: soldEntries rest units (limit - used * tr.fee)

/-- The test by which the loop starts its count anew. -/
def restartTest (freeBillsec : ℤ) : ℤ → ℤ → Bool :=
  if 0 < freeBillsec then Tally.below else Tally.never

/-- Unit lengths and iteration counts are not negative. -/
def Sellable (tr : List CalcFunction) : Prop :=
  ∀ tier ∈ tr, 0 ≤ tier.delta ∧ 0 ≤ tier.iterations

/-- One free second loses nothing: the cap is one second, or from one free second on no tier starts
the count anew after an earlier tier has sold seconds, unless the seconds from that tier on reach
the cap. -/
def AllowanceKept (callMaxsecLimit : ℕ) (tr : List CalcFunction) (limit : ℚ) : Prop :=
  callMaxsecLimit ≤ 1 ∨ Tally.Keeps (callMaxsecLimit : ℤ) (soldEntries tr 0 limit) 1 0

/-- The record with another free allowance. -/
def Racc.withAllowance (rtp : Racc) (freeBillsecLimit freeBillsecSum : ℤ) : Racc :=
  { rtp with pre := { rtp.pre with freeBillsecLimit, freeBillsecSum } }

/-- The monotonicity claim at one tariff and limit: a larger allowance never gives a smaller grant,
and no allowance gives the smallest. -/
def AllowanceMonotone (callMaxsecLimit : ℕ) (tr : List CalcFunction) (limit : ℚ) : Prop :=
  ∀ rtp : Racc, rtp.bplan.calcFuncs = some tr → rtp.pre.limit = limit →
    (∀ freeBillsecLimit freeBillsecSum,
      rtp.pre.freeBillsecLimit - rtp.pre.freeBillsecSum ≤ freeBillsecLimit - freeBillsecSum →
        (calcMaxsec callMaxsecLimit rtp).pre.maxsec ≤
          (calcMaxsec callMaxsecLimit
            (rtp.withAllowance freeBillsecLimit freeBillsecSum)).pre.maxsec) ∧
      (calcMaxsec callMaxsecLimit (rtp.withAllowance 0 0)).pre.maxsec ≤
        (calcMaxsec callMaxsecLimit rtp).pre.maxsec

/-! ## The loop as a tally -/

/-- The loop of `calc_maxsec` counts what the tiers sell. -/
theorem calcMaxsecLoop_eq_count (freeBillsec : ℤ) (tr : List CalcFunction) (s : MaxsecTotals) :
    (calcMaxsecLoop freeBillsec tr s).maxsec =
      Tally.count (restartTest freeBillsec) (soldEntries tr s.units s.limit) s.maxsec := by
  induction tr generalizing s with
  | nil => rfl
  | cons tier rest ih =>
      have restart : (if 0 < freeBillsec ∧ s.maxsec < tier.delta then 0 else s.maxsec) =
          if restartTest freeBillsec s.maxsec tier.delta then 0 else s.maxsec := by
        by_cases some_free : 0 < freeBillsec <;>
          simp [restartTest, some_free, Tally.below, Tally.never]
      have units_eq : MaxsecTotals.tierUnits { units := s.units, limit := s.limit } tier =
          s.tierUnits tier := rfl
      by_cases at_end : tier.pos = 0
      · simp [calcMaxsecLoop, soldEntries, at_end, Tally.count]
      simp only [calcMaxsecLoop, soldEntries, at_end, if_false, restart, units_eq]
      by_cases spent : s.limit ≤ 0
      · simp [spent, Tally.count]
      by_cases last : tier.iterations = 0
      · simp [spent, last, Tally.count]
      · simp only [spent, last, if_false]
        rw [ih, Tally.count]

section Sold

variable {tr : List CalcFunction}

theorem Sellable.tail {tier : CalcFunction} {rest : List CalcFunction}
    (sellable : Sellable (tier :: rest)) : Sellable rest :=
  fun other member => sellable other (List.mem_cons_of_mem _ member)

theorem MaxsecTotals.tierUnits_nonneg (s : MaxsecTotals) (tier : CalcFunction)
    (units_nonneg : 0 ≤ s.units) (limit_nonneg : 0 ≤ s.limit) : 0 ≤ s.tierUnits tier := by
  unfold MaxsecTotals.tierUnits
  split
  · exact zero_le_one
  split
  · rename_i fee_pos
    exact Int.floor_nonneg.mpr (div_nonneg limit_nonneg fee_pos.le)
  · exact units_nonneg

theorem soldEntries_nonneg (sellable : Sellable tr) {units : ℤ} (units_nonneg : 0 ≤ units)
    (limit : ℚ) : Tally.Nonneg (soldEntries tr units limit) := by
  induction tr generalizing units limit with
  | nil => simp [soldEntries, Tally.Nonneg]
  | cons tier rest ih =>
      obtain ⟨delta_nonneg, iterations_nonneg⟩ := sellable tier List.mem_cons_self
      rw [soldEntries]
      split
      · simp [Tally.Nonneg]
      split
      · simp [Tally.Nonneg]
      rename_i open_limit
      have units_nonneg := MaxsecTotals.tierUnits_nonneg { units, limit } tier units_nonneg
        (not_le.mp open_limit).le
      generalize MaxsecTotals.tierUnits { units, limit } tier = units at units_nonneg ⊢
      split
      · simpa [Tally.Nonneg] using mul_nonneg units_nonneg delta_nonneg
      · have used_nonneg : 0 ≤ if tier.iterations < units then tier.iterations else units := by
          split <;> assumption
        intro entry member
        rcases List.mem_cons.mp member with rfl | member
        · exact mul_nonneg used_nonneg delta_nonneg
        · exact ih sellable.tail units_nonneg _ entry member

variable (callMaxsecLimit : ℕ) (limit : ℚ)

/-- Without free seconds the grant is all that the tiers sell, up to the cap. -/
theorem calcMaxsecValue_of_none_free (sellable : Sellable tr) {freeBillsec : ℤ}
    (none_free : freeBillsec ≤ 0) :
    calcMaxsecValue callMaxsecLimit tr limit freeBillsec =
      min (callMaxsecLimit : ℤ) (Tally.total (soldEntries tr 0 limit)) := by
  have sold_nonneg := Tally.total_nonneg (soldEntries_nonneg sellable le_rfl limit)
  have total : (calcMaxsecLoop freeBillsec tr { limit }).maxsec =
      Tally.total (soldEntries tr 0 limit) := by
    rw [calcMaxsecLoop_eq_count, restartTest, if_neg (not_lt.mpr none_free), Tally.count_never,
      zero_add]
  simp only [calcMaxsecValue, not_lt.mpr none_free, false_and, if_false, total]
  rcases le_or_gt (callMaxsecLimit : ℤ) (Tally.total (soldEntries tr 0 limit)) with capped | short
  · simp [reachesMaxsecLimit, capped]
  · simp [reachesMaxsecLimit, short.le, not_le.mpr short, not_lt.mpr sold_nonneg]

/-- Free seconds that reach the cap are granted up to the cap. -/
theorem calcMaxsecValue_of_capped {freeBillsec : ℤ} (some_free : 0 < freeBillsec)
    (capped : (callMaxsecLimit : ℤ) ≤ freeBillsec) :
    calcMaxsecValue callMaxsecLimit tr limit freeBillsec = callMaxsecLimit := by
  simp [calcMaxsecValue, some_free, reachesMaxsecLimit, capped]

/-- Free seconds below the cap start the guarded count. -/
theorem calcMaxsecValue_of_some_free (sellable : Sellable tr) {freeBillsec : ℤ}
    (some_free : 0 < freeBillsec) (below : freeBillsec < callMaxsecLimit) :
    calcMaxsecValue callMaxsecLimit tr limit freeBillsec =
      min (callMaxsecLimit : ℤ)
        (Tally.count Tally.below (soldEntries tr 0 limit) freeBillsec) := by
  have count_nonneg := (Tally.count_bounds Tally.below
    (soldEntries_nonneg sellable le_rfl limit) some_free.le).1
  have early : reachesMaxsecLimit callMaxsecLimit freeBillsec = false := by
    simp [reachesMaxsecLimit, below, some_free.le]
  simp only [calcMaxsecValue, some_free, early, if_true, if_false, and_false, Bool.false_eq_true,
    calcMaxsecLoop_eq_count, restartTest]
  generalize Tally.count Tally.below (soldEntries tr 0 limit) freeBillsec = counted at *
  rcases le_or_gt (callMaxsecLimit : ℤ) counted with capped | short
  · simp [reachesMaxsecLimit, capped]
  · simp [reachesMaxsecLimit, short.le, not_le.mpr short, not_lt.mpr count_nonneg]

theorem calcMaxsecValue_le (sellable : Sellable tr) (freeBillsec : ℤ) :
    calcMaxsecValue callMaxsecLimit tr limit freeBillsec ≤ callMaxsecLimit := by
  rcases le_or_gt freeBillsec 0 with none_free | some_free
  · rw [calcMaxsecValue_of_none_free callMaxsecLimit limit sellable none_free]
    exact min_le_left _ _
  rcases le_or_gt (callMaxsecLimit : ℤ) freeBillsec with capped | below
  · exact (calcMaxsecValue_of_capped callMaxsecLimit limit some_free capped).le
  · rw [calcMaxsecValue_of_some_free callMaxsecLimit limit sellable some_free below]
    exact min_le_left _ _

/-- Among positive allowances more free seconds never give a smaller grant. -/
theorem calcMaxsecValue_mono (sellable : Sellable tr) {few many : ℤ} (few_pos : 0 < few)
    (few_le : few ≤ many) :
    calcMaxsecValue callMaxsecLimit tr limit few ≤
      calcMaxsecValue callMaxsecLimit tr limit many := by
  rcases le_or_gt (callMaxsecLimit : ℤ) many with capped | below
  · rw [calcMaxsecValue_of_capped callMaxsecLimit limit (few_pos.trans_le few_le) capped]
    exact calcMaxsecValue_le callMaxsecLimit limit sellable few
  · rw [calcMaxsecValue_of_some_free callMaxsecLimit limit sellable few_pos
        (few_le.trans_lt below),
      calcMaxsecValue_of_some_free callMaxsecLimit limit sellable (few_pos.trans_le few_le) below]
    exact min_le_min_left _ (Tally.count_below_mono
      (soldEntries_nonneg sellable le_rfl limit) few_pos.le few_le)

/-- One free second gives no less than none exactly when it loses nothing. -/
theorem calcMaxsecValue_zero_le_one_iff (sellable : Sellable tr) :
    calcMaxsecValue callMaxsecLimit tr limit 0 ≤ calcMaxsecValue callMaxsecLimit tr limit 1 ↔
      AllowanceKept callMaxsecLimit tr limit := by
  rw [AllowanceKept]
  rcases le_or_gt callMaxsecLimit 1 with capped | below
  · have one_capped : (callMaxsecLimit : ℤ) ≤ 1 := by exact_mod_cast capped
    rw [calcMaxsecValue_of_capped callMaxsecLimit limit one_pos one_capped]
    exact iff_of_true (calcMaxsecValue_le callMaxsecLimit limit sellable 0) (Or.inl capped)
  · have one_below : (1 : ℤ) < callMaxsecLimit := by exact_mod_cast below
    have keeps := Tally.min_le_count_below_iff (callMaxsecLimit : ℤ)
      (soldEntries_nonneg sellable le_rfl limit) zero_le_one le_rfl (Or.inl zero_le_one)
    rw [zero_add] at keeps
    rw [calcMaxsecValue_of_none_free callMaxsecLimit limit sellable le_rfl,
      calcMaxsecValue_of_some_free callMaxsecLimit limit sellable one_pos one_below, ← keeps,
      le_min_iff]
    simp [not_le.mpr below]

end Sold

/-! ## When the grant is monotone -/

theorem calcMaxsec_maxsec (callMaxsecLimit : ℕ) {rtp : Racc} {tr : List CalcFunction}
    (loaded : rtp.bplan.calcFuncs = some tr) :
    (calcMaxsec callMaxsecLimit rtp).pre.maxsec =
      calcMaxsecValue callMaxsecLimit tr rtp.pre.limit
        (rtp.pre.freeBillsecLimit - rtp.pre.freeBillsecSum) := by
  simp only [calcMaxsec, loaded]

theorem calcMaxsec_withAllowance (callMaxsecLimit : ℕ) {rtp : Racc} {tr : List CalcFunction}
    (loaded : rtp.bplan.calcFuncs = some tr) (freeBillsecLimit freeBillsecSum : ℤ) :
    (calcMaxsec callMaxsecLimit (rtp.withAllowance freeBillsecLimit freeBillsecSum)).pre.maxsec =
      calcMaxsecValue callMaxsecLimit tr rtp.pre.limit (freeBillsecLimit - freeBillsecSum) :=
  calcMaxsec_maxsec callMaxsecLimit loaded

/-- Five minutes at fee 1, then hours at fee 30. -/
def hoursAfterMinutes : List CalcFunction :=
  [{ pos := 1, delta := 60, fee := 1, iterations := 5 },
    { pos := 2, delta := 3600, fee := 30, iterations := 0 }]

end RateEngine
