import RateEngine.MaxsecAllowance

/-!
# The granted duration in machine integers

`calc_maxsec` holds units, block sizes and their running sum in 32-bit `int`s and compares the sum
with `call_maxsec_limit` only after the loop.  This file gives the walk in machine integers and
states exactly when its result is that of the walk in unbounded integers, cut at the cap.
-/

namespace RateEngine

/-! ## `calc_maxsec` in machine integers -/

/-- A row of `calc_function_t` as the program holds it. -/
structure CalcFunction32 where
  pos : Int32
  delta : Int32
  fee : ℚ
  iterations : Int32
deriving DecidableEq

/-- The row in unbounded integers. -/
def CalcFunction32.exact (tr : CalcFunction32) : CalcFunction where
  pos := tr.pos.toInt
  delta := tr.delta.toInt
  fee := tr.fee
  iterations := tr.iterations.toInt

/-- The variables that the loop of `calc_maxsec` carries, in machine integers. -/
structure MaxsecTotals32 where
  units : Int32 := 0
  maxsec : Int32 := 0
  limit : ℚ

def MaxsecTotals32.tierUnits (s : MaxsecTotals32) (tr : CalcFunction32) : Int32 :=
  if tr.fee = 0 then 1
  else if 0 < tr.fee then Int32.ofInt ⌊s.limit / tr.fee⌋
  else s.units

/-- The loop of `calc_maxsec`: products and sums wrap around. -/
def calcMaxsecLoop32 (freeBillsec : Int32) : List CalcFunction32 → MaxsecTotals32 → MaxsecTotals32
  | [], s => s
  | tr :: rest, s =>
      if tr.pos = 0 then s
      else
        let maxsec := if 0 < freeBillsec ∧ s.maxsec < tr.delta then 0 else s.maxsec
        if s.limit ≤ 0 then { s with maxsec }
        else
          let units := s.tierUnits tr
          if tr.iterations = 0 then { s with units, maxsec := maxsec + units * tr.delta }
          else
            let used := if tr.iterations < units then tr.iterations else units
            calcMaxsecLoop32 freeBillsec rest
              { units
                maxsec := maxsec + used * tr.delta
                limit := s.limit - used.toInt * tr.fee }

/-- The seconds that `calc_maxsec` stores.  `call_maxsec_limit` is unsigned, so the comparisons
convert `maxsec`, and the assignment converts the limit. -/
def calcMaxsecValue32 (callMaxsecLimit : UInt32) (tr : List CalcFunction32) (limit : ℚ)
    (freeBillsec : Int32) : Int32 :=
  let maxsec := if 0 < freeBillsec then freeBillsec else 0
  if 0 < freeBillsec ∧ callMaxsecLimit ≤ maxsec.toUInt32 then callMaxsecLimit.toInt32
  else
    let totals := calcMaxsecLoop32 freeBillsec tr { maxsec, limit }
    if callMaxsecLimit ≤ totals.maxsec.toUInt32 then callMaxsecLimit.toInt32 else totals.maxsec

/-- The same walk in unbounded integers, before the cap. -/
def maxsecWalk (callMaxsecLimit : ℕ) (tr : List CalcFunction) (limit : ℚ) (freeBillsec : ℤ) : ℤ :=
  let maxsec := if 0 < freeBillsec then freeBillsec else 0
  if 0 < freeBillsec ∧ callMaxsecLimit ≤ maxsec then maxsec
  else (calcMaxsecLoop freeBillsec tr { maxsec, limit }).maxsec

/-- Rows with a positive block size and fee, an iteration count that is not negative, and a limit
whose quotient by each fee is an `int`. -/
def FitsTariff (tr : List CalcFunction32) (limit : ℚ) : Prop :=
  ∀ tier ∈ tr, 1 ≤ tier.delta.toInt ∧ 0 ≤ tier.iterations.toInt ∧ 0 < tier.fee ∧
    limit / tier.fee < 2 ^ 31

/-- The wrapping claim at one tariff, limit and free allowance. -/
def GrantUnwrapped (callMaxsecLimit : UInt32) (tr : List CalcFunction32) (limit : ℚ)
    (freeBillsec : Int32) : Prop :=
  (calcMaxsecValue32 callMaxsecLimit tr limit freeBillsec).toInt =
    min (callMaxsecLimit.toNat : ℤ)
      (maxsecWalk callMaxsecLimit.toNat (tr.map CalcFunction32.exact) limit freeBillsec.toInt)

/-- The restart test of the loop on a count that is kept modulo `2 ^ 32`. -/
def wrapTest (freeBillsec : ℤ) (count threshold : ℤ) : Bool :=
  restartTest freeBillsec (count.bmod (2 ^ 32)) threshold

/-- The free seconds reach the cap, or the seconds sold for the limit stay below `2 ^ 31`, or the
cap does and what is left of them modulo `2 ^ 32` still reaches it.  The seconds are counted on from
the free ones; while there are any, the second count starts anew where the remainder, as a signed
number, is below the block size. -/
def GrantFits (callMaxsecLimit : UInt32) (tr : List CalcFunction32) (limit : ℚ)
    (freeBillsec : Int32) : Prop :=
  let sold := soldEntries (tr.map CalcFunction32.exact) 0 limit
  let start := max freeBillsec.toInt 0
  (0 < freeBillsec.toInt ∧ (callMaxsecLimit.toNat : ℤ) ≤ freeBillsec.toInt) ∨
    Tally.count (restartTest freeBillsec.toInt) sold start < 2 ^ 31 ∨
      callMaxsecLimit.toNat < 2 ^ 31 ∧
        (callMaxsecLimit.toNat : ℤ) ≤
          Tally.count (wrapTest freeBillsec.toInt) sold start % 2 ^ 32

/-! ## Machine words -/

theorem bmod_emod_word (count : ℤ) : count.bmod (2 ^ 32) % 2 ^ 32 = count % 2 ^ 32 :=
  Int.bmod_emod

theorem bmod_word (count : ℤ) : count.bmod (2 ^ 32) =
    if count % 2 ^ 32 < 2 ^ 31 then count % 2 ^ 32 else count % 2 ^ 32 - 2 ^ 32 := by
  rw [Int.bmod_def]
  norm_num

theorem toNat_toUInt32 (word : Int32) : (word.toUInt32.toNat : ℤ) = word.toInt % 2 ^ 32 := by
  have bits : word.toInt = (word.toUInt32.toNat : ℤ).bmod (2 ^ 32) :=
    BitVec.toInt_eq_toNat_bmod _
  have small := word.toUInt32.toNat_lt
  rw [bits, bmod_emod_word]
  omega

theorem le_toUInt32_iff (limit : UInt32) (word : Int32) :
    limit ≤ word.toUInt32 ↔ (limit.toNat : ℤ) ≤ word.toInt % 2 ^ 32 := by
  rw [UInt32.le_iff_toNat_le, ← toNat_toUInt32]
  exact Nat.cast_le.symm

theorem toInt_toInt32 (limit : UInt32) : limit.toInt32.toInt = (limit.toNat : ℤ).bmod (2 ^ 32) :=
  BitVec.toInt_eq_toNat_bmod _

theorem toInt_eq_zero_iff (word : Int32) : word.toInt = 0 ↔ word = 0 :=
  Int32.toInt_inj (y := 0)

/-! ## The loop modulo `2 ^ 32` -/

theorem FitsTariff.tail {tier : CalcFunction32} {rest : List CalcFunction32} {limit : ℚ}
    (fits : FitsTariff (tier :: rest) limit) {less : ℚ} (less_le : less ≤ limit) :
    FitsTariff rest less := by
  intro other member
  obtain ⟨delta_pos, iterations_nonneg, fee_pos, units_fit⟩ :=
    fits other (List.mem_cons_of_mem _ member)
  exact ⟨delta_pos, iterations_nonneg, fee_pos,
    (div_le_div_of_nonneg_right less_le fee_pos.le).trans_lt units_fit⟩

/-- The affordable units of a tier are an `int`. -/
theorem tierUnits32_toInt {tier : CalcFunction32} (fee_pos : 0 < tier.fee) {s : MaxsecTotals32}
    (limit_pos : 0 < s.limit) (units_fit : s.limit / tier.fee < 2 ^ 31) (units : ℤ) :
    (s.tierUnits tier).toInt = MaxsecTotals.tierUnits { units, limit := s.limit } tier.exact ∧
      0 ≤ (s.tierUnits tier).toInt := by
  have floor_nonneg : 0 ≤ ⌊s.limit / tier.fee⌋ :=
    Int.floor_nonneg.mpr (div_nonneg limit_pos.le fee_pos.le)
  have floor_lt : ⌊s.limit / tier.fee⌋ < 2 ^ 31 := Int.floor_lt.mpr (by exact_mod_cast units_fit)
  have machine : (s.tierUnits tier).toInt = ⌊s.limit / tier.fee⌋ := by
    simp only [MaxsecTotals32.tierUnits, fee_pos.ne', fee_pos, if_true, if_false]
    exact Int32.toInt_ofInt_of_le (by omega) floor_lt
  refine ⟨?_, machine ▸ floor_nonneg⟩
  rw [machine]
  simp [MaxsecTotals.tierUnits, CalcFunction32.exact, fee_pos.ne', fee_pos]

/-- Starting anew on a machine word starts the count anew that the word keeps. -/
theorem restart32_toInt (freeBillsec : Int32) (tier : CalcFunction32) {maxsec : Int32} {held : ℤ}
    (held_eq : maxsec.toInt = held.bmod (2 ^ 32)) :
    (if 0 < freeBillsec ∧ maxsec < tier.delta then 0 else maxsec).toInt =
      (if wrapTest freeBillsec.toInt held tier.exact.delta then 0 else held).bmod (2 ^ 32) := by
  have positive : 0 < freeBillsec ↔ 0 < freeBillsec.toInt := Int32.lt_iff_toInt_lt
  have shorter : maxsec < tier.delta ↔ held.bmod (2 ^ 32) < tier.exact.delta := by
    rw [Int32.lt_iff_toInt_lt, held_eq]
    rfl
  simp only [positive, shorter, wrapTest, restartTest]
  by_cases some_free : 0 < freeBillsec.toInt
  · by_cases low : held.bmod (2 ^ 32) < tier.exact.delta
    · simp only [some_free, low, Tally.below, and_self, if_true, decide_true]
      rfl
    · simp only [some_free, low, Tally.below, and_false, if_true, if_false, decide_false,
        Bool.false_eq_true, held_eq]
  · simp only [some_free, Tally.never, false_and, if_false, Bool.false_eq_true, held_eq]

/-- Adding a product of machine words adds it to the count that the sum keeps. -/
theorem add_mul_toInt {maxsec : Int32} {held : ℤ} (held_eq : maxsec.toInt = held.bmod (2 ^ 32))
    (used delta : Int32) :
    (maxsec + used * delta).toInt = (held + used.toInt * delta.toInt).bmod (2 ^ 32) := by
  rw [Int32.toInt_add, Int32.toInt_mul, held_eq, Int.bmod_add_bmod, Int.add_bmod_bmod]

/-- The loop in machine integers counts what the tiers sell, modulo `2 ^ 32`. -/
theorem calcMaxsecLoop32_toInt (freeBillsec : Int32) (tr : List CalcFunction32)
    (s : MaxsecTotals32) (fits : FitsTariff tr s.limit) (units held : ℤ)
    (held_eq : s.maxsec.toInt = held.bmod (2 ^ 32)) :
    (calcMaxsecLoop32 freeBillsec tr s).maxsec.toInt =
      (Tally.count (wrapTest freeBillsec.toInt)
        (soldEntries (tr.map CalcFunction32.exact) units s.limit) held).bmod (2 ^ 32) := by
  induction tr generalizing s units held with
  | nil => exact held_eq
  | cons tier rest ih =>
      obtain ⟨_, iterations_nonneg, fee_pos, units_fit⟩ := fits tier List.mem_cons_self
      have restart := restart32_toInt freeBillsec tier held_eq
      rw [List.map_cons, calcMaxsecLoop32, soldEntries]
      generalize (if 0 < freeBillsec ∧ s.maxsec < tier.delta then 0 else s.maxsec) = maxsec
        at restart ⊢
      by_cases at_end : tier.pos = 0
      · simp [CalcFunction32.exact, at_end, Tally.count, held_eq]
      have row_pos : tier.exact.pos ≠ 0 := (toInt_eq_zero_iff tier.pos).not.mpr at_end
      simp only [at_end, row_pos, if_false]
      by_cases spent : s.limit ≤ 0
      · simpa only [spent, if_true, Tally.count, add_zero] using restart
      obtain ⟨units_eq, units_nonneg⟩ :=
        tierUnits32_toInt fee_pos (not_le.mp spent) units_fit units
      simp only [spent, if_false, ← units_eq]
      generalize s.tierUnits tier = tierUnits at units_nonneg ⊢
      by_cases last : tier.iterations = 0
      · have row_last : tier.exact.iterations = 0 := (toInt_eq_zero_iff _).mpr last
        simp only [last, row_last, if_true, Tally.count]
        exact add_mul_toInt restart tierUnits tier.delta
      · have row_bounded : tier.exact.iterations ≠ 0 := (toInt_eq_zero_iff _).not.mpr last
        have used_eq : (if tier.exact.iterations < tierUnits.toInt then tier.exact.iterations
            else tierUnits.toInt) =
            (if tier.iterations < tierUnits then tier.iterations else tierUnits).toInt := by
          simp only [apply_ite Int32.toInt, Int32.lt_iff_toInt_lt]
          rfl
        have used_nonneg :
            0 ≤ (if tier.iterations < tierUnits then tier.iterations else tierUnits).toInt := by
          split <;> assumption
        simp only [last, row_bounded, if_false, used_eq, Tally.count]
        generalize (if tier.iterations < tierUnits then tier.iterations else tierUnits) = used
          at used_nonneg ⊢
        have spends : s.limit - used.toInt * tier.fee ≤ s.limit :=
          sub_le_self _ (mul_nonneg (by exact_mod_cast used_nonneg) fee_pos.le)
        exact ih _ (fits.tail spends) _ _ (add_mul_toInt restart used tier.delta)

/-! ## When the grant does not wrap -/

theorem FitsTariff.sellable {tr : List CalcFunction32} {limit : ℚ} (fits : FitsTariff tr limit) :
    Sellable (tr.map CalcFunction32.exact) := by
  intro row member
  obtain ⟨tier, tier_member, rfl⟩ := List.mem_map.mp member
  obtain ⟨delta_pos, iterations_nonneg, -⟩ := fits tier tier_member
  exact ⟨by simpa [CalcFunction32.exact] using (zero_le_one.trans delta_pos), iterations_nonneg⟩

/-- The block sizes of the entries are those of the rows. -/
theorem threshold_mem_of_soldEntries {tr : List CalcFunction} {units : ℤ} {limit : ℚ}
    {entry : Tally.Entry ℤ} (member : entry ∈ soldEntries tr units limit) :
    ∃ tier ∈ tr, tier.delta = entry.threshold := by
  induction tr generalizing units limit with
  | nil => simp [soldEntries] at member
  | cons tier rest ih =>
      rw [soldEntries] at member
      split at member
      · simp at member
      split at member
      · obtain rfl := List.mem_singleton.mp member
        exact ⟨tier, List.mem_cons_self, rfl⟩
      split at member
      · obtain rfl := List.mem_singleton.mp member
        exact ⟨tier, List.mem_cons_self, rfl⟩
      rcases List.mem_cons.mp member with rfl | member
      · exact ⟨tier, List.mem_cons_self, rfl⟩
      · obtain ⟨other, other_member, delta_eq⟩ := ih member
        exact ⟨other, List.mem_cons_of_mem _ other_member, delta_eq⟩

/-- While the count of the unbounded walk stays below `2 ^ 31`, the wrapped one is the same. -/
theorem count_wrapTest_eq {tr : List CalcFunction32} {limit : ℚ} (fits : FitsTariff tr limit)
    (freeBillsec : ℤ) {start : ℤ} (start_nonneg : 0 ≤ start)
    (small : Tally.count (restartTest freeBillsec)
      (soldEntries (tr.map CalcFunction32.exact) 0 limit) start < 2 ^ 31) :
    Tally.count (wrapTest freeBillsec) (soldEntries (tr.map CalcFunction32.exact) 0 limit) start =
      Tally.count (restartTest freeBillsec)
        (soldEntries (tr.map CalcFunction32.exact) 0 limit) start := by
  refine Tally.count_eq_of_lt (soldEntries_nonneg fits.sellable le_rfl limit) start_nonneg
    (fun held threshold held_nonneg held_lt => ?_) (fun entry member held high => ?_) small
  · have kept : held.bmod (2 ^ 32) = held := Int.bmod_eq_of_le (by omega) (by omega)
    rw [wrapTest, kept]
  · obtain ⟨row, row_member, delta_eq⟩ := threshold_mem_of_soldEntries member
    obtain ⟨tier, -, rfl⟩ := List.mem_map.mp row_member
    have delta_lt : tier.delta.toInt < 2 ^ 31 := tier.delta.toInt_lt
    have long : ¬ held < entry.threshold := by
      rw [← delta_eq]
      exact not_lt.mpr (delta_lt.le.trans high)
    by_cases some_free : 0 < freeBillsec
    · simp [restartTest, some_free, Tally.below, long]
    · simp [restartTest, some_free, Tally.never]

/-- The unbounded walk before the cap. -/
theorem maxsecWalk_eq_count (callMaxsecLimit : ℕ) (tr : List CalcFunction) (limit : ℚ)
    {freeBillsec : ℤ} (open_walk : ¬ (0 < freeBillsec ∧ (callMaxsecLimit : ℤ) ≤ freeBillsec)) :
    maxsecWalk callMaxsecLimit tr limit freeBillsec =
      Tally.count (restartTest freeBillsec) (soldEntries tr 0 limit) (max freeBillsec 0) := by
  have start_eq : (if 0 < freeBillsec then freeBillsec else 0) = max freeBillsec 0 := by
    rcases lt_or_ge 0 freeBillsec with some_free | none_free
    · rw [if_pos some_free, max_eq_left some_free.le]
    · rw [if_neg (not_lt.mpr none_free), max_eq_right none_free]
  have no_exit : ¬ (0 < freeBillsec ∧ (callMaxsecLimit : ℤ) ≤ max freeBillsec 0) := by
    rintro ⟨some_free, capped⟩
    exact open_walk ⟨some_free, by rwa [max_eq_left some_free.le] at capped⟩
  simp only [maxsecWalk, start_eq, no_exit, if_false, calcMaxsecLoop_eq_count]

/-- The machine walk after the early exit. -/
theorem calcMaxsecValue32_toInt {tr : List CalcFunction32} {limit : ℚ} (fits : FitsTariff tr limit)
    (callMaxsecLimit : UInt32) {freeBillsec : Int32}
    (open_walk : ¬ (0 < freeBillsec.toInt ∧ (callMaxsecLimit.toNat : ℤ) ≤ freeBillsec.toInt)) :
    let counted := Tally.count (wrapTest freeBillsec.toInt)
      (soldEntries (tr.map CalcFunction32.exact) 0 limit) (max freeBillsec.toInt 0)
    (calcMaxsecValue32 callMaxsecLimit tr limit freeBillsec).toInt =
      if (callMaxsecLimit.toNat : ℤ) ≤ counted % 2 ^ 32 then
        (callMaxsecLimit.toNat : ℤ).bmod (2 ^ 32)
      else counted.bmod (2 ^ 32) := by
  intro counted
  have positive : 0 < freeBillsec ↔ 0 < freeBillsec.toInt := Int32.lt_iff_toInt_lt
  have free_lt := freeBillsec.toInt_lt
  have start_eq : (if 0 < freeBillsec then freeBillsec else 0).toInt = max freeBillsec.toInt 0 := by
    have zero : (0 : Int32).toInt = 0 := rfl
    rw [apply_ite Int32.toInt, zero]
    simp only [positive]
    split <;> omega
  have no_exit : ¬ (0 < freeBillsec ∧
      callMaxsecLimit ≤ (if 0 < freeBillsec then freeBillsec else 0).toUInt32) := by
    rintro ⟨some_free, capped⟩
    rw [le_toUInt32_iff, start_eq] at capped
    rw [positive] at some_free
    exact open_walk ⟨some_free, by omega⟩
  have start_kept : (max freeBillsec.toInt 0).bmod (2 ^ 32) = max freeBillsec.toInt 0 :=
    Int.bmod_eq_of_le (by omega) (by omega)
  have walked := calcMaxsecLoop32_toInt freeBillsec tr
    { maxsec := if 0 < freeBillsec then freeBillsec else 0, limit } fits 0
    (max freeBillsec.toInt 0) (start_eq.trans start_kept.symm)
  rw [calcMaxsecValue32]
  simp only
  rw [if_neg no_exit, apply_ite Int32.toInt, toInt_toInt32]
  simp only [le_toUInt32_iff, walked, bmod_emod_word]
  rfl

/-- Free seconds that reach the cap are granted up to the cap. -/
theorem grantUnwrapped_of_exit (callMaxsecLimit : UInt32) (tr : List CalcFunction32) (limit : ℚ)
    {freeBillsec : Int32}
    (exits : 0 < freeBillsec.toInt ∧ (callMaxsecLimit.toNat : ℤ) ≤ freeBillsec.toInt) :
    GrantUnwrapped callMaxsecLimit tr limit freeBillsec := by
  have some_free : 0 < freeBillsec := Int32.lt_iff_toInt_lt.mpr exits.1
  have free_lt := freeBillsec.toInt_lt
  have free_kept : freeBillsec.toInt % 2 ^ 32 = freeBillsec.toInt :=
    Int.emod_eq_of_lt exits.1.le (by omega)
  have capped : callMaxsecLimit ≤ freeBillsec.toUInt32 := by
    rw [le_toUInt32_iff, free_kept]
    exact exits.2
  simp only [GrantUnwrapped, calcMaxsecValue32, maxsecWalk, some_free, if_true, capped, exits,
    and_self, toInt_toInt32, min_eq_left exits.2]
  exact Int.bmod_eq_of_le (by omega) (by omega)

/-- Minutes at fee 0.01. -/
def centMinutes : List CalcFunction32 :=
  [{ pos := 1, delta := 60, fee := 1 / 100, iterations := 0 }]

end RateEngine
