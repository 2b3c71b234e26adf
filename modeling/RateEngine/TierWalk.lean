import Mathlib.Tactic
import RateEngine.CalcFunctions

/-!
# The pricing walk against a block tariff

A tariff whose tiers are well formed is a block tariff, and its price is the reference for
`calc_cprice_2`.  The code walks on after a bounded tier has rounded the last unit up, so a later
tier may see a negative remainder and give units back.  This file isolates that refund: the charged
price is the reference price less the refund, and the two agree exactly when no unit is given back.
-/

namespace RateEngine

open BlockTariff

/-! ## Well-formed tiers -/

/-- A tier as provisioning stores it: at a real position, with a positive unit, a fee and an
iteration count that are not negative. -/
structure Tier extends CalcFunction where
  pos_ne : pos ≠ 0
  delta_pos : 0 < delta
  fee_nonneg : 0 ≤ fee
  iterations_nonneg : 0 ≤ iterations

namespace Tier

/-- The block that the tier stands for. -/
def block (tier : Tier) : Block ℚ where
  size := tier.delta
  fee := tier.fee
  count := if tier.iterations = 0 then none else some tier.iterations
  size_pos := tier.delta_pos
  fee_nonneg := tier.fee_nonneg
  count_pos := by
    intro units member
    have nonneg := tier.iterations_nonneg
    split at member
    · simp at member
    · obtain rfl : tier.iterations = units := by simpa using member
      omega

/-- Seconds that a bounded tier covers. -/
def capacity (tier : Tier) : ℤ := tier.iterations * tier.delta

/-- The tier with `index` tiers before it, at a fee in cents. -/
def ofCents (index : ℕ) {delta : ℤ} (delta_pos : 0 < delta) (cents iterations : ℕ) : Tier where
  pos := index + 1
  delta := delta
  fee := cents / 100
  iterations := iterations
  pos_ne := Nat.cast_add_one_ne_zero index
  delta_pos := delta_pos
  fee_nonneg := div_nonneg (Nat.cast_nonneg cents) (by norm_num)
  iterations_nonneg := Int.natCast_nonneg iterations

/-- A tier of minutes. -/
def minutes (index cents iterations : ℕ) : Tier :=
  ofCents index (show (0 : ℤ) < 60 by decide) cents iterations

/-- A tier of seconds. -/
def seconds (index cents iterations : ℕ) : Tier :=
  ofCents index Int.zero_lt_one cents iterations

end Tier

/-- The `calc_function` array of a list of tiers. -/
def calcFuncs (tiers : List Tier) : List CalcFunction := tiers.map Tier.toCalcFunction

/-- The block tariff of a list of tiers. -/
def blocks (tiers : List Tier) : List (Block ℚ) := tiers.map Tier.block

/-- The reference price of `span` seconds. -/
def refPrice (tiers : List Tier) (span : ℤ) : ℚ := price (blocks tiers) span

/-! ## The charges of one walk -/

/-- One pass of the pricing loop: the tier, the seconds left before it and the units charged. -/
structure Charge where
  tier : CalcFunction
  checksec : ℤ
  units : ℤ
deriving DecidableEq, Repr

/-- The passes that the loop of `calc_cprice_2` makes from `checksec` seconds on. -/
def calcCprice2Charges : List CalcFunction → ℤ → List Charge
  | [], _ => []
  | tr :: rest, checksec =>
      if tr.pos = 0 then []
      else
        let units := ceilDiv checksec tr.delta
        if tr.iterations = 0 then [⟨tr, checksec, units⟩]
        else
          let used := if tr.iterations < units then tr.iterations else units
          ⟨tr, checksec, used⟩ ::
            if units = 1 then [] else calcCprice2Charges rest (checksec - used * tr.delta)

/-- Price of a list of charges. -/
def chargedPrice (charges : List Charge) : ℚ :=
  (charges.map fun charge => (charge.units : ℚ) * charge.tier.fee).sum

/-- Seconds of a list of charges. -/
def chargedSeconds (charges : List Charge) : ℤ :=
  (charges.map fun charge => charge.units * charge.tier.delta).sum

@[simp]
theorem chargedPrice_nil : chargedPrice [] = 0 := rfl

@[simp]
theorem chargedPrice_cons (charge : Charge) (charges : List Charge) :
    chargedPrice (charge :: charges) = charge.units * charge.tier.fee + chargedPrice charges := by
  simp [chargedPrice]

@[simp]
theorem chargedSeconds_nil : chargedSeconds [] = 0 := rfl

@[simp]
theorem chargedSeconds_cons (charge : Charge) (charges : List Charge) :
    chargedSeconds (charge :: charges) =
      charge.units * charge.tier.delta + chargedSeconds charges := by
  simp [chargedSeconds]

/-- The totals of the loop are the sums of its charges. -/
theorem calcCprice2Loop_eq (tr : List CalcFunction) (s : CpriceTotals) :
    calcCprice2Loop tr s =
      { checksec := s.checksec - chargedSeconds (calcCprice2Charges tr s.checksec)
        cprice := s.cprice + chargedPrice (calcCprice2Charges tr s.checksec)
        billsec := s.billsec + chargedSeconds (calcCprice2Charges tr s.checksec) } := by
  induction tr generalizing s with
  | nil => simp [calcCprice2Loop, calcCprice2Charges]
  | cons tier rest ih =>
      by_cases at_end : tier.pos = 0
      · simp [calcCprice2Loop, calcCprice2Charges, at_end]
      by_cases unbounded : tier.iterations = 0
      · simp [calcCprice2Loop, calcCprice2Charges, at_end, unbounded, CpriceTotals.charge]
      simp only [calcCprice2Loop, calcCprice2Charges, at_end, unbounded, if_false]
      rw [show (if tier.iterations < ceilDiv s.checksec tier.delta then
            s.charge tier tier.iterations
          else s.charge tier (ceilDiv s.checksec tier.delta)) =
          s.charge tier (if tier.iterations < ceilDiv s.checksec tier.delta then tier.iterations
            else ceilDiv s.checksec tier.delta) by split <;> rfl]
      generalize (if tier.iterations < ceilDiv s.checksec tier.delta then tier.iterations
        else ceilDiv s.checksec tier.delta) = used
      split
      · simp [CpriceTotals.charge]
      · rw [ih]
        simp only [CpriceTotals.charge, chargedPrice_cons, chargedSeconds_cons,
          CpriceTotals.mk.injEq]
        refine ⟨by ring, by ring, by ring⟩

theorem calcCprice2Totals_eq (tr : List CalcFunction) (billsec : ℤ) :
    calcCprice2Totals tr billsec =
      { checksec := billsec - chargedSeconds (calcCprice2Charges tr billsec)
        cprice := chargedPrice (calcCprice2Charges tr billsec)
        billsec := chargedSeconds (calcCprice2Charges tr billsec) } := by
  simp [calcCprice2Totals, calcCprice2Loop_eq]

/-- The billed seconds are the call less the seconds still open. -/
theorem billsec_eq_sub_checksec (tr : List CalcFunction) (billsec : ℤ) :
    (calcCprice2Totals tr billsec).billsec =
      billsec - (calcCprice2Totals tr billsec).checksec := by
  rw [calcCprice2Totals_eq]
  ring

/-! ## The four shapes of a pass -/

/-- Seconds by which the units that cover `span` overshoot it. -/
def Tier.excess (tier : Tier) (span : ℤ) : ℤ := ceilDiv span tier.delta * tier.delta - span

theorem Tier.excess_nonneg (tier : Tier) (span : ℤ) : 0 ≤ tier.excess span := by
  have covers : span ≤ ceilDiv span tier.delta * tier.delta := le_ceilDiv_mul tier.delta_pos
  unfold excess
  omega

theorem Tier.iterations_pos {tier : Tier} (bounded : tier.iterations ≠ 0) : 0 < tier.iterations :=
  lt_of_le_of_ne tier.iterations_nonneg bounded.symm

@[simp]
theorem calcFuncs_cons (tier : Tier) (rest : List Tier) :
    calcFuncs (tier :: rest) = tier.toCalcFunction :: calcFuncs rest := rfl

/-- An unbounded tier ends the walk. -/
theorem charges_unbounded {tier : Tier} (rest : List Tier) (span : ℤ)
    (unbounded : tier.iterations = 0) :
    calcCprice2Charges (calcFuncs (tier :: rest)) span =
      [⟨tier.toCalcFunction, span, ceilDiv span tier.delta⟩] := by
  simp [calcCprice2Charges, tier.pos_ne, unbounded]

/-- A bounded tier that the call outlasts sells all its units. -/
theorem charges_full {tier : Tier} (rest : List Tier) {span : ℤ}
    (bounded : tier.iterations ≠ 0) (outlasts : tier.capacity < span) :
    calcCprice2Charges (calcFuncs (tier :: rest)) span =
      ⟨tier.toCalcFunction, span, tier.iterations⟩ ::
        calcCprice2Charges (calcFuncs rest) (span - tier.capacity) := by
  have more : tier.iterations < ceilDiv span tier.delta :=
    (lt_ceilDiv_iff tier.delta_pos).mpr outlasts
  have several : ceilDiv span tier.delta ≠ 1 := by
    have := Tier.iterations_pos bounded
    omega
  simp [calcCprice2Charges, tier.pos_ne, bounded, more, several, Tier.capacity]

/-- A bounded tier in which the call ends sells the units that cover it, and the walk goes on with
the overshoot unless there was one unit only. -/
theorem charges_within {tier : Tier} (rest : List Tier) {span : ℤ}
    (bounded : tier.iterations ≠ 0) (within : span ≤ tier.capacity) :
    calcCprice2Charges (calcFuncs (tier :: rest)) span =
      ⟨tier.toCalcFunction, span, ceilDiv span tier.delta⟩ ::
        if ceilDiv span tier.delta = 1 then []
        else calcCprice2Charges (calcFuncs rest) (-tier.excess span) := by
  have fits : ¬ tier.iterations < ceilDiv span tier.delta :=
    not_lt.mpr ((ceilDiv_le_iff tier.delta_pos).mpr within)
  have carried : span - ceilDiv span tier.delta * tier.delta = -tier.excess span := by
    unfold Tier.excess
    ring
  simp [calcCprice2Charges, tier.pos_ne, bounded, fits, carried]

/-- After the call has ended, a tier gives back the whole units of the overshoot. -/
theorem charges_excess (tier : Tier) (rest : List Tier) {excess : ℤ} (excess_nonneg : 0 ≤ excess) :
    calcCprice2Charges (calcFuncs (tier :: rest)) (-excess) =
      ⟨tier.toCalcFunction, -excess, -(excess / tier.delta)⟩ ::
        if tier.iterations = 0 then []
        else calcCprice2Charges (calcFuncs rest) (-(excess % tier.delta)) := by
  have quotient_nonneg : 0 ≤ excess / tier.delta :=
    Int.ediv_nonneg excess_nonneg tier.delta_pos.le
  have units_eq : ceilDiv (-excess) tier.delta = -(excess / tier.delta) :=
    ceilDiv_neg tier.delta_pos excess
  have remainder : -excess - -(excess / tier.delta) * tier.delta = -(excess % tier.delta) := by
    linarith [Int.ediv_mul_add_emod excess tier.delta]
  have fits : ¬ tier.iterations < -(excess / tier.delta) := by
    have := tier.iterations_nonneg
    omega
  have several : -(excess / tier.delta) ≠ 1 := by omega
  by_cases unbounded : tier.iterations = 0
  · simp [calcCprice2Charges, tier.pos_ne, unbounded, units_eq]
  · simp only [calcFuncs_cons, calcCprice2Charges, tier.pos_ne, unbounded, units_eq, fits, several,
      remainder, if_false]

/-! ## Refunds -/

/-- What the tiers give back for `excess` seconds of overshoot. -/
def refund : List Tier → ℤ → ℚ
  | [], _ => 0
  | tier :: rest, excess =>
      (excess / tier.delta : ℤ) * tier.fee +
        if tier.iterations = 0 then 0 else refund rest (excess % tier.delta)

theorem refund_nonneg (tiers : List Tier) {excess : ℤ} (excess_nonneg : 0 ≤ excess) :
    0 ≤ refund tiers excess := by
  induction tiers generalizing excess with
  | nil => exact le_rfl
  | cons tier rest ih =>
      have quotient_nonneg : 0 ≤ excess / tier.delta :=
        Int.ediv_nonneg excess_nonneg tier.delta_pos.le
      have own : (0 : ℚ) ≤ (excess / tier.delta : ℤ) * tier.fee :=
        mul_nonneg (by exact_mod_cast quotient_nonneg) tier.fee_nonneg
      unfold refund
      split
      · simpa using own
      · exact add_nonneg own (ih (Int.emod_nonneg _ tier.delta_pos.ne'))

@[simp]
theorem refund_zero (tiers : List Tier) : refund tiers 0 = 0 := by
  induction tiers with
  | nil => rfl
  | cons tier rest ih => simp [refund, ih]

theorem chargedPrice_excess (tiers : List Tier) {excess : ℤ} (excess_nonneg : 0 ≤ excess) :
    chargedPrice (calcCprice2Charges (calcFuncs tiers) (-excess)) = -refund tiers excess := by
  induction tiers generalizing excess with
  | nil => simp [calcFuncs, calcCprice2Charges, refund]
  | cons tier rest ih =>
      rw [charges_excess tier rest excess_nonneg, chargedPrice_cons, refund]
      split
      · push_cast
        simp
      · rw [ih (Int.emod_nonneg _ tier.delta_pos.ne')]
        push_cast
        ring

/-- Giving units back never reopens the call. -/
theorem neg_excess_le_chargedSeconds (tiers : List Tier) {excess : ℤ}
    (excess_nonneg : 0 ≤ excess) :
    -excess ≤ chargedSeconds (calcCprice2Charges (calcFuncs tiers) (-excess)) := by
  induction tiers generalizing excess with
  | nil => simpa [calcFuncs, calcCprice2Charges] using excess_nonneg
  | cons tier rest ih =>
      have division : excess / tier.delta * tier.delta + excess % tier.delta = excess :=
        Int.ediv_mul_add_emod excess tier.delta
      have rest_nonneg : 0 ≤ excess % tier.delta := Int.emod_nonneg _ tier.delta_pos.ne'
      rw [charges_excess tier rest excess_nonneg, chargedSeconds_cons]
      split
      · simp only [chargedSeconds_nil]
        linarith
      · have := ih rest_nonneg
        linarith

/-- The refund of a call of `span` seconds: that of the tier in which the call ends, when the call
has more than one unit of it. -/
def refundAt : List Tier → ℤ → ℚ
  | [], _ => 0
  | tier :: rest, span =>
      if span ≤ 0 ∨ tier.iterations = 0 then 0
      else if tier.capacity < span then refundAt rest (span - tier.capacity)
      else if span ≤ tier.delta then 0
      else refund rest (tier.excess span)

theorem refundAt_nonneg (tiers : List Tier) (span : ℤ) : 0 ≤ refundAt tiers span := by
  induction tiers generalizing span with
  | nil => exact le_rfl
  | cons tier rest ih =>
      unfold refundAt
      split
      · exact le_rfl
      split
      · exact ih _
      split
      · exact le_rfl
      · exact refund_nonneg rest (tier.excess_nonneg span)

theorem ceilDiv_eq_one_iff (tier : Tier) {span : ℤ} (span_pos : 0 < span) :
    ceilDiv span tier.delta = 1 ↔ span ≤ tier.delta := by
  rw [ceilDiv_eq_iff tier.delta_pos]
  omega

theorem refPrice_of_nonpos (tiers : List Tier) {span : ℤ} (ended : span ≤ 0) :
    refPrice tiers span = 0 := price_of_nonpos _ ended

theorem refPrice_cons (tier : Tier) (rest : List Tier) {span : ℤ} (span_pos : 0 < span) :
    refPrice (tier :: rest) span =
      tier.block.charged span * tier.fee + refPrice rest (span - tier.block.covered span) := by
  simp only [refPrice, blocks, List.map_cons, price, not_le.mpr span_pos, if_false]
  rfl

theorem refPrice_unbounded {tier : Tier} (rest : List Tier) {span : ℤ} (span_pos : 0 < span)
    (unbounded : tier.iterations = 0) :
    refPrice (tier :: rest) span = ceilDiv span tier.delta * tier.fee := by
  have covered : tier.block.covered span = span := by
    simp [Block.covered, Tier.block, unbounded]
  rw [refPrice_cons tier rest span_pos, Block.charged, covered, sub_self,
    refPrice_of_nonpos rest le_rfl, add_zero]
  rfl

theorem refPrice_full {tier : Tier} (rest : List Tier) {span : ℤ}
    (bounded : tier.iterations ≠ 0) (outlasts : tier.capacity < span) :
    refPrice (tier :: rest) span =
      tier.iterations * tier.fee + refPrice rest (span - tier.capacity) := by
  have span_pos : 0 < span :=
    lt_of_le_of_lt (mul_nonneg tier.iterations_nonneg tier.delta_pos.le) outlasts
  have covered : tier.block.covered span = tier.capacity := by
    simp only [Block.covered, Tier.block, bounded, if_false]
    exact min_eq_right outlasts.le
  have charged : tier.block.charged span = tier.iterations := by
    rw [Block.charged, covered]
    exact ceilDiv_mul_self tier.delta_pos _
  rw [refPrice_cons tier rest span_pos, charged, covered]

theorem refPrice_within {tier : Tier} (rest : List Tier) {span : ℤ} (span_pos : 0 < span)
    (bounded : tier.iterations ≠ 0) (within : span ≤ tier.capacity) :
    refPrice (tier :: rest) span = ceilDiv span tier.delta * tier.fee := by
  have covered : tier.block.covered span = span := by
    simp only [Block.covered, Tier.block, bounded, if_false]
    exact min_eq_left within
  rw [refPrice_cons tier rest span_pos, Block.charged, covered, sub_self,
    refPrice_of_nonpos rest le_rfl, add_zero]
  rfl

/-- The walk charges the reference price less the refund. -/
theorem chargedPrice_eq (tiers : List Tier) {span : ℤ} (span_nonneg : 0 ≤ span) :
    chargedPrice (calcCprice2Charges (calcFuncs tiers) span) =
      refPrice tiers span - refundAt tiers span := by
  induction tiers generalizing span with
  | nil => simp [calcFuncs, calcCprice2Charges, refPrice, blocks, price, refundAt]
  | cons tier rest ih =>
      rcases span_nonneg.eq_or_lt with rfl | span_pos
      · have still := chargedPrice_excess (tier :: rest) (le_refl 0)
        rw [neg_zero, refund_zero, neg_zero] at still
        rw [still, refPrice_of_nonpos _ le_rfl]
        simp [refundAt]
      have open_call : ¬ span ≤ 0 := not_le.mpr span_pos
      by_cases unbounded : tier.iterations = 0
      · rw [charges_unbounded rest span unbounded, refPrice_unbounded rest span_pos unbounded]
        simp [refundAt, unbounded]
      by_cases outlasts : tier.capacity < span
      · rw [charges_full rest unbounded outlasts, chargedPrice_cons,
          ih (sub_nonneg.mpr outlasts.le), refPrice_full rest unbounded outlasts]
        simp only [refundAt, open_call, unbounded, or_self, if_false, outlasts, if_true]
        ring
      · have within : span ≤ tier.capacity := not_lt.mp outlasts
        rw [charges_within rest unbounded within, chargedPrice_cons,
          refPrice_within rest span_pos unbounded within]
        simp only [refundAt, unbounded, open_call, or_self, if_false, outlasts,
          ceilDiv_eq_one_iff tier span_pos]
        split
        · simp
        · rw [chargedPrice_excess rest (tier.excess_nonneg span)]
          ring

/-- The price of `calc_cprice_2` is the reference price less the refund. -/
theorem cprice_eq (tiers : List Tier) {span : ℤ} (span_nonneg : 0 ≤ span) :
    (calcCprice2Totals (calcFuncs tiers) span).cprice =
      refPrice tiers span - refundAt tiers span := by
  rw [calcCprice2Totals_eq]
  exact chargedPrice_eq tiers span_nonneg

end RateEngine
