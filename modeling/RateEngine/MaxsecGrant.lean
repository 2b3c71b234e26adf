import RateEngine.PricingReference

/-!
# When a granted duration is affordable

`calc_maxsec` walks the tiers with the limit that is left.  When a bounded tier cannot be paid in
full it does not stop: the money left over goes on to the later tiers, although a call only reaches
them after the units of the earlier tier that the limit cannot pay.  This file states exactly when
every duration up to the grant is still priced within the limit.
-/

namespace RateEngine

open BlockTariff

/-- Units of the tier that `limit` pays for. -/
def Tier.affordable (tier : Tier) (limit : ℚ) : ℤ := ⌊limit / tier.fee⌋

/-- Units of the tier that `calc_maxsec` counts for a positive limit: one when the tier is free. -/
def Tier.counted (tier : Tier) (limit : ℚ) : ℤ :=
  if tier.fee = 0 then 1 else tier.affordable limit

/-- The seconds that the walk of `calc_maxsec` counts when no free seconds are left. -/
def counted : List Tier → ℚ → ℤ
  | [], _ => 0
  | tier :: rest, limit =>
      if limit ≤ 0 then 0
      else if tier.iterations = 0 then tier.counted limit * tier.delta
      else
        let used : ℤ := min tier.iterations (tier.counted limit)
        used * tier.delta + counted rest (limit - used * tier.fee)

/-- The seconds that the tiers sell for `limit` when each tier sells what the money left pays. -/
def bought : List Tier → ℚ → ℤ
  | [], _ => 0
  | tier :: rest, limit =>
      if tier.iterations = 0 then tier.affordable limit * tier.delta
      else
        let used : ℤ := min tier.iterations (tier.affordable limit)
        used * tier.delta + bought rest (limit - used * tier.fee)

/-- The limit is spent in the order in which a call uses the tiers.  At the first tier that the
limit cannot pay in full, with `left` over after its affordable units, one of three things holds:
the cap is reached by then, no later tier sells a unit for `left`, or for every second granted
beyond that point the refund of the pricing walk makes up for the unit that `left` does not pay. -/
def SpentInOrder : List Tier → ℚ → ℤ → Prop
  | [], _, _ => True
  | tier :: rest, limit, cap =>
      if tier.iterations = 0 then True
      else if tier.iterations ≤ tier.affordable limit then
        SpentInOrder rest (limit - tier.iterations * tier.fee) (cap - tier.capacity)
      else
        let paid := tier.affordable limit * tier.delta
        let left := limit - tier.affordable limit * tier.fee
        cap ≤ paid ∨ (∀ later ∈ visited rest, left < later.fee) ∨
          (0 < tier.affordable limit ∧
            ∀ extra, 0 < extra → paid + extra ≤ cap → extra ≤ bought rest left →
              extra < tier.delta ∧ tier.fee - left ≤ refund rest (tier.delta - extra))

/-- The affordability claim at one tariff and limit: with no free seconds left, every duration up
to the value of `calc_maxsec` is priced within the limit. -/
def GrantAffordable (callMaxsecLimit : ℕ) (tiers : List Tier) (limit : ℚ) : Prop :=
  ∀ rtp : Racc, rtp.bplan.calcFuncs = some (calcFuncs tiers) → rtp.pre.limit = limit →
    rtp.pre.freeBillsecLimit ≤ rtp.pre.freeBillsecSum →
      ∀ span, 0 ≤ span → span ≤ (calcMaxsec callMaxsecLimit rtp).pre.maxsec →
        (calcCprice2 { rtp with pre := { rtp.pre with billsec := span } }).2.pre.cprice ≤ limit

/-! ## Affordable units -/

section Affordable

variable {tier : Tier} {limit : ℚ}

theorem le_affordable_iff (fee_pos : 0 < tier.fee) {units : ℤ} :
    units ≤ tier.affordable limit ↔ (units : ℚ) * tier.fee ≤ limit :=
  le_floor_div_iff fee_pos

theorem affordable_nonneg (fee_pos : 0 < tier.fee) (limit_nonneg : 0 ≤ limit) :
    0 ≤ tier.affordable limit := floor_div_nonneg fee_pos limit_nonneg

theorem affordable_mul_fee_le (fee_pos : 0 < tier.fee) :
    (tier.affordable limit : ℚ) * tier.fee ≤ limit := (le_affordable_iff fee_pos).mp le_rfl

theorem lt_affordable_succ (fee_pos : 0 < tier.fee) :
    limit < (tier.affordable limit + 1) * tier.fee := by
  have next : ¬ tier.affordable limit + 1 ≤ tier.affordable limit := by omega
  rw [le_affordable_iff fee_pos, not_le] at next
  exact_mod_cast next

/-- Within the affordable units the price stays within the limit. -/
theorem ceilDiv_mul_fee_le (fee_pos : 0 < tier.fee) {span : ℤ}
    (paid : span ≤ tier.affordable limit * tier.delta) :
    (ceilDiv span tier.delta : ℚ) * tier.fee ≤ limit :=
  (le_affordable_iff fee_pos).mp ((ceilDiv_le_iff tier.delta_pos).mpr paid)

end Affordable

theorem bought_zero (tiers : List Tier) : bought tiers 0 = 0 := by
  induction tiers with
  | nil => rfl
  | cons tier rest ih =>
      have none_affordable : tier.affordable 0 = 0 := by simp [Tier.affordable]
      simp [bought, none_affordable, ih, tier.iterations_nonneg]

/-- Money left over buys nothing exactly when it is below the fee of every visited tier. -/
theorem bought_pos_iff (tiers : List Tier) (fees_pos : ∀ tier ∈ tiers, 0 < tier.fee) {left : ℚ}
    (left_nonneg : 0 ≤ left) :
    0 ≤ bought tiers left ∧
      (0 < bought tiers left ↔ ∃ later ∈ visited tiers, later.fee ≤ left) := by
  induction tiers generalizing left with
  | nil => simp [bought, visited]
  | cons tier rest ih =>
      have fee_pos : 0 < tier.fee := fees_pos tier List.mem_cons_self
      have rest_fees : ∀ other ∈ rest, 0 < other.fee :=
        fun other member => fees_pos other (List.mem_cons_of_mem _ member)
      have nonneg := affordable_nonneg fee_pos left_nonneg
      by_cases buys : tier.fee ≤ left
      · have one : 1 ≤ tier.affordable left := by
          rw [le_affordable_iff fee_pos]
          simpa using buys
        have own_pos {units : ℤ} (units_pos : 1 ≤ units) : 0 < units * tier.delta :=
          mul_pos (by omega) tier.delta_pos
        have found : ∃ later ∈ visited (tier :: rest), later.fee ≤ left :=
          ⟨tier, by simp [visited], buys⟩
        unfold bought
        split
        · exact ⟨(own_pos one).le, fun _ => found, fun _ => own_pos one⟩
        · rename_i bounded
          have used : 1 ≤ min tier.iterations (tier.affordable left) :=
            le_min (Tier.iterations_pos bounded) one
          have spent : (min tier.iterations (tier.affordable left) : ℤ) * tier.fee ≤ left :=
            (le_affordable_iff fee_pos).mp (min_le_right _ _)
          have later := (ih rest_fees (sub_nonneg.mpr spent)).1
          have own := own_pos used
          simp only
          exact ⟨by omega, fun _ => found, fun _ => by omega⟩
      · have none_affordable : tier.affordable left = 0 := by
          rw [not_le] at buys
          refine le_antisymm ?_ nonneg
          by_contra some_affordable
          have one : 1 ≤ tier.affordable left := by omega
          rw [le_affordable_iff fee_pos] at one
          push_cast at one
          linarith
        by_cases unbounded : tier.iterations = 0
        · simp [bought, visited, unbounded, none_affordable, buys]
        · have none_used : min tier.iterations 0 = 0 := min_eq_right tier.iterations_nonneg
          simpa [bought, visited, unbounded, none_affordable, none_used, buys,
            tier.iterations_nonneg] using ih rest_fees left_nonneg

/-! ## The price beyond the affordable units -/

/-- A call that ends in the affordable units of its first tier is affordable. -/
theorem price_le_of_paid {tier : Tier} (rest : List Tier) (fee_pos : 0 < tier.fee) {limit : ℚ}
    (limit_nonneg : 0 ≤ limit) {span : ℤ}
    (inside : tier.iterations = 0 ∨ span ≤ tier.capacity)
    (paid : span ≤ tier.affordable limit * tier.delta) :
    refPrice (tier :: rest) span - refundAt (tier :: rest) span ≤ limit := by
  have refund_nonneg := refundAt_nonneg (tier :: rest) span
  suffices refPrice (tier :: rest) span ≤ limit by linarith
  rcases le_or_gt span 0 with ended | span_pos
  · rwa [refPrice_of_nonpos _ ended]
  by_cases unbounded : tier.iterations = 0
  · rw [refPrice_unbounded rest span_pos unbounded]
    exact ceilDiv_mul_fee_le fee_pos paid
  · rw [refPrice_within rest span_pos unbounded (inside.resolve_left unbounded)]
    exact ceilDiv_mul_fee_le fee_pos paid

/-- In the first unit that the limit does not pay, the price is that unit less the refund. -/
theorem price_of_next_unit {tier : Tier} (rest : List Tier) (bounded : tier.iterations ≠ 0)
    {units : ℤ} (units_nonneg : 0 ≤ units) (more : units < tier.iterations) {extra : ℤ}
    (extra_pos : 0 < extra) (extra_le : extra ≤ tier.delta) :
    refPrice (tier :: rest) (units * tier.delta + extra) -
        refundAt (tier :: rest) (units * tier.delta + extra) =
      (units + 1) * tier.fee - if units = 0 then 0 else refund rest (tier.delta - extra) := by
  have base_nonneg : 0 ≤ units * tier.delta := mul_nonneg units_nonneg tier.delta_pos.le
  have span_pos : 0 < units * tier.delta + extra := by omega
  have within : units * tier.delta + extra ≤ tier.capacity := by
    have top : (units + 1) * tier.delta ≤ tier.capacity :=
      mul_le_mul_of_nonneg_right more tier.delta_pos.le
    linarith [add_mul units 1 tier.delta]
  have covered : ceilDiv (units * tier.delta + extra) tier.delta = units + 1 := by
    rw [ceilDiv_eq_iff tier.delta_pos]
    constructor <;> linarith [add_mul units 1 tier.delta, sub_mul (units + 1) 1 tier.delta]
  have overshoot : tier.excess (units * tier.delta + extra) = tier.delta - extra := by
    rw [Tier.excess, covered]
    ring
  rw [refPrice_within rest span_pos bounded within, covered]
  simp only [refundAt, not_le.mpr span_pos, bounded, or_self, if_false, not_lt.mpr within,
    overshoot]
  have one_unit : units * tier.delta + extra ≤ tier.delta ↔ units = 0 := by
    constructor
    · intro short
      by_contra several
      have : tier.delta ≤ units * tier.delta :=
        le_mul_of_one_le_left tier.delta_pos.le (by omega)
      omega
    · rintro rfl
      simpa using extra_le
  simp only [one_unit]
  push_cast
  rfl

/-- The limit at the first tier that it cannot pay in full. -/
theorem affordable_iff_of_short {tier : Tier} (rest : List Tier) (fee_pos : 0 < tier.fee)
    (rest_fees : ∀ other ∈ rest, 0 < other.fee) (bounded : tier.iterations ≠ 0) {limit : ℚ}
    (limit_nonneg : 0 ≤ limit) (short : tier.affordable limit < tier.iterations) (cap : ℤ) :
    (∀ span, 0 ≤ span → span ≤ cap → span ≤ bought (tier :: rest) limit →
        refPrice (tier :: rest) span - refundAt (tier :: rest) span ≤ limit) ↔
      SpentInOrder (tier :: rest) limit cap := by
  have units_nonneg := affordable_nonneg fee_pos limit_nonneg
  have paid_nonneg : 0 ≤ tier.affordable limit * tier.delta :=
    mul_nonneg units_nonneg tier.delta_pos.le
  have spent : (tier.affordable limit : ℚ) * tier.fee ≤ limit := affordable_mul_fee_le fee_pos
  have next : limit < (tier.affordable limit + 1) * tier.fee := lt_affordable_succ fee_pos
  have buys := bought_pos_iff rest rest_fees (sub_nonneg.mpr spent)
  have used : min tier.iterations (tier.affordable limit) = tier.affordable limit :=
    min_eq_right short.le
  have paid_inside : tier.affordable limit * tier.delta ≤ tier.capacity :=
    mul_le_mul_of_nonneg_right short.le tier.delta_pos.le
  have beyond {extra : ℤ} (extra_pos : 0 < extra) (extra_le : extra ≤ tier.delta) :=
    price_of_next_unit rest bounded units_nonneg short extra_pos extra_le
  simp only [bought, SpentInOrder, bounded, if_false, used, not_le.mpr short]
  generalize units_eq : tier.affordable limit = units at *
  generalize left_eq : limit - units * tier.fee = left at *
  constructor
  · intro affordable
    by_cases capped : cap ≤ units * tier.delta
    · exact Or.inl capped
    by_cases dry : ∀ later ∈ visited rest, left < later.fee
    · exact Or.inr (Or.inl dry)
    refine Or.inr (Or.inr ?_)
    push Not at dry
    have bought_pos : 0 < bought rest left := buys.2.mpr dry
    have several : 0 < units := by
      by_contra none_paid
      obtain rfl : units = 0 := by omega
      have first := affordable (0 * tier.delta + 1) (by omega) (by omega) (by omega)
      rw [beyond one_pos tier.delta_pos] at first
      simp at first next
      linarith
    refine ⟨several, fun extra extra_pos extra_cap extra_bought => ?_⟩
    have extra_lt : extra < tier.delta := by
      by_contra long
      have := tier.delta_pos
      have whole := affordable (units * tier.delta + tier.delta) (by omega) (by omega) (by omega)
      rw [beyond tier.delta_pos le_rfl] at whole
      simp [several.ne'] at whole
      linarith
    have priced := affordable (units * tier.delta + extra) (by omega) extra_cap (by omega)
    rw [beyond extra_pos extra_lt.le, if_neg several.ne'] at priced
    exact ⟨extra_lt, by linarith⟩
  · intro spentInOrder span span_nonneg span_cap span_bought
    by_cases paid : span ≤ units * tier.delta
    · refine price_le_of_paid rest fee_pos limit_nonneg (Or.inr (by omega)) ?_
      rwa [units_eq]
    rcases spentInOrder with capped | dry | ⟨several, covered⟩
    · omega
    · have none_bought : ¬ 0 < bought rest left := by
        rw [buys.2]
        push Not
        exact dry
      omega
    · obtain ⟨extra, rfl⟩ : ∃ extra, span = units * tier.delta + extra :=
        ⟨span - units * tier.delta, by ring⟩
      have extra_pos : 0 < extra := by omega
      obtain ⟨extra_lt, refunded⟩ := covered extra extra_pos span_cap (by omega)
      rw [beyond extra_pos extra_lt.le, if_neg several.ne']
      linarith

/-- A tier that the limit pays in full passes the question on to the rest of the tariff. -/
theorem affordable_iff_of_full {tier : Tier} (rest : List Tier) (fee_pos : 0 < tier.fee)
    (bounded : tier.iterations ≠ 0) {limit : ℚ} (limit_nonneg : 0 ≤ limit)
    (full : tier.iterations ≤ tier.affordable limit) (cap : ℤ) :
    (∀ span, 0 ≤ span → span ≤ cap → span ≤ bought (tier :: rest) limit →
        refPrice (tier :: rest) span - refundAt (tier :: rest) span ≤ limit) ↔
      ∀ span, 0 ≤ span → span ≤ cap - tier.capacity →
        span ≤ bought rest (limit - tier.iterations * tier.fee) →
          refPrice rest span - refundAt rest span ≤ limit - tier.iterations * tier.fee := by
  have own_paid : (tier.iterations : ℚ) * tier.fee ≤ limit := (le_affordable_iff fee_pos).mp full
  have capacity_pos : 0 < tier.capacity := mul_pos (Tier.iterations_pos bounded) tier.delta_pos
  have capacity_paid : tier.capacity ≤ tier.affordable limit * tier.delta :=
    mul_le_mul_of_nonneg_right full tier.delta_pos.le
  have bought_eq : bought (tier :: rest) limit =
      tier.capacity + bought rest (limit - tier.iterations * tier.fee) := by
    simp [bought, bounded, min_eq_left full, Tier.capacity]
  have later_price {span : ℤ} (span_pos : 0 < span) :
      refPrice (tier :: rest) (tier.capacity + span) -
          refundAt (tier :: rest) (tier.capacity + span) =
        tier.iterations * tier.fee + (refPrice rest span - refundAt rest span) := by
    have outlasts : tier.capacity < tier.capacity + span := by omega
    have open_call : ¬ tier.capacity + span ≤ 0 := by omega
    rw [refPrice_full rest bounded outlasts, add_sub_cancel_left]
    simp only [refundAt, open_call, bounded, or_self, if_false, outlasts, if_true,
      add_sub_cancel_left]
    ring
  rw [bought_eq]
  constructor
  · intro affordable span span_nonneg span_cap span_bought
    rcases span_nonneg.eq_or_lt with rfl | span_pos
    · have refund_nonneg := refundAt_nonneg rest 0
      rw [refPrice_of_nonpos rest le_rfl]
      linarith
    · have priced := affordable (tier.capacity + span) (by omega) (by omega) (by omega)
      rw [later_price span_pos] at priced
      linarith
  · intro affordable span span_nonneg span_cap span_bought
    rcases le_or_gt span tier.capacity with inside | outlasts
    · exact price_le_of_paid rest fee_pos limit_nonneg (Or.inr inside) (inside.trans capacity_paid)
    · obtain ⟨later, rfl⟩ : ∃ later, span = tier.capacity + later :=
        ⟨span - tier.capacity, by ring⟩
      have priced := affordable later (by omega) (by omega) (by omega)
      rw [later_price (by omega)]
      linarith

/-- Every duration that the tiers sell is affordable exactly when the limit is spent in order. -/
theorem affordable_iff_spentInOrder (tiers : List Tier) (fees_pos : ∀ tier ∈ tiers, 0 < tier.fee)
    (unbounded : ∃ tier ∈ tiers, tier.iterations = 0) {limit : ℚ} (limit_nonneg : 0 ≤ limit)
    (cap : ℤ) :
    (∀ span, 0 ≤ span → span ≤ cap → span ≤ bought tiers limit →
        refPrice tiers span - refundAt tiers span ≤ limit) ↔ SpentInOrder tiers limit cap := by
  induction tiers generalizing limit cap with
  | nil => simp at unbounded
  | cons tier rest ih =>
      have fee_pos : 0 < tier.fee := fees_pos tier List.mem_cons_self
      have rest_fees : ∀ other ∈ rest, 0 < other.fee :=
        fun other member => fees_pos other (List.mem_cons_of_mem _ member)
      by_cases last : tier.iterations = 0
      · simp only [bought, SpentInOrder, last, if_true, iff_true]
        intro span _ _ paid
        exact price_le_of_paid rest fee_pos limit_nonneg (Or.inl last) paid
      rcases le_or_gt tier.iterations (tier.affordable limit) with full | short
      · have rest_unbounded : ∃ other ∈ rest, other.iterations = 0 := by
          obtain ⟨found, member, found_last⟩ := unbounded
          rcases List.mem_cons.mp member with rfl | member
          · exact (last found_last).elim
          · exact ⟨found, member, found_last⟩
        have left_nonneg : 0 ≤ limit - tier.iterations * tier.fee :=
          sub_nonneg.mpr ((le_affordable_iff fee_pos).mp full)
        rw [affordable_iff_of_full rest fee_pos last limit_nonneg full,
          ih rest_fees rest_unbounded left_nonneg]
        simp only [SpentInOrder, last, full, if_true, if_false]
      · exact affordable_iff_of_short rest fee_pos rest_fees last limit_nonneg short cap

/-! ## The grant of `calc_maxsec` -/

theorem Tier.fee_pos {tier : Tier} (paid : tier.fee ≠ 0) : 0 < tier.fee :=
  lt_of_le_of_ne tier.fee_nonneg paid.symm

section Counted

variable {tier : Tier} {limit : ℚ}

theorem Tier.counted_nonneg (limit_nonneg : 0 ≤ limit) : 0 ≤ tier.counted limit := by
  unfold Tier.counted
  split
  · exact zero_le_one
  · rename_i paid
    exact affordable_nonneg (Tier.fee_pos paid) limit_nonneg

/-- What the walk takes off the limit at a tier is there. -/
theorem Tier.used_mul_fee_le (limit_nonneg : 0 ≤ limit) :
    (min tier.iterations (tier.counted limit) : ℤ) * tier.fee ≤ limit := by
  by_cases free : tier.fee = 0
  · simpa [free] using limit_nonneg
  · rw [Tier.counted, if_neg free]
    exact (le_affordable_iff (Tier.fee_pos free)).mp (min_le_right _ _)

end Counted

theorem counted_nonneg (tiers : List Tier) {limit : ℚ} (limit_nonneg : 0 ≤ limit) :
    0 ≤ counted tiers limit := by
  induction tiers generalizing limit with
  | nil => exact le_rfl
  | cons tier rest ih =>
      have units_nonneg : 0 ≤ tier.counted limit := Tier.counted_nonneg limit_nonneg
      have used_nonneg : 0 ≤ min tier.iterations (tier.counted limit) :=
        le_min tier.iterations_nonneg units_nonneg
      have rest_nonneg := ih (sub_nonneg.mpr (tier.used_mul_fee_le limit_nonneg))
      unfold counted
      split
      · exact le_rfl
      split
      · exact mul_nonneg units_nonneg tier.delta_pos.le
      · exact add_nonneg (mul_nonneg used_nonneg tier.delta_pos.le) rest_nonneg

theorem counted_zero (tiers : List Tier) : counted tiers 0 = 0 := by
  cases tiers <;> simp [counted]

/-- Without free seconds the loop of `calc_maxsec` adds up the counted seconds. -/
theorem calcMaxsecLoop_eq_counted (tiers : List Tier) {freeBillsec : ℤ}
    (none_free : freeBillsec ≤ 0) (s : MaxsecTotals) :
    (calcMaxsecLoop freeBillsec (calcFuncs tiers) s).maxsec = s.maxsec + counted tiers s.limit := by
  induction tiers generalizing s with
  | nil => simp [calcFuncs, calcMaxsecLoop, counted]
  | cons tier rest ih =>
      have no_reset : ¬ (0 < freeBillsec ∧ s.maxsec < tier.delta) := fun reset => by omega
      have units_eq : s.tierUnits tier.toCalcFunction = tier.counted s.limit := by
        unfold MaxsecTotals.tierUnits Tier.counted
        by_cases free : tier.fee = 0
        · simp [free]
        · simp [free, Tier.fee_pos free, Tier.affordable]
      have used_eq : (if tier.iterations < tier.counted s.limit then tier.iterations
          else tier.counted s.limit) = min tier.iterations (tier.counted s.limit) := by
        rcases lt_or_ge tier.iterations (tier.counted s.limit) with more | fewer
        · rw [if_pos more, min_eq_left more.le]
        · rw [if_neg (not_lt.mpr fewer), min_eq_right fewer]
      by_cases spent : s.limit ≤ 0
      · simp [calcMaxsecLoop, counted, tier.pos_ne, no_reset, spent]
      simp only [calcFuncs_cons, calcMaxsecLoop, counted, tier.pos_ne, no_reset, spent, if_false,
        units_eq, used_eq]
      by_cases last : tier.iterations = 0
      · simp [last]
      · rw [if_neg last, if_neg last, ih]
        ring

theorem calcMaxsecValue_eq_counted (callMaxsecLimit : ℕ) (tiers : List Tier) {limit : ℚ}
    (limit_nonneg : 0 ≤ limit) {freeBillsec : ℤ} (none_free : freeBillsec ≤ 0) :
    calcMaxsecValue callMaxsecLimit (calcFuncs tiers) limit freeBillsec =
      min (callMaxsecLimit : ℤ) (counted tiers limit) := by
  have counted_nonneg := counted_nonneg tiers limit_nonneg
  simp only [calcMaxsecValue, not_lt.mpr none_free, false_and, if_false,
    calcMaxsecLoop_eq_counted tiers none_free, zero_add]
  rcases le_or_gt (callMaxsecLimit : ℤ) (counted tiers limit) with capped | below
  · simp [reachesMaxsecLimit, capped]
  · simp [reachesMaxsecLimit, below.le, not_le.mpr below, not_lt.mpr counted_nonneg]

/-- Where every tier has a fee, the seconds that are counted are those that the tiers sell. -/
theorem counted_eq_bought (tiers : List Tier) (fees_pos : ∀ tier ∈ tiers, 0 < tier.fee) {limit : ℚ}
    (limit_nonneg : 0 ≤ limit) : counted tiers limit = bought tiers limit := by
  induction tiers generalizing limit with
  | nil => rfl
  | cons tier rest ih =>
      have fee_pos : 0 < tier.fee := fees_pos tier List.mem_cons_self
      have rest_fees : ∀ other ∈ rest, 0 < other.fee :=
        fun other member => fees_pos other (List.mem_cons_of_mem _ member)
      rcases limit_nonneg.eq_or_lt with rfl | limit_pos
      · rw [counted_zero, bought_zero]
      have units : tier.counted limit = tier.affordable limit := if_neg fee_pos.ne'
      have used_paid : (min tier.iterations (tier.affordable limit) : ℤ) * tier.fee ≤ limit :=
        (le_affordable_iff fee_pos).mp (min_le_right _ _)
      simp only [counted, bought, not_le.mpr limit_pos, if_false, units,
        ih rest_fees (sub_nonneg.mpr used_paid)]

/-- The grant is what the tiers sell for the limit, cut at `call_maxsec_limit`. -/
theorem calcMaxsecValue_eq_min (callMaxsecLimit : ℕ) (tiers : List Tier)
    (fees_pos : ∀ tier ∈ tiers, 0 < tier.fee) {limit : ℚ} (limit_nonneg : 0 ≤ limit)
    {freeBillsec : ℤ} (none_free : freeBillsec ≤ 0) :
    calcMaxsecValue callMaxsecLimit (calcFuncs tiers) limit freeBillsec =
      min (callMaxsecLimit : ℤ) (bought tiers limit) := by
  rw [calcMaxsecValue_eq_counted callMaxsecLimit tiers limit_nonneg none_free,
    counted_eq_bought tiers fees_pos limit_nonneg]

/-! ## The grant against the reference -/

theorem reach_cons (tier : Tier) (rest : List Tier) (limit : ℚ) :
    reach (blocks (tier :: rest)) limit =
      if tier.iterations = 0 then tier.affordable limit * tier.delta
      else if tier.iterations ≤ tier.affordable limit then
        tier.iterations * tier.delta + reach (blocks rest) (limit - tier.iterations * tier.fee)
      else tier.affordable limit * tier.delta := by
  simp only [blocks, List.map_cons, reach, Tier.block, Tier.affordable]
  by_cases last : tier.iterations = 0
  · simp only [last, if_true]
  · simp only [last, if_false]
    rfl

/-- The grant never stops short of the seconds that the reference price leaves affordable. -/
theorem reach_le_bought (tiers : List Tier) (fees_pos : ∀ tier ∈ tiers, 0 < tier.fee) {limit : ℚ}
    (limit_nonneg : 0 ≤ limit) : reach (blocks tiers) limit ≤ bought tiers limit := by
  induction tiers generalizing limit with
  | nil => exact le_rfl
  | cons tier rest ih =>
      have fee_pos : 0 < tier.fee := fees_pos tier List.mem_cons_self
      have rest_fees : ∀ other ∈ rest, 0 < other.fee :=
        fun other member => fees_pos other (List.mem_cons_of_mem _ member)
      rw [reach_cons, bought]
      split
      · exact le_rfl
      split
      · rename_i full
        have paid : (tier.iterations : ℚ) * tier.fee ≤ limit := (le_affordable_iff fee_pos).mp full
        simp only [min_eq_left full]
        exact add_le_add_right (ih rest_fees (sub_nonneg.mpr paid)) _
      · rename_i short
        have left_nonneg : 0 ≤ limit - tier.affordable limit * tier.fee :=
          sub_nonneg.mpr (affordable_mul_fee_le fee_pos)
        simp only [min_eq_right (not_le.mp short).le]
        exact le_add_of_nonneg_right (bought_pos_iff rest rest_fees left_nonneg).1

/-- A call within the reach of the limit is priced within the limit. -/
theorem cprice_le_of_le_reach (tiers : List Tier) (fees_pos : ∀ tier ∈ tiers, 0 < tier.fee)
    (unbounded : ∃ tier ∈ tiers, tier.iterations = 0) {limit : ℚ} (limit_nonneg : 0 ≤ limit)
    {span : ℤ} (span_nonneg : 0 ≤ span) (within : span ≤ reach (blocks tiers) limit) :
    (calcCprice2Totals (calcFuncs tiers) span).cprice ≤ limit := by
  have block_fees : ∀ block ∈ blocks tiers, 0 < block.fee := by
    intro block member
    obtain ⟨tier, tier_member, rfl⟩ := List.mem_map.mp member
    exact fees_pos tier tier_member
  have block_unbounded : Unbounded (blocks tiers) := by
    obtain ⟨tier, member, last⟩ := unbounded
    exact ⟨tier.block, List.mem_map_of_mem member, by simp [Tier.block, last]⟩
  have reference : refPrice tiers span ≤ limit :=
    (price_le_iff _ block_fees block_unbounded limit_nonneg span).mpr within
  calc
    (calcCprice2Totals (calcFuncs tiers) span).cprice
        = refPrice tiers span - refundAt tiers span := cprice_eq tiers span_nonneg
    _ ≤ refPrice tiers span := sub_le_self _ (refundAt_nonneg tiers span)
    _ ≤ limit := reference

/-- Up to the cap the grant covers the reach of the limit. -/
theorem min_reach_le_calcMaxsecValue (callMaxsecLimit : ℕ) (tiers : List Tier)
    (fees_pos : ∀ tier ∈ tiers, 0 < tier.fee) {limit : ℚ} (limit_nonneg : 0 ≤ limit)
    {freeBillsec : ℤ} (none_free : freeBillsec ≤ 0) :
    min (callMaxsecLimit : ℤ) (reach (blocks tiers) limit) ≤
      calcMaxsecValue callMaxsecLimit (calcFuncs tiers) limit freeBillsec := by
  rw [calcMaxsecValue_eq_min callMaxsecLimit tiers fees_pos limit_nonneg none_free]
  exact min_le_min_left _ (reach_le_bought tiers fees_pos limit_nonneg)

/-! ## When the grant is affordable -/

/-- A grant is affordable for every duration up to it exactly when the limit is spent in order. -/
theorem grantAffordable_iff_spentInOrder (callMaxsecLimit : ℕ) (tiers : List Tier)
    (fees_pos : ∀ tier ∈ tiers, 0 < tier.fee) (unbounded : ∃ tier ∈ tiers, tier.iterations = 0)
    (limit : ℚ) (limit_pos : 0 < limit) :
    GrantAffordable callMaxsecLimit tiers limit ↔ SpentInOrder tiers limit callMaxsecLimit := by
  rw [← affordable_iff_spentInOrder tiers fees_pos unbounded limit_pos.le]
  have granted {rtp : Racc} (loaded : rtp.bplan.calcFuncs = some (calcFuncs tiers))
      (limit_eq : rtp.pre.limit = limit)
      (none_free : rtp.pre.freeBillsecLimit ≤ rtp.pre.freeBillsecSum) :
      (calcMaxsec callMaxsecLimit rtp).pre.maxsec =
        min (callMaxsecLimit : ℤ) (bought tiers limit) := by
    simp only [calcMaxsec, loaded, limit_eq]
    exact calcMaxsecValue_eq_min callMaxsecLimit tiers fees_pos limit_pos.le (by omega)
  have priced {rtp : Racc} (loaded : rtp.bplan.calcFuncs = some (calcFuncs tiers)) {span : ℤ}
      (span_nonneg : 0 ≤ span) :
      (calcCprice2 { rtp with pre := { rtp.pre with billsec := span } }).2.pre.cprice =
        refPrice tiers span - refundAt tiers span := by
    simp only [calcCprice2, loaded]
    exact cprice_eq tiers span_nonneg
  constructor
  · intro claim span span_nonneg span_cap span_bought
    let rtp : Racc :=
      { rtm := .clg, bplan := { calcFuncs := some (calcFuncs tiers) }, pre := { limit } }
    have within : span ≤ (calcMaxsec callMaxsecLimit rtp).pre.maxsec := by
      rw [@granted rtp rfl rfl le_rfl]
      exact le_min span_cap span_bought
    have paid := claim rtp rfl rfl le_rfl span span_nonneg within
    rwa [@priced rtp rfl span span_nonneg] at paid
  · intro claim rtp loaded limit_eq none_free span span_nonneg within
    rw [granted loaded limit_eq none_free, le_min_iff] at within
    rw [priced loaded span_nonneg]
    exact claim span span_nonneg within.1 within.2

/-- One minute at fee 10, then minutes at fee 1. -/
def dearMinuteFirst : List Tier := [.minutes 0 1000 1, .minutes 1 100 0]

/-- A limit of 12 pays the dear minute and two more. -/
theorem dearMinuteFirst_twelve : GrantAffordable 7200 dearMinuteFirst 12 :=
  (grantAffordable_iff_spentInOrder 7200 dearMinuteFirst (by decide +kernel) (by decide) 12
    (by decide +kernel)).mpr (by
      have full : (1 : ℤ) ≤ ⌊(12 : ℚ) / (1000 / 100)⌋ := by decide +kernel
      simp [dearMinuteFirst, Tier.minutes, Tier.ofCents, SpentInOrder, Tier.affordable, full])

/-- A limit of 5 does not pay the dear minute, but buys five minutes of the tier behind it. -/
theorem dearMinuteFirst_five : ¬ GrantAffordable 7200 dearMinuteFirst 5 := by
  intro claim
  let rtp : Racc :=
    { rtm := .clg, bplan := { calcFuncs := some (calcFuncs dearMinuteFirst) },
      pre := { limit := 5 } }
  have within : (300 : ℤ) ≤ (calcMaxsec 7200 rtp).pre.maxsec := by decide +kernel
  have paid := claim rtp rfl rfl le_rfl 300 (by decide) within
  exact absurd paid (by decide +kernel)

end RateEngine
