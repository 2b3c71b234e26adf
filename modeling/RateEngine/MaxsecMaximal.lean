import RateEngine.MaxsecGrant

/-!
# When the grant uses the whole limit

A tier without a fee costs nothing, so the reference price lets a call use all of it.  `calc_maxsec`
counts one unit of such a tier, also when the tier sells more, and it leaves the walk as soon as
the limit is used up, also when free seconds follow.  This file states exactly when the grant still
covers every duration that the limit pays for.
-/

namespace RateEngine

open BlockTariff

/-- The walk makes up for the free units that it does not count.  `owed` are the seconds of free
tiers before this one that were not counted, and `cap` is what is left of `call_maxsec_limit`:

* a free tier that is reached without a limit counts nothing, and an unbounded one counts one unit;
* a bounded free tier owes all its units but one;
* at the paid tier where the limit ends, nothing is owed, or the money left over buys the owed
  seconds from later tiers, or the cap is reached. -/
def LimitUsed : List Tier → ℚ → ℤ → ℤ → Prop
  | [], _, cap, owed => cap + owed ≤ 0
  | tier :: rest, limit, cap, owed =>
      if tier.fee = 0 then
        if limit = 0 then cap + owed ≤ 0
        else if tier.iterations = 0 then cap + owed ≤ tier.delta
        else LimitUsed rest limit (cap - tier.capacity) (owed + (tier.capacity - tier.delta))
      else if tier.iterations = 0 then owed = 0 ∨ cap + owed ≤ tier.affordable limit * tier.delta
      else if tier.iterations ≤ tier.affordable limit then
        LimitUsed rest (limit - tier.iterations * tier.fee) (cap - tier.capacity) owed
      else
        let later := counted rest (limit - tier.affordable limit * tier.fee)
        owed ≤ later ∨ cap + owed ≤ tier.affordable limit * tier.delta + later

/-- The maximality claim at one tariff and limit: with no free seconds left, every duration up to
`call_maxsec_limit` whose reference price is within the limit is granted. -/
def GrantMaximal (callMaxsecLimit : ℕ) (tiers : List Tier) (limit : ℚ) : Prop :=
  ∀ rtp : Racc, rtp.bplan.calcFuncs = some (calcFuncs tiers) → rtp.pre.limit = limit →
    rtp.pre.freeBillsecLimit ≤ rtp.pre.freeBillsecSum →
      ∀ span : ℤ, 0 ≤ span → span ≤ callMaxsecLimit → refPrice tiers span ≤ limit →
        span ≤ (calcMaxsec callMaxsecLimit rtp).pre.maxsec

/-! ## The seconds that are counted -/

section CountedStep

variable {tier : Tier} (rest : List Tier) {limit : ℚ}

theorem counted_of_unbounded (paid : tier.fee ≠ 0) (unbounded : tier.iterations = 0)
    (limit_nonneg : 0 ≤ limit) :
    counted (tier :: rest) limit = tier.affordable limit * tier.delta := by
  rcases limit_nonneg.eq_or_lt with rfl | limit_pos
  · simp [counted, Tier.affordable]
  · simp [counted, Tier.counted, paid, unbounded, not_le.mpr limit_pos]

theorem counted_of_bounded (paid : tier.fee ≠ 0) (bounded : tier.iterations ≠ 0)
    (limit_nonneg : 0 ≤ limit) :
    counted (tier :: rest) limit =
      min tier.iterations (tier.affordable limit) * tier.delta +
        counted rest (limit - (min tier.iterations (tier.affordable limit) : ℤ) * tier.fee) := by
  rcases limit_nonneg.eq_or_lt with rfl | limit_pos
  · simp [Tier.affordable, min_eq_right tier.iterations_nonneg, counted_zero]
  · simp [counted, Tier.counted, paid, bounded, not_le.mpr limit_pos]

end CountedStep

/-! ## The durations that a limit pays for -/

section Paid

variable {tier : Tier} (rest : List Tier) {limit : ℚ}

/-- Behind a bounded tier that is paid in full the question is that of the rest of the tariff. -/
theorem refPrice_le_iff_of_full (bounded : tier.iterations ≠ 0)
    (full : (tier.iterations : ℚ) * tier.fee ≤ limit) (span : ℤ) :
    refPrice (tier :: rest) span ≤ limit ↔
      refPrice rest (span - tier.capacity) ≤ limit - tier.iterations * tier.fee := by
  rcases le_or_gt span tier.capacity with inside | outlasts
  · have later_free : refPrice rest (span - tier.capacity) = 0 :=
      refPrice_of_nonpos rest (sub_nonpos.mpr inside)
    have own_nonneg : (0 : ℚ) ≤ tier.iterations * tier.fee :=
      mul_nonneg (by exact_mod_cast tier.iterations_nonneg) tier.fee_nonneg
    rw [later_free]
    refine iff_of_true ?_ (sub_nonneg.mpr full)
    rcases le_or_gt span 0 with ended | span_pos
    · rw [refPrice_of_nonpos _ ended]
      exact own_nonneg.trans full
    · rw [refPrice_within rest span_pos bounded inside]
      have units : ceilDiv span tier.delta ≤ tier.iterations :=
        (ceilDiv_le_iff tier.delta_pos).mpr inside
      have units_cast : (ceilDiv span tier.delta : ℚ) ≤ tier.iterations := by exact_mod_cast units
      exact (mul_le_mul_of_nonneg_right units_cast tier.fee_nonneg).trans full
  · rw [refPrice_full rest bounded outlasts, le_sub_iff_add_le']

/-- A limit that ends inside a paid tier pays for its affordable units. -/
theorem refPrice_le_iff_of_short (paid : tier.fee ≠ 0) (limit_nonneg : 0 ≤ limit)
    (short : tier.iterations = 0 ∨ tier.affordable limit < tier.iterations) (span : ℤ) :
    refPrice (tier :: rest) span ≤ limit ↔ span ≤ tier.affordable limit * tier.delta := by
  have fee_pos := Tier.fee_pos paid
  have top_nonneg : 0 ≤ tier.affordable limit * tier.delta :=
    mul_nonneg (affordable_nonneg fee_pos limit_nonneg) tier.delta_pos.le
  have own : (ceilDiv span tier.delta : ℚ) * tier.fee ≤ limit ↔
      span ≤ tier.affordable limit * tier.delta := by
    rw [← le_affordable_iff fee_pos, ceilDiv_le_iff tier.delta_pos]
  rcases le_or_gt span 0 with ended | span_pos
  · rw [refPrice_of_nonpos _ ended]
    exact iff_of_true limit_nonneg (ended.trans top_nonneg)
  by_cases unbounded : tier.iterations = 0
  · rw [refPrice_unbounded rest span_pos unbounded, own]
  have dear := short.resolve_left unbounded
  rcases le_or_gt span tier.capacity with inside | outlasts
  · rw [refPrice_within rest span_pos unbounded inside, own]
  · have rest_nonneg : 0 ≤ refPrice rest (span - tier.capacity) := price_nonneg _ _
    have top : tier.affordable limit * tier.delta ≤ tier.capacity :=
      mul_le_mul_of_nonneg_right dear.le tier.delta_pos.le
    have dear_cast : limit < tier.iterations * tier.fee := by
      rw [← not_le, ← le_affordable_iff fee_pos]
      exact not_le.mpr dear
    rw [refPrice_full rest unbounded outlasts]
    exact iff_of_false (by linarith) (by omega)

/-- A limit pays for any use of a free tier without bound. -/
theorem refPrice_eq_zero_of_free (free : tier.fee = 0) {span : ℤ}
    (inside : tier.iterations = 0 ∨ span ≤ tier.capacity) : refPrice (tier :: rest) span = 0 := by
  rcases le_or_gt span 0 with ended | span_pos
  · exact refPrice_of_nonpos _ ended
  by_cases unbounded : tier.iterations = 0
  · rw [refPrice_unbounded rest span_pos unbounded, free, mul_zero]
  · rw [refPrice_within rest span_pos unbounded (inside.resolve_left unbounded), free, mul_zero]

end Paid

/-! ## When the limit is used -/

/-- Spans up to a cap and a reach stay below a total when the smaller of both does. -/
theorem forall_span_add_le_iff {cap reach owed total : ℤ} :
    (∀ span, span ≤ cap → span ≤ reach → span + owed ≤ total) ↔
      reach + owed ≤ total ∨ cap + owed ≤ total := by
  constructor
  · intro bounded
    rcases le_total cap reach with capped | reached
    · exact Or.inr (bounded cap le_rfl capped)
    · exact Or.inl (bounded reach reached le_rfl)
  · rintro (reached | capped) span span_cap span_reach <;> omega

/-- Behind a bounded tier that is paid in full its seconds count as owed. -/
theorem span_add_le_iff_of_full {tier : Tier} (rest : List Tier) (bounded : tier.iterations ≠ 0)
    {limit : ℚ} (full : (tier.iterations : ℚ) * tier.fee ≤ limit) (cap owed total : ℤ) :
    (∀ span, span ≤ cap → refPrice (tier :: rest) span ≤ limit → span + owed ≤ total) ↔
      ∀ span, span ≤ cap - tier.capacity →
        refPrice rest span ≤ limit - tier.iterations * tier.fee →
          span + (owed + tier.capacity) ≤ total := by
  have question (span : ℤ) := refPrice_le_iff_of_full rest bounded full span
  constructor
  · intro counted span span_cap span_paid
    have later := counted (tier.capacity + span) (by omega)
      ((question _).mpr (by rwa [add_sub_cancel_left]))
    omega
  · intro counted span span_cap span_paid
    have later := counted (span - tier.capacity) (by omega) ((question span).mp span_paid)
    omega

/-- A free tier that is reached without a limit: its first second is paid for and not counted. -/
theorem span_add_le_iff_of_spent {tier : Tier} (rest : List Tier) (free : tier.fee = 0)
    (cap : ℤ) {owed : ℤ} (owed_nonneg : 0 ≤ owed) :
    (∀ span, span ≤ cap → refPrice (tier :: rest) span ≤ 0 → span + owed ≤ 0) ↔
      cap + owed ≤ 0 := by
  constructor
  · intro counted
    rcases le_or_gt cap 0 with capped | cap_pos
    · exact counted cap le_rfl (refPrice_of_nonpos _ capped).le
    · have one_inside : tier.iterations = 0 ∨ 1 ≤ tier.capacity := by
        by_cases unbounded : tier.iterations = 0
        · exact Or.inl unbounded
        · exact Or.inr (mul_pos (Tier.iterations_pos unbounded) tier.delta_pos)
      have first := counted 1 cap_pos (refPrice_eq_zero_of_free rest free one_inside).le
      omega
  · intro capped span span_cap _
    omega

/-- Every duration that the limit pays for is counted, up to the seconds owed, exactly when the
walk makes up for the free units. -/
theorem counted_iff_limitUsed (tiers : List Tier) {limit : ℚ} (limit_nonneg : 0 ≤ limit)
    (cap : ℤ) {owed : ℤ} (owed_nonneg : 0 ≤ owed) :
    (∀ span, span ≤ cap → refPrice tiers span ≤ limit → span + owed ≤ counted tiers limit) ↔
      LimitUsed tiers limit cap owed := by
  induction tiers generalizing limit cap owed with
  | nil =>
      have all_paid (span : ℤ) : refPrice [] span ≤ limit := limit_nonneg
      simp only [LimitUsed, counted, all_paid, true_implies]
      exact ⟨fun counted => counted cap le_rfl, fun capped span span_cap => by omega⟩
  | cons tier rest ih =>
      by_cases free : tier.fee = 0
      · rcases limit_nonneg.eq_or_lt with rfl | limit_pos
        · simp only [LimitUsed, free, if_true, counted_zero]
          exact span_add_le_iff_of_spent rest free cap owed_nonneg
        have open_limit : ¬ limit ≤ 0 := not_le.mpr limit_pos
        by_cases unbounded : tier.iterations = 0
        · have all_paid (span : ℤ) : refPrice (tier :: rest) span ≤ limit :=
            (refPrice_eq_zero_of_free rest free (Or.inl unbounded)).le.trans limit_nonneg
          simp only [LimitUsed, counted, Tier.counted, free, unbounded, open_limit, limit_pos.ne',
            all_paid, true_implies, if_true, if_false, one_mul]
          exact ⟨fun counted => counted cap le_rfl, fun capped span span_cap => by omega⟩
        · have one_unit : tier.delta ≤ tier.capacity :=
            le_mul_of_one_le_left tier.delta_pos.le (Tier.iterations_pos unbounded)
          have paid : (tier.iterations : ℚ) * tier.fee ≤ limit := by simpa [free] using limit_nonneg
          have total : counted (tier :: rest) limit = tier.delta + counted rest limit := by
            have one_used : min tier.iterations 1 = 1 :=
              min_eq_right (Tier.iterations_pos unbounded)
            simp [counted, Tier.counted, free, unbounded, open_limit, one_used]
          rw [span_add_le_iff_of_full rest unbounded paid, total]
          simp only [LimitUsed, free, unbounded, limit_pos.ne', if_true, if_false, mul_zero,
            sub_zero]
          rw [← ih limit_nonneg _ (by omega)]
          exact forall₃_congr fun span _ _ => by omega
      have fee_pos := Tier.fee_pos free
      by_cases unbounded : tier.iterations = 0
      · simp only [refPrice_le_iff_of_short rest free limit_nonneg (Or.inl unbounded), LimitUsed,
          free, unbounded, if_true, if_false, counted_of_unbounded rest free unbounded limit_nonneg]
        rw [forall_span_add_le_iff]
        exact or_congr_left (by omega)
      have total := counted_of_bounded rest free unbounded limit_nonneg
      rcases le_or_gt tier.iterations (tier.affordable limit) with full | short
      · have paid := (le_affordable_iff fee_pos).mp full
        rw [span_add_le_iff_of_full rest unbounded paid, total, min_eq_left full]
        simp only [LimitUsed, free, unbounded, full, if_true, if_false]
        rw [← ih (sub_nonneg.mpr paid) _ owed_nonneg]
        refine forall₃_congr fun span _ _ => ?_
        rw [Tier.capacity]
        omega
      · simp only [refPrice_le_iff_of_short rest free limit_nonneg (Or.inr short), LimitUsed, free,
          unbounded, not_le.mpr short, if_false]
        rw [forall_span_add_le_iff, total, min_eq_right short.le]
        exact or_congr_left (by omega)

/-- Five free minutes, then minutes at fee 0.10. -/
def freeMinutesFirst : List Tier := [.minutes 0 0 5, .minutes 1 10 0]

end RateEngine
