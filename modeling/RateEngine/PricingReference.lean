import RateEngine.TierWalk

/-!
# When the charged price is the reference price

The walk of `calc_cprice_2` stops after a tier that charged one unit, not after the tier in which
the call ended.  A call that ends inside a later unit of a bounded tier is therefore carried on with
a negative remainder, and every following tier whose unit fits into the overshoot gives units back.
-/

namespace RateEngine

open BlockTariff

/-- The tiers that the loop visits when no pass charges exactly one unit: all of them up to the
first unbounded one. -/
def visited : List Tier → List Tier
  | [] => []
  | tier :: rest => tier :: if tier.iterations = 0 then [] else visited rest

/-- The call ends in its first unit of a bounded tier, in an unbounded tier, or with an overshoot
that is shorter than the unit of every tier still visited. -/
def EndsClean : List Tier → ℤ → Prop
  | [], _ => True
  | tier :: rest, span =>
      if span ≤ 0 ∨ tier.iterations = 0 then True
      else if tier.capacity < span then EndsClean rest (span - tier.capacity)
      else span ≤ tier.delta ∨ ∀ later ∈ visited rest, tier.excess span < later.delta

/-- The pricing claim at one tariff and duration: on success the price is the reference price and
not negative, the billed seconds cover the call, and no unit is charged or given back once the
remaining seconds have reached zero. -/
def PricingMeetsReference (tiers : List Tier) (span : ℤ) : Prop :=
  ∀ rtp rtp' : Racc, rtp.bplan.calcFuncs = some (calcFuncs tiers) → rtp.pre.billsec = span →
    calcCprice2 rtp = (0, rtp') →
      rtp'.pre.cprice = refPrice tiers span ∧ 0 ≤ rtp'.pre.cprice ∧ span ≤ rtp'.pre.billsec ∧
        ∀ charge ∈ calcCprice2Charges (calcFuncs tiers) span,
          charge.checksec ≤ 0 → charge.units = 0

/-! ## Overshoot on the later tiers -/

/-- An overshoot shorter than every visited unit charges nothing. -/
theorem units_eq_zero_of_short (tiers : List Tier) {excess : ℤ} (excess_nonneg : 0 ≤ excess)
    (short : ∀ later ∈ visited tiers, excess < later.delta) :
    ∀ charge ∈ calcCprice2Charges (calcFuncs tiers) (-excess), charge.units = 0 := by
  induction tiers with
  | nil => simp [calcFuncs, calcCprice2Charges]
  | cons tier rest ih =>
      have fits : excess < tier.delta := short tier (by simp [visited])
      have quotient : excess / tier.delta = 0 := Int.ediv_eq_zero_of_lt excess_nonneg fits
      have remainder : excess % tier.delta = excess := Int.emod_eq_of_lt excess_nonneg fits
      rw [charges_excess tier rest excess_nonneg, quotient, remainder]
      intro charge member
      rcases List.mem_cons.mp member with rfl | member
      · rfl
      by_cases unbounded : tier.iterations = 0
      · simp [unbounded] at member
      · rw [if_neg unbounded] at member
        refine ih (fun later later_member => short later ?_) charge member
        simp [visited, unbounded, later_member]

theorem refund_eq_zero_of_short (tiers : List Tier) {excess : ℤ} (excess_nonneg : 0 ≤ excess)
    (short : ∀ later ∈ visited tiers, excess < later.delta) : refund tiers excess = 0 := by
  have still := units_eq_zero_of_short tiers excess_nonneg short
  have charged := chargedPrice_excess tiers excess_nonneg
  have free : chargedPrice (calcCprice2Charges (calcFuncs tiers) (-excess)) = 0 := by
    apply List.sum_eq_zero
    intro value member
    obtain ⟨charge, charge_member, rfl⟩ := List.mem_map.mp member
    simp [still charge charge_member]
  linarith

/-- A visited unit that fits into the overshoot is given back. -/
theorem exists_giveBack (tiers : List Tier) {excess : ℤ} (excess_nonneg : 0 ≤ excess)
    (long : ∃ later ∈ visited tiers, later.delta ≤ excess) :
    ∃ charge ∈ calcCprice2Charges (calcFuncs tiers) (-excess),
      charge.checksec ≤ 0 ∧ charge.units ≠ 0 := by
  induction tiers with
  | nil => simp [visited] at long
  | cons tier rest ih =>
      rw [charges_excess tier rest excess_nonneg]
      by_cases fits : excess < tier.delta
      · obtain ⟨later, member, later_fits⟩ := long
        have remainder : excess % tier.delta = excess := Int.emod_eq_of_lt excess_nonneg fits
        rcases List.mem_cons.mp member with rfl | member
        · omega
        by_cases unbounded : tier.iterations = 0
        · simp [unbounded] at member
        · rw [if_neg unbounded] at member
          obtain ⟨charge, charge_member, bad⟩ := ih ⟨later, member, later_fits⟩
          refine ⟨charge, List.mem_cons_of_mem _ ?_, bad⟩
          rwa [if_neg unbounded, remainder]
      · refine ⟨_, List.mem_cons_self, by simpa using excess_nonneg, ?_⟩
        have quotient_pos : 1 ≤ excess / tier.delta :=
          (Int.le_ediv_iff_mul_le tier.delta_pos).mpr (by omega)
        simp only [ne_eq, neg_eq_zero]
        omega

/-! ## The whole walk -/

theorem units_eq_zero_of_endsClean (tiers : List Tier) {span : ℤ} (span_nonneg : 0 ≤ span)
    (clean : EndsClean tiers span) :
    ∀ charge ∈ calcCprice2Charges (calcFuncs tiers) span,
      charge.checksec ≤ 0 → charge.units = 0 := by
  induction tiers generalizing span with
  | nil => simp [calcFuncs, calcCprice2Charges]
  | cons tier rest ih =>
      rcases span_nonneg.eq_or_lt with rfl | span_pos
      · intro charge member _
        refine units_eq_zero_of_short (tier :: rest) le_rfl
          (fun later _ => later.delta_pos) charge ?_
        rwa [neg_zero]
      have open_call : ¬ span ≤ 0 := not_le.mpr span_pos
      intro charge member ended
      by_cases unbounded : tier.iterations = 0
      · rw [charges_unbounded rest span unbounded] at member
        obtain rfl := List.mem_singleton.mp member
        exact (open_call ended).elim
      by_cases outlasts : tier.capacity < span
      · rw [charges_full rest unbounded outlasts] at member
        rcases List.mem_cons.mp member with rfl | member
        · exact (open_call ended).elim
        · refine ih (sub_nonneg.mpr outlasts.le) ?_ charge member ended
          simpa [EndsClean, open_call, unbounded, outlasts] using clean
      · have within : span ≤ tier.capacity := not_lt.mp outlasts
        have ending : span ≤ tier.delta ∨
            ∀ later ∈ visited rest, tier.excess span < later.delta := by
          simpa only [EndsClean, open_call, unbounded, outlasts, or_self, if_false] using clean
        rw [charges_within rest unbounded within] at member
        simp only [ceilDiv_eq_one_iff tier span_pos] at member
        rcases List.mem_cons.mp member with rfl | member
        · exact (open_call ended).elim
        · rcases ending with one_unit | short
          · simp [one_unit] at member
          · split at member
            · simp at member
            · exact units_eq_zero_of_short rest (tier.excess_nonneg span) short charge member

theorem refundAt_eq_zero_of_endsClean (tiers : List Tier) {span : ℤ}
    (clean : EndsClean tiers span) : refundAt tiers span = 0 := by
  induction tiers generalizing span with
  | nil => rfl
  | cons tier rest ih =>
      unfold EndsClean at clean
      unfold refundAt
      split
      · rfl
      · rename_i open_bounded
        rw [if_neg open_bounded] at clean
        split
        · rename_i outlasts
          rw [if_pos outlasts] at clean
          exact ih clean
        · rename_i within
          rw [if_neg within] at clean
          split
          · rfl
          · rename_i several
            exact refund_eq_zero_of_short rest (tier.excess_nonneg span)
              (clean.resolve_left several)

/-- A call that does not end clean succeeds and gives a unit back. -/
theorem giveBack_of_not_endsClean (tiers : List Tier) {span : ℤ}
    (unclean : ¬ EndsClean tiers span) :
    span ≤ chargedSeconds (calcCprice2Charges (calcFuncs tiers) span) ∧
      ∃ charge ∈ calcCprice2Charges (calcFuncs tiers) span,
        charge.checksec ≤ 0 ∧ charge.units ≠ 0 := by
  induction tiers generalizing span with
  | nil => simp [EndsClean] at unclean
  | cons tier rest ih =>
      unfold EndsClean at unclean
      split at unclean
      · simp at unclean
      rename_i open_bounded
      obtain ⟨open_call, bounded⟩ := not_or.mp open_bounded
      split at unclean
      · rename_i outlasts
        obtain ⟨covers, charge, member, bad⟩ := ih unclean
        rw [charges_full rest bounded outlasts, chargedSeconds_cons]
        have own : tier.iterations * tier.delta = tier.capacity := rfl
        refine ⟨by simp only [own]; linarith, charge, List.mem_cons_of_mem _ member, bad⟩
      · rename_i within
        obtain ⟨several, long⟩ := not_or.mp unclean
        push Not at long
        have excess_nonneg := tier.excess_nonneg span
        obtain ⟨charge, member, bad⟩ := exists_giveBack rest excess_nonneg long
        have carried := neg_excess_le_chargedSeconds rest excess_nonneg
        rw [charges_within rest bounded (not_lt.mp within),
          if_neg ((ceilDiv_eq_one_iff tier (not_le.mp open_call)).not.mpr several),
          chargedSeconds_cons]
        refine ⟨?_, charge, List.mem_cons_of_mem _ member, bad⟩
        simp only [Tier.excess] at carried ⊢
        linarith

/-- Success of `calc_cprice_2`, in terms of the totals of its loop. -/
theorem calcCprice2_eq_zero_iff {rtp rtp' : Racc} {tr : List CalcFunction}
    (loaded : rtp.bplan.calcFuncs = some tr) :
    calcCprice2 rtp = (0, rtp') ↔
      (calcCprice2Totals tr rtp.pre.billsec).checksec ≤ 0 ∧
        rtp' = { rtp with
          pre := { rtp.pre with
            cprice := (calcCprice2Totals tr rtp.pre.billsec).cprice
            billsec := (calcCprice2Totals tr rtp.pre.billsec).billsec } } := by
  simp only [calcCprice2, loaded]
  split <;> simp_all [eq_comm]

/-- The walk meets its reference exactly on the calls that end clean. -/
theorem pricingMeetsReference_iff_endsClean (tiers : List Tier) (span : ℤ)
    (span_nonneg : 0 ≤ span) : PricingMeetsReference tiers span ↔ EndsClean tiers span := by
  constructor
  · intro meets
    by_contra unclean
    obtain ⟨covers, charge, member, ended, given⟩ := giveBack_of_not_endsClean tiers unclean
    let rtp : Racc :=
      { rtm := .clg, bplan := { calcFuncs := some (calcFuncs tiers) }, pre := { billsec := span } }
    have success : (calcCprice2Totals (calcFuncs tiers) span).checksec ≤ 0 := by
      rw [calcCprice2Totals_eq]
      exact sub_nonpos.mpr covers
    have loaded : rtp.bplan.calcFuncs = some (calcFuncs tiers) := rfl
    have run := (calcCprice2_eq_zero_iff loaded).mpr ⟨success, rfl⟩
    exact given ((meets rtp _ loaded rfl run).2.2.2 charge member ended)
  · intro clean rtp rtp' loaded seconds run
    obtain ⟨success, rfl⟩ := (calcCprice2_eq_zero_iff loaded).mp run
    subst seconds
    have charged : (calcCprice2Totals (calcFuncs tiers) rtp.pre.billsec).cprice =
        refPrice tiers rtp.pre.billsec := by
      rw [cprice_eq tiers span_nonneg, refundAt_eq_zero_of_endsClean tiers clean, sub_zero]
    refine ⟨charged, ?_, ?_, units_eq_zero_of_endsClean tiers span_nonneg clean⟩
    · simp only [charged]
      exact price_nonneg _ _
    · have := billsec_eq_sub_checksec (calcFuncs tiers) rtp.pre.billsec
      simp only
      omega

/-- Five one-minute units at fee 1, then seconds at fee 1/10. -/
def minutesThenSeconds : List Tier := [.minutes 0 100 5, .seconds 1 10 0]

/-- A call of one minute meets the reference. -/
theorem minutesThenSeconds_sixty : PricingMeetsReference minutesThenSeconds 60 :=
  (pricingMeetsReference_iff_endsClean minutesThenSeconds 60 (by decide)).mpr (by
    simp [minutesThenSeconds, Tier.minutes, Tier.seconds, Tier.ofCents, EndsClean, Tier.capacity])

/-- Ninety seconds are priced as two minutes less thirty seconds given back, at a total of `-1`. -/
theorem minutesThenSeconds_ninety : ¬ PricingMeetsReference minutesThenSeconds 90 := by
  intro claim
  let rtp : Racc :=
    { rtm := .clg, bplan := { calcFuncs := some (calcFuncs minutesThenSeconds) },
      pre := { billsec := 90 } }
  have run : calcCprice2 rtp = (0, (calcCprice2 rtp).2) := by decide +kernel
  have priced := (claim rtp _ rfl rfl run).2.1
  exact absurd priced (by decide +kernel)

end RateEngine
