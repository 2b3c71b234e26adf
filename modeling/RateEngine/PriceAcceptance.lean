import RateEngine.BoundarySplit
import RateEngine.PriceWalk

/-!
# Calls that both engines accept

`calc_cprice_2` refuses a call that outlasts a tariff without an unbounded tier, and `rt_exec` then
marks it with `-1`.  The price walk of the batch engine has no such check: it ends on the last row
that it finds, and the row is written.  This file says which calls each engine accepts, and when the
two agree.
-/

namespace RateEngine

open BlockTariff (ceilDiv ceilDiv_le_iff lt_ceilDiv_iff le_ceilDiv_mul)

/-! ## Calls that the classic engine prices -/

/-- A tier that sells blocks of a positive length, a number of them or, with `0`, any number. -/
structure CalcFunction.Sells (tier : CalcFunction) : Prop where
  delta_pos : 0 < tier.delta
  iterations_nonneg : 0 ≤ tier.iterations

/-- The rows of a tariff that the loop of `calc_cprice_2` reads. -/
def readTiers (tr : List CalcFunction) : List CalcFunction := tr.takeWhile fun tier => tier.pos ≠ 0

/-- Seconds that the tiers of a tariff without an unbounded one sell. -/
def capacity (tr : List CalcFunction) : ℤ :=
  (tr.map fun tier => tier.iterations * tier.delta).sum

/-- A tariff covers a call when it has an unbounded tier or its tiers sell enough seconds. -/
def Covers (tr : List CalcFunction) (span : ℤ) : Prop :=
  (∃ tier ∈ tr, tier.iterations = 0) ∨ span ≤ capacity tr

instance (tr : List CalcFunction) (span : ℤ) : Decidable (Covers tr span) :=
  inferInstanceAs (Decidable (_ ∨ _))

@[simp]
theorem capacity_cons (tier : CalcFunction) (rest : List CalcFunction) :
    capacity (tier :: rest) = tier.iterations * tier.delta + capacity rest := by
  simp [capacity]

theorem capacity_nonneg {tr : List CalcFunction} (sells : ∀ tier ∈ tr, tier.Sells) :
    0 ≤ capacity tr := by
  refine List.sum_nonneg fun seconds member => ?_
  obtain ⟨tier, tier_mem, rfl⟩ := List.mem_map.mp member
  exact mul_nonneg (sells tier tier_mem).iterations_nonneg (sells tier tier_mem).delta_pos.le

theorem Covers.mono {tr : List CalcFunction} {span shorter : ℤ} (covers : Covers tr span)
    (le : shorter ≤ span) : Covers tr shorter := covers.imp_right le.trans

theorem covers_of_nonpos {tr : List CalcFunction} (sells : ∀ tier ∈ tr, tier.Sells) {span : ℤ}
    (ended : span ≤ 0) : Covers tr span := Or.inr (ended.trans (capacity_nonneg sells))

theorem covers_cons {tier : CalcFunction} {rest : List CalcFunction} {span : ℤ}
    (bounded : tier.iterations ≠ 0) :
    Covers (tier :: rest) span ↔ Covers rest (span - tier.iterations * tier.delta) := by
  simp [Covers, bounded, add_comm]

/-- The loop reads the rows before the first one at position `0`. -/
theorem calcCprice2Loop_readTiers (tr : List CalcFunction) (s : CpriceTotals) :
    calcCprice2Loop (readTiers tr) s = calcCprice2Loop tr s := by
  induction tr generalizing s with
  | nil => rfl
  | cons tier rest ih =>
      by_cases at_end : tier.pos = 0
      · simp [readTiers, calcCprice2Loop, at_end]
      · have read : readTiers (tier :: rest) = tier :: readTiers rest := by
          simp [readTiers, at_end]
        rw [read, calcCprice2Loop, calcCprice2Loop]
        simp only [ih]

/-- The loop ends the call exactly when the tiers cover it. -/
theorem calcCprice2Loop_checksec {tr : List CalcFunction} (sells : ∀ tier ∈ tr, tier.Sells)
    (positions : ∀ tier ∈ tr, tier.pos ≠ 0) (s : CpriceTotals) :
    (calcCprice2Loop tr s).checksec ≤ 0 ↔ Covers tr s.checksec := by
  induction tr generalizing s with
  | nil => simp [calcCprice2Loop, Covers, capacity]
  | cons tier rest ih =>
      have delta_pos := (sells tier List.mem_cons_self).delta_pos
      have rest_sells : ∀ other ∈ rest, other.Sells :=
        fun other member => sells other (List.mem_cons_of_mem tier member)
      have ended : s.checksec - ceilDiv s.checksec tier.delta * tier.delta ≤ 0 :=
        sub_nonpos.mpr (le_ceilDiv_mul delta_pos)
      have ih :=
        ih rest_sells fun other member => positions other (List.mem_cons_of_mem tier member)
      simp only [calcCprice2Loop, positions tier List.mem_cons_self, if_false]
      by_cases unbounded : tier.iterations = 0
      · rw [if_pos unbounded]
        exact iff_of_true ended (Or.inl ⟨tier, List.mem_cons_self, unbounded⟩)
      rw [if_neg unbounded, covers_cons unbounded]
      by_cases outlasts : tier.iterations < ceilDiv s.checksec tier.delta
      · have several : ceilDiv s.checksec tier.delta ≠ 1 := by
          have := (sells tier List.mem_cons_self).iterations_nonneg
          omega
        rw [if_pos outlasts, if_neg several]
        exact ih _
      · have within : s.checksec - tier.iterations * tier.delta ≤ 0 :=
          sub_nonpos.mpr ((ceilDiv_le_iff delta_pos).mp (not_lt.mp outlasts))
        rw [if_neg outlasts]
        refine iff_of_true ?_ (covers_of_nonpos rest_sells within)
        split
        · exact ended
        · exact (ih _).mpr (covers_of_nonpos rest_sells ended)

/-- The loop bills no more than the bounded tiers sell. -/
theorem calcCprice2Loop_billsec {tr : List CalcFunction} (sells : ∀ tier ∈ tr, tier.Sells)
    (bounded : ∀ tier ∈ tr, tier.iterations ≠ 0) (s : CpriceTotals) :
    (calcCprice2Loop tr s).billsec ≤ s.billsec + capacity tr := by
  induction tr generalizing s with
  | nil => simp [calcCprice2Loop, capacity]
  | cons tier rest ih =>
      have delta_pos := (sells tier List.mem_cons_self).delta_pos
      have rest_sells : ∀ other ∈ rest, other.Sells :=
        fun other member => sells other (List.mem_cons_of_mem tier member)
      have rest_nonneg := capacity_nonneg rest_sells
      have own_nonneg : 0 ≤ tier.iterations * tier.delta :=
        mul_nonneg (sells tier List.mem_cons_self).iterations_nonneg delta_pos.le
      have ih := ih rest_sells fun other member => bounded other (List.mem_cons_of_mem tier member)
      have charged (units : ℤ) (within : units ≤ tier.iterations) :
          (s.charge tier units).billsec ≤ s.billsec + tier.iterations * tier.delta :=
        add_le_add_right (mul_le_mul_of_nonneg_right within delta_pos.le) _
      have used : (if tier.iterations < ceilDiv s.checksec tier.delta then
            s.charge tier tier.iterations
          else s.charge tier (ceilDiv s.checksec tier.delta)).billsec ≤
          s.billsec + tier.iterations * tier.delta := by
        split
        · exact charged _ le_rfl
        · rename_i fits
          exact charged _ (not_lt.mp fits)
      rw [capacity_cons]
      simp only [calcCprice2Loop, bounded tier List.mem_cons_self, if_false]
      split
      · omega
      split
      · omega
      · have := ih (if tier.iterations < ceilDiv s.checksec tier.delta then
            s.charge tier tier.iterations
          else s.charge tier (ceilDiv s.checksec tier.delta))
        omega

theorem readTiers_sells {tr : List CalcFunction} (sells : ∀ tier ∈ tr, tier.Sells) :
    ∀ tier ∈ readTiers tr, tier.Sells :=
  fun tier member => sells tier ((List.takeWhile_sublist _).subset member)

/-- What `calc_cprice_2` accepts. -/
theorem calcCprice2Totals_checksec {tr : List CalcFunction} (sells : ∀ tier ∈ tr, tier.Sells)
    (span : ℤ) : (calcCprice2Totals tr span).checksec ≤ 0 ↔ Covers (readTiers tr) span := by
  rw [calcCprice2Totals, ← calcCprice2Loop_readTiers]
  refine calcCprice2Loop_checksec (readTiers_sells sells) (fun tier member => ?_) _
  simpa using List.all_eq_true.mp List.all_takeWhile tier member

/-- The tiers that cover a call cover the seconds that it is billed. -/
theorem covers_billsec {tr : List CalcFunction} (sells : ∀ tier ∈ tr, tier.Sells) {span : ℤ} :
    Covers (readTiers tr) span →
      Covers (readTiers tr) (calcCprice2Totals tr span).billsec := by
  intro covers
  by_cases unbounded : ∃ tier ∈ readTiers tr, tier.iterations = 0
  · exact Or.inl unbounded
  · have billed := calcCprice2Loop_billsec (readTiers_sells sells)
      (fun tier member none_left => unbounded ⟨tier, member, none_left⟩) { checksec := span }
    rw [calcCprice2Loop_readTiers, zero_add] at billed
    exact Or.inr billed

/-! ## `rt_exec` on such a call -/

section Classic

variable {env : Env} {db : Db} {rtp : Racc} {tr : List CalcFunction}

/-- Saving never marks a call as failed. -/
theorem rtRatingSave_ratingId (unfailed : rtp.pre.ratingId ≠ -1) :
    (rtRatingSave env db rtp).1.pre.ratingId ≠ -1 := by
  have entered : (db.rating.next : ℤ) ≠ -1 := by omega
  have found : (0 : ℤ) ≠ -1 := by decide
  simp only [rtRatingSave, rtDataQRatingAdd]
  split
  · split
    · exact found
    · split
      · exact unfailed
      · exact entered
  · exact unfailed

/-- `calc_cprice_group` prices the calls that the tiers cover, and leaves the billed seconds. -/
theorem calcCpriceGroup_of_covers (tariff : rtp.bplan.calcFuncs = some tr)
    (sells : ∀ tier ∈ tr, tier.Sells) (covers : Covers (readTiers tr) rtp.pre.billsec) :
    ((calcCpriceGroup rtp).1 = 0 ∨
        (calcCpriceGroup rtp).1 = 1 ∧
          (calcCpriceGroup rtp).2.freeSec < (calcCpriceGroup rtp).2.pre.billsec) ∧
      (calcCpriceGroup rtp).2.pre.billsec = (calcCprice2Totals tr rtp.pre.billsec).billsec := by
  have priced : ¬ 0 < (calcCprice2Totals tr rtp.pre.billsec).checksec :=
    not_lt.mpr ((calcCprice2Totals_checksec sells _).mpr covers)
  rw [calcCpriceGroup_eq tariff rfl, if_neg priced]
  split
  · exact ⟨Or.inl rfl, rfl⟩
  split
  · exact ⟨Or.inl rfl, rfl⟩
  · rename_i crosses
    exact ⟨Or.inr ⟨rfl, not_le.mp crosses⟩, rfl⟩

/-- `calc_cprice_group` fails on the other calls. -/
theorem calcCpriceGroup_of_not_covers (tariff : rtp.bplan.calcFuncs = some tr)
    (sells : ∀ tier ∈ tr, tier.Sells) (outlasts : ¬ Covers (readTiers tr) rtp.pre.billsec) :
    (calcCpriceGroup rtp).1 = -1 := by
  have failed : 0 < (calcCprice2Totals tr rtp.pre.billsec).checksec :=
    not_le.mp ((calcCprice2Totals_checksec sells _).not.mpr outlasts)
  rw [calcCpriceGroup_eq tariff rfl, if_pos failed]

theorem rtDoubleRatingPaid_of_covers (tariff : rtp.bplan.calcFuncs = some tr)
    (sells : ∀ tier ∈ tr, tier.Sells) (covers : Covers (readTiers tr) rtp.pre.billsec)
    (unfailed : rtp.pre.ratingId ≠ -1) :
    (rtDoubleRatingPaid env db rtp).1 ≠ -1 ∧
      (rtDoubleRatingPaid env db rtp).2.1.pre.ratingId ≠ -1 := by
  have same := calcCpriceGroup_sameCall rtp
  have priced : (calcCpriceGroup rtp).1 ≠ -1 := by
    have := (calcCpriceGroup_of_covers tariff sells covers).1
    omega
  have saved : (0 : ℤ) ≠ -1 := by decide
  simp only [rtDoubleRatingPaid, priced, if_false]
  exact ⟨saved, rtRatingSave_ratingId (by rw [same.pre.ratingId]; exact unfailed)⟩

theorem fFreeBalIdQuery_billsec (pre : Rating) :
    (fFreeBalIdQuery env db pre).billsec = pre.billsec := by
  simp only [fFreeBalIdQuery]
  split <;> rfl

theorem freeBillsecExec_billsec (start stop : String) :
    (freeBillsecExec env db rtp start stop).1.pre.billsec = rtp.pre.billsec := by
  have summed (db : Db) (pre : Rating) :
      (fFreeBillsecBalQuery2 env db pre).billsec = pre.billsec := by
    simp only [fFreeBillsecBalQuery2]
    split <;> rfl
  have counted : (freeBillsecBalanceV2 env db rtp start stop).pre.billsec = rtp.pre.billsec := by
    simp only [freeBillsecBalanceV2]
    split <;> rfl
  simp only [freeBillsecExec, summed]
  split
  · rw [fFreeBalIdQuery_billsec, counted]
  · rw [createFreeBillsecBalance, fFreeBalIdQuery_billsec, fFreeBalIdQuery_billsec, counted]

/-- The charge between the two parts of a split leaves the seconds of the second one. -/
theorem rtDoubleRatingCharge_billsec :
    (rtDoubleRatingCharge env db rtp).1.pre.billsec = rtp.pre.billsec := by
  have charged (start stop : String) :
      (rtBalanceExec env db rtp start stop).1.pre = rtp.pre :=
    (rtBalanceExec_frame env db rtp start stop).1
  simp only [rtDoubleRatingCharge]
  split
  · rfl
  split
  · split
    · rw [freeBillsecExec_billsec, charged]
    · rw [charged]
  · rfl

/-- A split of a covered call never fails: neither part is longer than the call. -/
theorem rtDoubleRating_of_covers (tariff : rtp.bplan.calcFuncs = some tr)
    (sells : ∀ tier ∈ tr, tier.Sells) (covers : Covers (readTiers tr) rtp.pre.billsec)
    (crosses : rtp.freeSec < rtp.pre.billsec) (unfailed : rtp.pre.ratingId ≠ -1) :
    (rtDoubleRating env db rtp).1 ≠ -1 ∧
      (rtDoubleRating env db rtp).2.1.pre.ratingId ≠ -1 := by
  by_cases left : 0 < rtp.freeSec
  swap
  · simp only [rtDoubleRating, left, if_false]
    exact rtDoubleRatingPaid_of_covers tariff sells covers unfailed
  have tariff_free : (rtp.withBillsec rtp.freeSec).bplan.calcFuncs = some tr := tariff
  have priced := (calcCpriceGroup_of_covers tariff_free sells (covers.mono crosses.le)).1
  have same := (withBillsec_sameCall rtp.freeSec).trans
    (calcCpriceGroup_sameCall (rtp.withBillsec rtp.freeSec))
  simp only [rtDoubleRating, left, if_true]
  revert priced same
  rcases calcCpriceGroup (rtp.withBillsec rtp.freeSec) with ⟨ret, free⟩
  intro priced same
  have bplan : free.bplan = rtp.bplan := same.bplan
  have unfailed_free : free.pre.ratingId ≠ -1 := by
    rw [show free.pre.ratingId = rtp.pre.ratingId from same.pre.ratingId]
    exact unfailed
  rcases priced with whole | ⟨parts, -⟩
  · rw [show ret = 0 from whole]
    obtain ⟨ratingId, record⟩ :
        ∃ ratingId, (rtRatingSave env db free).1 = free.withRatingId ratingId := rtRatingSave_record
    have saved : (rtRatingSave env db free).1.pre.ratingId ≠ -1 :=
      rtRatingSave_ratingId unfailed_free
    let rest := (rtRatingSave env db free).1.withBillsec (rtp.pre.billsec - rtp.freeSec)
    have same_rest : rest.SameCall (rtDoubleRatingCharge env (rtRatingSave env db free).2 rest).1 :=
      rtDoubleRatingCharge_sameCall
    have tariff_rest : rest.bplan.calcFuncs = some tr := by
      simp only [rest, Racc.withBillsec, record, Racc.withRatingId, bplan, tariff]
    refine rtDoubleRatingPaid_of_covers (same_rest.bplan ▸ tariff_rest) sells ?_ ?_
    · rw [rtDoubleRatingCharge_billsec]
      exact covers.mono (sub_le_self _ left.le)
    · rw [same_rest.pre.ratingId]
      exact saved
  · have restart : (free.withBillsec rtp.pre.billsec).bplan.calcFuncs = some tr := by
      rw [Racc.withBillsec, bplan, tariff]
    rw [show ret = 1 from parts]
    exact rtDoubleRatingPaid_of_covers restart sells covers unfailed_free

/-- `rt_exec` prices a call exactly when the tiers of the tariff cover it. -/
theorem rtExecPrice_iff_covers (tariff : rtp.bplan.calcFuncs = some tr)
    (sells : ∀ tier ∈ tr, tier.Sells) (unfailed : rtp.pre.ratingId ≠ -1) :
    (rtExecPrice env db rtp).1.pre.ratingId ≠ -1 ↔ Covers (readTiers tr) rtp.pre.billsec := by
  simp only [rtExecPrice, tariff]
  by_cases covers : Covers (readTiers tr) rtp.pre.billsec
  swap
  · have failed := calcCpriceGroup_of_not_covers tariff sells covers
    simp only [failed]
    exact iff_of_false (not_not_intro rfl) covers
  refine iff_of_true ?_ covers
  obtain ⟨priced, billed⟩ := calcCpriceGroup_of_covers tariff sells covers
  have covers_billed := covers_billsec sells covers
  rw [← billed] at covers_billed
  have same := calcCpriceGroup_sameCall rtp
  have unfailed_priced : (calcCpriceGroup rtp).2.pre.ratingId ≠ -1 := by
    rw [same.pre.ratingId]
    exact unfailed
  rcases priced with whole | ⟨crossing, crosses⟩
  · simp only [whole, if_true]
    exact rtRatingSave_ratingId unfailed_priced
  · have doubled : (rtDoubleRating env db (calcCpriceGroup rtp).2).1 ≠ -1 ∧
        (rtDoubleRating env db (calcCpriceGroup rtp).2).2.1.pre.ratingId ≠ -1 :=
      rtDoubleRating_of_covers (same.bplan ▸ tariff) sells covers_billed crosses unfailed_priced
    simp only [crossing, afterDoubleRating, doubled.1, if_false]
    exact doubled.2

/-- The end of `rt_exec` keeps the id. -/
theorem rtExecSettle_ratingId (leg : Leg) :
    (rtExecSettle env db rtp leg).1.pre.ratingId = rtp.pre.ratingId := by
  simp only [rtExecSettle]
  split
  · rfl
  split
  · rfl
  split
  · split
    · exact ((rtBalanceExec_sameCall env _ rtp _ _).trans
        (freeBillsecExec_sameCall env _ _ _ _)).pre.ratingId
    · exact (rtBalanceExec_sameCall env _ rtp _ _).pre.ratingId
  · rfl

/-! ## The tariff of a loaded call -/

theorem rtDataQPrefix_tariff (rates : List Rate) (unset : rtp.pre.tariffId = 0)
    (unloaded : rtp.bplan.calcFuncs = none) :
    (rtDataQPrefix env rates rtp).bplan.calcFuncs =
      env.tariffRows (rtDataQPrefix env rates rtp).pre.tariffId := by
  induction rates generalizing rtp with
  | nil => simp [rtDataQPrefix, unset, unloaded, Env.tariffRows]
  | cons rate rest ih =>
      simp only [rtDataQPrefix]
      split
      · simp [unset, unloaded, Env.tariffRows]
      split
      · exact ih unset unloaded
      split
      · split
        · rw [(rtDataQTariff_frame env _).2.2.1]
          exact calcFuncs_rtDataQTariff unloaded
        · rename_i cleared
          exact ih (not_not.mp cleared) unloaded
      · exact ih unset unloaded

/-- The rate search leaves the rows of the tariff that it sets. -/
theorem rtRateSearching_tariff (unset : rtp.pre.tariffId = 0) :
    (rtRateSearching env db rtp).1.bplan.calcFuncs =
      env.tariffRows (rtRateSearching env db rtp).1.pre.tariffId := by
  have searched : (rtDataQRate env rtp).bplan.calcFuncs =
      env.tariffRows (rtDataQRate env rtp).pre.tariffId := by
    simp only [rtDataQRate]
    split
    · simp [unset, Env.tariffRows]
    · exact rtDataQPrefix_tariff _ unset rfl
  simp only [rtRateSearching]
  split
  · rename_i card _ _
    rcases rtPreratingProcess_cases env db (rtDataQRate env rtp) card with ⟨db', refused⟩ | loaded
    · rw [refused]
      exact searched
    · obtain ⟨freeBillsec, freeBillsecSum, pre_eq⟩ : ∃ freeBillsec freeBillsecSum,
          (rtPreratingLoad env db (rtDataQRate env rtp) card).pre =
            { (rtDataQRate env rtp).pre with freeBillsec, freeBillsecSum } :=
        rtPreratingLoad_pre env db _ card
      rw [loaded, (rtPreratingLoad_frame env db _ card).2.2, pre_eq]
      exact searched
  · exact searched

/-- The seconds of a call in `matched`: rounding replaces them unless it gives zero. -/
def matchedBillsec (roundModeId : ℕ) (billusec billsec : ℤ) : ℤ :=
  if roundModeId = 1 ∧ ceilDiv billusec 1000000 ≠ 0 then ceilDiv billusec 1000000
  else if roundModeId = 2 ∧ billusec / 1000000 ≠ 0 then billusec / 1000000
  else billsec

/-- Both engines round the seconds alike. -/
theorem rounded_billsec :
    rtp.rounded.pre.billsec =
      matchedBillsec rtp.bacc.roundModeId rtp.pre.billusec rtp.pre.billsec := by
  simp only [Racc.rounded, matchedBillsec]
  rcases round_eq : rtp.bacc.roundModeId with _ | _ | _ | mode
  · simp
  · by_cases zero : ceilDiv rtp.pre.billusec 1000000 = 0 <;>
      simp [roundBillsec, zero, Racc.withBillsec]
  · by_cases zero : rtp.pre.billusec / 1000000 = 0 <;>
      simp [roundBillsec, zero, Racc.withBillsec]
  · simp [roundBillsec]

/-- The record of `rt_exec` after `rt_rate_searching`. -/
def Racc.prerated (env : Env) (db : Db) (rtp : Racc) : Racc :=
  (rtRateSearching env db { rtp with bplan := rtChkBplanPeriods rtp.bplan rtp.pre.ts }).1

/-- Loading a call with a tariff rounds its seconds. -/
theorem rtExecLoad_of_tariff (tariff : (rtp.prerated env db).bplan.calcFuncs = some tr) :
    (rtExecLoad env db rtp).1.bplan.calcFuncs = some tr ∧
      (rtExecLoad env db rtp).1.pre.billsec =
        matchedBillsec (rtp.prerated env db).bacc.roundModeId
          (rtp.prerated env db).pre.billusec (rtp.prerated env db).pre.billsec := by
  have rounded_bplan : (rtp.prerated env db).rounded.bplan = (rtp.prerated env db).bplan := by
    simp only [Racc.rounded]
    split <;> split <;> rfl
  rw [← rounded_billsec, ← tariff, ← rounded_bplan]
  revert tariff
  simp only [Racc.prerated, rtExecLoad]
  rcases rtRateSearching env db { rtp with bplan := rtChkBplanPeriods rtp.bplan rtp.pre.ts } with
    ⟨searched, db'⟩
  intro tariff
  have sold : searched.bplan.calcFuncs ≠ none := by
    rw [show searched.bplan.calcFuncs = some tr from tariff]
    exact Option.some_ne_none tr
  simp only [sold, if_false]
  split
  · split
    · simp only [freeBillsecSmsBalance]
      split <;> exact ⟨rfl, rfl⟩
    · exact ⟨rfl, rfl⟩
  · exact ⟨rfl, rfl⟩

theorem rtExecLoad_of_no_tariff (tariff : (rtp.prerated env db).bplan.calcFuncs = none) :
    (rtExecLoad env db rtp).1.bplan.calcFuncs = none := by
  simp only [Racc.prerated] at tariff
  simp only [rtExecLoad, tariff, if_true]

/-- What `rt_exec` prices: a call whose tariff has rows that cover its rounded seconds. -/
theorem rtExec_iff_covers (unset : rtp.pre.tariffId = 0) (unfailed : rtp.pre.ratingId ≠ -1)
    (found : (rtp.prerated env db).pre.tariffId ≠ 0)
    (tariff : env.calcFunction (rtp.prerated env db).pre.tariffId = some tr)
    (sells : ∀ tier ∈ tr, tier.Sells) (leg : Leg) :
    (rtExec env db rtp leg).1.pre.ratingId ≠ -1 ↔
      tr ≠ [] ∧ Covers (readTiers tr)
        (matchedBillsec (rtp.prerated env db).bacc.roundModeId
          (rtp.prerated env db).pre.billusec (rtp.prerated env db).pre.billsec) := by
  have kept := (rtExecLoad_kept env db rtp).2.1.ratingId
  have rows : (rtp.prerated env db).bplan.calcFuncs =
      env.tariffRows (rtp.prerated env db).pre.tariffId := rtRateSearching_tariff unset
  simp only [rtExec, rtExecSettle_ratingId]
  by_cases sold : tr = []
  · have no_rows : (rtp.prerated env db).bplan.calcFuncs = none := by
      rw [rows, Env.tariffRows, if_neg found, tariff, sold]
      rfl
    simp only [rtExecPrice, rtExecLoad_of_no_tariff no_rows]
    exact iff_of_false (not_not_intro rfl) fun priced => priced.1 sold
  · rw [Env.tariffRows_eq_some found tariff sold] at rows
    obtain ⟨loaded, billsec_eq⟩ := rtExecLoad_of_tariff rows
    rw [rtExecPrice_iff_covers loaded sells (kept ▸ unfailed), billsec_eq]
    exact (and_iff_right sold).symm

end Classic

/-! ## The rows of the batch engine -/

section Batch

variable {calcFunction : ℕ → List CalcFunction} {hist : ℕ × ℕ × String → ℤ} {fb : List FbRow}

/-- The batch writes a rating row for the CDR. -/
def WritesRow (calcFunction : ℕ → List CalcFunction) (hist : ℕ × ℕ × String → ℤ)
    (fb : List FbRow) (cdrId : ℕ) : Prop :=
  ∃ row ∈ ratedBatch calcFunction hist fb, row.portion.call.cdrId = cdrId

instance (cdrId : ℕ) : Decidable (WritesRow calcFunction hist fb cdrId) :=
  inferInstanceAs (Decidable (∃ row ∈ _, _))

theorem mem_portions {pt : Portion} :
    pt ∈ portions hist fb ↔ ∃ call ∈ fb,
      (¬ call.HasAllowance ∧ ⟨call, .paid, call.billsec, 1, 0⟩ = pt) ∨
      (call.HasAllowance ∧ 0 < call.billsec - freeSec hist fb call ∧
        ⟨call, .paid, call.billsec - freeSec hist fb call, 1, 0⟩ = pt) ∨
      (call.HasAllowance ∧ 0 < freeSec hist fb call ∧
        ⟨call, .free, freeSec hist fb call, -1, call.fbid⟩ = pt) := by
  simp only [portions, List.mem_append, List.mem_map, List.mem_filter, decide_eq_true_eq]
  constructor
  · rintro ((⟨call, ⟨member, paid⟩, rfl⟩ | ⟨call, ⟨⟨member, allowed⟩, rest⟩, rfl⟩) |
      ⟨call, ⟨⟨member, allowed⟩, free⟩, rfl⟩)
    · exact ⟨call, member, Or.inl ⟨paid, rfl⟩⟩
    · exact ⟨call, member, Or.inr (Or.inl ⟨allowed, rest, rfl⟩)⟩
    · exact ⟨call, member, Or.inr (Or.inr ⟨allowed, free, rfl⟩)⟩
  · rintro ⟨call, member, ⟨paid, rfl⟩ | ⟨allowed, rest, rfl⟩ | ⟨allowed, free, rfl⟩⟩
    · exact Or.inl (Or.inl ⟨call, ⟨member, paid⟩, rfl⟩)
    · exact Or.inl (Or.inr ⟨call, ⟨⟨member, allowed⟩, rest⟩, rfl⟩)
    · exact Or.inr ⟨call, ⟨⟨member, allowed⟩, free⟩, rfl⟩

/-- A call has at most one portion of each kind. -/
theorem portions_key_nodup (distinct : (fb.map FbRow.cdrId).Nodup) :
    ((portions hist fb).map Portion.key).Nodup := by
  have keys (calls : List FbRow) (part : calls.Sublist fb) (kind : PortionKind) :
      (calls.map fun call => (call.cdrId, kind)).Nodup := by
    have := ((part.map FbRow.cdrId).nodup distinct).map
      (Prod.mk_left_injective kind : Function.Injective fun id => (id, kind))
    rwa [List.map_map] at this
  simp only [portions, List.map_append, List.map_map]
  refine List.nodup_append'.mpr ⟨List.nodup_append'.mpr ⟨?_, ?_, ?_⟩, ?_, ?_⟩
  · exact keys _ List.filter_sublist .paid
  · exact keys _ (List.filter_sublist.trans List.filter_sublist) .paid
  · intro key first second
    obtain ⟨call, call_mem, rfl⟩ := List.mem_map.mp first
    obtain ⟨other, other_mem, same⟩ := List.mem_map.mp second
    obtain ⟨other_fb, allowed⟩ := List.mem_filter.mp (List.mem_of_mem_filter other_mem)
    obtain ⟨call_fb, not_allowed⟩ := List.mem_filter.mp call_mem
    obtain rfl : other = call :=
      List.inj_on_of_nodup_map distinct other_fb call_fb (congrArg Prod.fst same)
    exact absurd (of_decide_eq_true allowed) (of_decide_eq_true not_allowed)
  · exact keys _ (List.filter_sublist.trans List.filter_sublist) .free
  · intro key first second
    obtain ⟨call, -, rfl⟩ := List.mem_map.mp second
    simp [Portion.key] at first

theorem call_mem_of_mem_portions {pt : Portion} (member : pt ∈ portions hist fb) :
    pt.call ∈ fb := by
  obtain ⟨call, call_mem, ⟨-, rfl⟩ | ⟨-, -, rfl⟩ | ⟨-, -, rfl⟩⟩ := mem_portions.mp member
  · exact call_mem
  · exact call_mem
  · exact call_mem

/-- A call has a portion unless it has no seconds and its tariff has free ones. -/
theorem exists_portion_iff {call : FbRow} (member : call ∈ fb) :
    (∃ pt ∈ portions hist fb, pt.call = call) ↔ (call.HasAllowance → 0 < call.billsec) := by
  have clamped : freeSec hist fb call = 0 ∨ freeSec hist fb call ≤ call.billsec := by
    unfold freeSec
    omega
  constructor
  · rintro ⟨pt, pt_mem, rfl⟩ allowed
    obtain ⟨call, -, ⟨paid, rfl⟩ | ⟨-, rest, rfl⟩ | ⟨-, free, rfl⟩⟩ := mem_portions.mp pt_mem
    · exact absurd allowed paid
    · have : 0 ≤ freeSec hist fb call := le_max_left _ _
      simp only at *
      omega
    · simp only at *
      omega
  · intro seconds
    by_cases allowed : call.HasAllowance
    swap
    · exact ⟨_, mem_portions.mpr ⟨call, member, Or.inl ⟨allowed, rfl⟩⟩, rfl⟩
    by_cases free : 0 < freeSec hist fb call
    · exact ⟨_, mem_portions.mpr ⟨call, member, Or.inr (Or.inr ⟨allowed, free, rfl⟩)⟩, rfl⟩
    · have rest : 0 < call.billsec - freeSec hist fb call := by
        have := seconds allowed
        omega
      exact ⟨_, mem_portions.mpr ⟨call, member, Or.inr (Or.inl ⟨allowed, rest, rfl⟩)⟩, rfl⟩

/-- The batch writes a row for a matched call that has a portion and a tariff with a row at
position 1. -/
theorem writesRow_iff (distinct : (fb.map FbRow.cdrId).Nodup) {call : FbRow} (member : call ∈ fb) :
    WritesRow calcFunction hist fb call.cdrId ↔
      (∃ cf ∈ calcFunction call.tariffId, cf.pos = 1) ∧ (call.HasAllowance → 0 < call.billsec) := by
  have own {pt : Portion} (pt_mem : pt ∈ portions hist fb) (same : pt.call.cdrId = call.cdrId) :
      pt.call = call :=
    List.inj_on_of_nodup_map distinct (call_mem_of_mem_portions pt_mem) member same
  have keys : ((portions hist fb).map Portion.key).Nodup := portions_key_nodup distinct
  have portion : (∃ pt ∈ portions hist fb, pt.call = call) ↔
      (call.HasAllowance → 0 < call.billsec) := exists_portion_iff member
  rw [← portion]
  constructor
  · rintro ⟨row, row_mem, same⟩
    obtain ⟨pt, pt_mem, row_eq⟩ := List.mem_filterMap.mp row_mem
    obtain ⟨last, last_eq, rfl⟩ := Option.map_eq_some_iff.mp row_eq
    have first := (finalRow_isSome_iff keys pt_mem).mp (Option.isSome_of_eq_some last_eq)
    rw [own pt_mem same] at first
    exact ⟨first, pt, pt_mem, own pt_mem same⟩
  · rintro ⟨first, pt, pt_mem, rfl⟩
    obtain ⟨last, last_eq⟩ :=
      Option.isSome_iff_exists.mp ((finalRow_isSome_iff keys pt_mem).mpr first)
    refine ⟨⟨pt, last.bsec, pt.sgn * last.price⟩, List.mem_filterMap.mpr ⟨pt, pt_mem, ?_⟩, rfl⟩
    simp only [last_eq, Option.map_some]

end Batch

/-! ## Parity -/

/-- A call of the batch is the call of the record: the same CDR, the tariff that the rate search
found, and the rounded seconds. -/
structure FbRow.IsCallOf (call : FbRow) (env : Env) (db : Db) (rtp : Racc) : Prop where
  cdrId : call.cdrId = rtp.pre.cdrId
  tariffId : call.tariffId = (rtp.prerated env db).pre.tariffId
  found : call.tariffId ≠ 0
  billsec : call.billsec =
    matchedBillsec (rtp.prerated env db).bacc.roundModeId (rtp.prerated env db).pre.billusec
      (rtp.prerated env db).pre.billsec

/-- The tariffs and calls on which the engines agree.  With a tier at position 1, the tiers cover
the call, and a call on a tariff with free seconds has at least one second.  Without one, the tariff
is empty or the classic walk refuses the call as well. -/
def AcceptedAlike (tr : List CalcFunction) (call : FbRow) : Prop :=
  if ∃ tier ∈ tr, tier.pos = 1 then
    Covers (readTiers tr) call.billsec ∧ (call.HasAllowance → 0 < call.billsec)
  else tr = [] ∨ ¬ Covers (readTiers tr) call.billsec

/-- Ten minutes at one unit of money each, and nothing after them. -/
def tenMinutes : List CalcFunction := [⟨1, 60, 1, 10⟩]

/-- A call on that tariff. -/
def tenMinutesCall (billsec : ℤ) : Job :=
  { freeSecondsCall 0 1 "100" billsec with
    env := { freeSecondsEnv 0 with calcFunction := fun _ => some tenMinutes }
    reliable := fun _ => rfl }

/-- The call in the batch. -/
def tenMinutesRow (billsec : ℤ) : FbRow :=
  ⟨1, billsec, "2024-03-04 10:00:00", 1, 1, 1, 1, 0, 1, 0, 0, "2024-03-01"⟩

theorem tenMinutesRow_isCallOf :
    (tenMinutesCall 300).record = some (freeSecondsRecord 1 300) ∧
      (tenMinutesRow 300).IsCallOf (tenMinutesCall 300).env {} (freeSecondsRecord 1 300) :=
  ⟨by decide +kernel, by decide +kernel, by decide +kernel, by decide, by decide +kernel⟩

end RateEngine
