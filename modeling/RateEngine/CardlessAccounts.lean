import RateEngine.RatingRefinement

/-!
# Accounts without a usable card

`pcard_manager` leaves the card of an account null when none is active or none covers the call.
`rt_exec` and `rt_double_rating` ask for the card before they charge it; `rt_data_q_rating_add_sql`
reads its id unasked.  This file follows the pointers of `rt_exec`: a run has no result when it
reads through a null pointer.
-/

namespace RateEngine

/-! ## `rt_exec` with its pointers -/

section Pointers

variable (env : Env) (db : Db) (rtp : Racc)

/-- `calc_cprice_group` reads the tariff. -/
def calcCpriceGroup? : Option (ℤ × Racc) :=
  rtp.bplan.calcFuncs.map fun _ => calcCpriceGroup rtp

/-- `rt_data_q_rating_add_sql` reads `pcard_ptr->id`. -/
def rtDataQRatingAdd? : Option (Racc × Db) :=
  rtp.bacc.pcardPtr.map fun _ => rtDataQRatingAdd env db rtp

/-- `rt_rating_save`. -/
def rtRatingSave? : Option (Racc × Db) :=
  if 0 < rtp.pre.cdrId then rtDataQRatingAdd? env db rtp else some (rtp, db)

/-- `rt_double_rating` from the label `no_free_billsec` on. -/
def rtDoubleRatingPaid? : Option (ℤ × Racc × Db) := do
  let (ret, rtp) ← calcCpriceGroup? rtp
  if ret = -1 then some (-1, rtp, db)
  else (rtRatingSave? env db rtp).map fun (rtp, db) => (0, rtp, db)

/-- `rt_double_rating`; between the parts it asks for the card. -/
def rtDoubleRating? : Option (ℤ × Racc × Db) :=
  if 0 < rtp.freeSec then do
    let noFreeSec := rtp.pre.billsec - rtp.freeSec
    let (ret, free) ← calcCpriceGroup? (rtp.withBillsec rtp.freeSec)
    if ret = 0 then do
      let (free, db) ← rtRatingSave? env db free
      let (rest, db) := rtDoubleRatingCharge env db (free.withBillsec noFreeSec)
      rtDoubleRatingPaid? env db rest
    else if ret = 1 then rtDoubleRatingPaid? env db (free.withBillsec rtp.pre.billsec)
    else some (-1, free, db)
  else rtDoubleRatingPaid? env db rtp

/-- The `switch` of `rt_exec`. -/
def rtExecPrice? : Option (Racc × Db) :=
  match rtp.bplan.calcFuncs with
  | none => some (rtp.withRatingId (-1), db)
  | some _ => do
      let (ret, rtp) ← calcCpriceGroup? rtp
      if ret = 0 then rtRatingSave? env db rtp
      else if ret = 1 then (rtDoubleRating? env db rtp).map afterDoubleRating
      else some (rtp.withRatingId (-1), db)

/-- `rt_exec`; the rate search asks for rates and card, the end asks for the card. -/
def rtExec? (leg : Leg) : Option (Racc × Db) :=
  match rtExecLoad env db rtp with
  | (rtp, db) => (rtExecPrice? env db rtp).map fun (rtp, db) => rtExecSettle env db rtp leg

end Pointers

/-- `rt_main`. -/
def rtMain? (env : Env) (db : Db) (leg : Leg) (recType : CdrRecType) (pre : Rating) : Option Db :=
  match rtMainRecord env leg recType pre with
  | none => some db
  | some rtp => (rtExec? env db rtp leg).map Prod.snd

/-! ## What the claim asks for -/

/-- A call without a card is rated safely: no balance changes, and when it is priced and has no row
it gets one with card id `0`. -/
def CardlessRow (before after : Db) (loaded : Racc) : Prop :=
  after.balance = before.balance ∧
    (loaded.plan ≠ .unrated → before.books.Admits loaded →
      ∃ row ∈ after.rating.select
        (RatingRow.isOf loaded.pre.cdrId loaded.bacc.id loaded.pre.rateId),
        row.2.pcardId = 0)

/-- Offline rating of a CDR reads through no null pointer, and rates an account without a usable
card without it. -/
def RatesSafely (env : Env) (db : Db) (leg : Leg) (cdr : Cdr) : Prop :=
  ∃ after, rtMain? env db leg cdr.recType (rtCdrToRating env cdr) = some after ∧
    ∀ rtp ∈ rtMainRecord env leg cdr.recType (rtCdrToRating env cdr), rtp.bacc.pcardPtr = none →
      CardlessRow db after (rtExecLoad env db rtp).1

/-- The CDR is not looked up, is no stored one, has a usable card, or gets no price. -/
def NeedsNoCard (env : Env) (db : Db) (leg : Leg) (cdr : Cdr) : Prop :=
  ∀ rtp ∈ rtMainRecord env leg cdr.recType (rtCdrToRating env cdr),
    cdr.id = 0 ∨ rtp.bacc.pcardPtr ≠ none ∨ (rtExecLoad env db rtp).1.plan = .unrated

/-! ## Runs that need no card -/

/-- A row of the call is no stored one, or there is a card for it. -/
def Racc.RowSafe (rtp : Racc) : Prop := rtp.bacc.pcardPtr ≠ none ∨ rtp.pre.cdrId = 0

instance (rtp : Racc) : Decidable rtp.RowSafe := inferInstanceAs (Decidable (_ ∨ _))

theorem Racc.SameCall.rowSafe_iff {rtp rtp' : Racc} (same : rtp.SameCall rtp') :
    rtp'.RowSafe ↔ rtp.RowSafe := by
  rw [Racc.RowSafe, Racc.RowSafe, same.bacc, same.pre.cdrId]

section Safe

variable (env : Env) (db : Db) {rtp : Racc}

theorem rtRatingSave?_of_safe (safe : rtp.RowSafe) :
    rtRatingSave? env db rtp = some (rtRatingSave env db rtp) := by
  rw [rtRatingSave?, rtRatingSave, rtDataQRatingAdd?]
  rcases safe with card | unstored
  · obtain ⟨held, card_eq⟩ := Option.ne_none_iff_exists'.mp card
    rw [card_eq, Option.map_some]
    split <;> rfl
  · rw [if_neg unstored.not_gt, if_neg unstored.not_gt]

/-- Saving a row changes the rating id only. -/
theorem rtRatingSave_frame (rtp : Racc) : ∃ ratingId,
    (rtRatingSave env db rtp).1 = rtp.withRatingId ratingId := by
  simp only [rtRatingSave, rtDataQRatingAdd]
  split
  · split
    · exact ⟨0, rfl⟩
    · split
      · exact ⟨rtp.pre.ratingId, rfl⟩
      · exact ⟨db.rating.next, rfl⟩
  · exact ⟨rtp.pre.ratingId, rfl⟩

theorem rtDoubleRatingPaid?_of_safe {tr : List CalcFunction}
    (tariff : rtp.bplan.calcFuncs = some tr) (safe : rtp.RowSafe) :
    rtDoubleRatingPaid? env db rtp = some (rtDoubleRatingPaid env db rtp) := by
  have same := calcCpriceGroup_sameCall rtp
  rw [rtDoubleRatingPaid?, rtDoubleRatingPaid, calcCpriceGroup?, tariff, Option.map_some]
  rcases priced_eq : calcCpriceGroup rtp with ⟨ret, priced⟩
  rw [priced_eq] at same
  have saves := rtRatingSave?_of_safe env db (same.rowSafe_iff.mpr safe)
  simp only [Option.bind_eq_bind, Option.bind_some, saves, Option.map_some]
  split <;> rfl

theorem rtDoubleRating?_of_safe {tr : List CalcFunction}
    (tariff : rtp.bplan.calcFuncs = some tr) (safe : rtp.RowSafe) :
    rtDoubleRating? env db rtp = some (rtDoubleRating env db rtp) := by
  rw [rtDoubleRating?, rtDoubleRating]
  by_cases left : 0 < rtp.freeSec
  swap
  · rw [if_neg left, if_neg left]
    exact rtDoubleRatingPaid?_of_safe env db tariff safe
  have same := calcCpriceGroup_sameCall (rtp.withBillsec rtp.freeSec)
  have tariff_free : (rtp.withBillsec rtp.freeSec).bplan.calcFuncs = some tr := tariff
  rw [if_pos left, if_pos left, calcCpriceGroup?, tariff_free, Option.map_some]
  rcases free_eq : calcCpriceGroup (rtp.withBillsec rtp.freeSec) with ⟨ret, free⟩
  rw [free_eq] at same
  have free_safe : free.RowSafe := same.rowSafe_iff.mpr safe
  have free_tariff : free.bplan.calcFuncs = some tr := by
    rw [same.bplan]
    exact tariff
  simp only [Option.bind_eq_bind, Option.bind_some, rtRatingSave?_of_safe env db free_safe]
  by_cases priced : ret = 0
  · rw [if_pos priced, if_pos priced]
    obtain ⟨ratingId, saved_eq⟩ := rtRatingSave_frame env db free
    rcases save_eq : rtRatingSave env db free with ⟨saved, db'⟩
    rw [save_eq] at saved_eq
    obtain rfl : saved = free.withRatingId ratingId := saved_eq
    have charged : ((free.withRatingId ratingId).withBillsec
        (rtp.pre.billsec - rtp.freeSec)).SameCall (rtDoubleRatingCharge env db'
          ((free.withRatingId ratingId).withBillsec (rtp.pre.billsec - rtp.freeSec))).1 :=
      rtDoubleRatingCharge_sameCall
    have rest_tariff := congrArg Bplan.calcFuncs charged.bplan
    exact rtDoubleRatingPaid?_of_safe env _ (rest_tariff.trans free_tariff)
      (charged.rowSafe_iff.mpr free_safe)
  rw [if_neg priced, if_neg priced]
  split
  · exact rtDoubleRatingPaid?_of_safe env db free_tariff free_safe
  · rfl

theorem rtExecPrice?_of_safe (safe : rtp.RowSafe) :
    rtExecPrice? env db rtp = some (rtExecPrice env db rtp) := by
  rw [rtExecPrice?, rtExecPrice]
  cases tariff : rtp.bplan.calcFuncs with
  | none => rfl
  | some tr =>
      have same := calcCpriceGroup_sameCall rtp
      rw [calcCpriceGroup?, tariff, Option.map_some]
      rcases priced_eq : calcCpriceGroup rtp with ⟨ret, priced⟩
      rw [priced_eq] at same
      have priced_safe : priced.RowSafe := same.rowSafe_iff.mpr safe
      have priced_tariff : priced.bplan.calcFuncs = some tr := by
        rw [same.bplan]
        exact tariff
      simp only [Option.bind_eq_bind, Option.bind_some, rtRatingSave?_of_safe env db priced_safe,
        rtDoubleRating?_of_safe env db priced_tariff priced_safe, Option.map_some]
      split
      · rfl
      · split <;> rfl

end Safe

/-! ## Runs that need a card -/

section Needed

variable (env : Env) (db : Db) {rtp : Racc} (needed : ¬ rtp.RowSafe)
include needed

theorem rtRatingSave?_of_needed : rtRatingSave? env db rtp = none := by
  obtain ⟨card, stored⟩ := not_or.mp needed
  rw [rtRatingSave?, if_pos (Nat.pos_of_ne_zero stored), rtDataQRatingAdd?, not_not.mp card,
    Option.map_none]

/-- A price is followed by a row. -/
theorem rtDoubleRatingPaid?_of_needed {tr : List CalcFunction}
    (tariff : rtp.bplan.calcFuncs = some tr) {totals : CpriceTotals}
    (priced : calcCprice2Totals tr rtp.pre.billsec = totals) :
    rtDoubleRatingPaid? env db rtp =
      if 0 < totals.checksec then some (rtDoubleRatingPaid env db rtp) else none := by
  have saves (cprice : ℚ) (billsec : ℤ) :
      rtRatingSave? env db (rtp.withPrice cprice billsec) = none :=
    rtRatingSave?_of_needed env db needed
  rw [rtDoubleRatingPaid?, rtDoubleRatingPaid, calcCpriceGroup?, tariff, Option.map_some,
    calcCpriceGroup_eq tariff priced]
  split
  · rfl
  split
  · simp [saves]
  split <;> simp [saves]

/-- Of a call that crosses the end of its allowance. -/
theorem rtDoubleRating?_of_needed {tr : List CalcFunction} (tariff : rtp.bplan.calcFuncs = some tr)
    (allowance : rtp.HasAllowance) {free again : CpriceTotals}
    (free_eq : calcCprice2Totals tr rtp.freeSec = free)
    (again_eq : calcCprice2Totals tr rtp.pre.billsec = again) :
    rtDoubleRating? env db rtp =
      if 0 < free.checksec ∨ ¬ free.billsec ≤ rtp.freeSec ∧ 0 < again.checksec then
        some (rtDoubleRating env db rtp)
      else none := by
  have saves (cprice : ℚ) (billsec : ℤ) :
      rtRatingSave? env db (rtp.withPrice cprice billsec) = none :=
    rtRatingSave?_of_needed env db needed
  have tariff_free : (rtp.withBillsec rtp.freeSec).bplan.calcFuncs = some tr := tariff
  have group := calcCpriceGroup_freeSec tariff allowance free_eq
  simp only [rtDoubleRating?, rtDoubleRating, allowance.2, if_true, calcCpriceGroup?, tariff_free,
    Option.map_some, group]
  by_cases failed : 0 < free.checksec
  · simp [failed]
  by_cases within : free.billsec ≤ rtp.freeSec
  · simp [failed, within, saves]
  have whole_tariff : ((rtp.withPrice free.cprice free.billsec).withBillsec
      rtp.pre.billsec).bplan.calcFuncs = some tr := tariff
  have whole_needed : ¬ ((rtp.withPrice free.cprice free.billsec).withBillsec
      rtp.pre.billsec).RowSafe := needed
  have paid := rtDoubleRatingPaid?_of_needed env db whole_needed whole_tariff again_eq
  simp [failed, within, paid]

/-- A call that needs a card is priced exactly when it gets no row. -/
theorem rtExecPrice?_of_needed :
    rtExecPrice? env db rtp =
      if rtp.plan = .unrated then some (rtExecPrice env db rtp) else none := by
  have saves (cprice : ℚ) (billsec : ℤ) :
      rtRatingSave? env db (rtp.withPrice cprice billsec) = none :=
    rtRatingSave?_of_needed env db needed
  rw [rtExecPrice?, rtExecPrice]
  cases tariff : rtp.bplan.calcFuncs with
  | none =>
      have unrated : rtp.plan = .unrated := by rw [Racc.plan, tariff]
      rw [if_pos unrated]
  | some tr =>
      obtain ⟨call, call_eq⟩ : ∃ call, calcCprice2Totals tr rtp.pre.billsec = call := ⟨_, rfl⟩
      rw [calcCpriceGroup?, tariff, Option.map_some, calcCpriceGroup_eq tariff call_eq]
      by_cases failed : 0 < call.checksec
      · have unrated : rtp.plan = .unrated := by simp [Racc.plan, tariff, call_eq, failed]
        simp [unrated, failed]
      by_cases allowance : rtp.HasAllowance
      swap
      · have rated : rtp.plan ≠ .unrated := by
          simp [Racc.plan, tariff, call_eq, failed, allowance]
        simp [rated, failed, allowance, saves]
      by_cases within : call.billsec ≤ rtp.freeSec
      · have rated : rtp.plan ≠ .unrated := by
          simp [Racc.plan, tariff, call_eq, failed, allowance, within]
        simp [rated, failed, allowance, within, saves]
      -- the call crosses the end of the allowance
      obtain ⟨free, free_eq⟩ : ∃ free, calcCprice2Totals tr rtp.freeSec = free := ⟨_, rfl⟩
      obtain ⟨again, again_eq⟩ : ∃ again, calcCprice2Totals tr call.billsec = again := ⟨_, rfl⟩
      have needed' : ¬ (rtp.withPrice call.cprice call.billsec).RowSafe := needed
      have crossing : rtDoubleRating? env db (rtp.withPrice call.cprice call.billsec) =
          if 0 < free.checksec ∨ ¬ free.billsec ≤ rtp.freeSec ∧ 0 < again.checksec then
            some (rtDoubleRating env db (rtp.withPrice call.cprice call.billsec))
          else none :=
        rtDoubleRating?_of_needed env db needed' tariff allowance free_eq again_eq
      simp only [failed, allowance, within, if_true, if_false, not_true_eq_false,
        Option.bind_eq_bind, Option.bind_some, one_ne_zero, crossing]
      by_cases unpriced : 0 < free.checksec ∨ ¬ free.billsec ≤ rtp.freeSec ∧ 0 < again.checksec
      · have unrated : rtp.plan = .unrated := by
          simp only [Racc.plan, tariff, call_eq, free_eq, again_eq, if_neg failed,
            if_neg (not_not_intro allowance), if_neg within]
          rcases unpriced with free_failed | ⟨beyond, again_failed⟩
          · rw [if_pos free_failed]
          · rw [if_neg beyond, if_pos again_failed, ite_self]
        rw [if_pos unrated, if_pos unpriced, Option.map_some]
      · have rated : rtp.plan ≠ .unrated := by
          obtain ⟨free_ended, again_ended⟩ := not_or.mp unpriced
          simp only [Racc.plan, tariff, call_eq, free_eq, again_eq, if_neg failed,
            if_neg (not_not_intro allowance), if_neg within, if_neg free_ended]
          split
          · exact Plan.noConfusion
          · rename_i beyond
            rw [if_neg fun again_failed => again_ended ⟨beyond, again_failed⟩]
            split <;> exact Plan.noConfusion
        rw [if_neg rated, if_neg unpriced, Option.map_none]

end Needed

/-! ## Balances of accounts without a card -/

section Balance

variable (env : Env) (db : Db) (rtp : Racc)

theorem rtRatingSave_balance : (rtRatingSave env db rtp).2.balance = db.balance := by
  simp only [rtRatingSave, rtDataQRatingAdd]
  split
  · split
    · rfl
    · split <;> rfl
  · rfl

theorem rtDoubleRatingPaid_frame :
    (rtDoubleRatingPaid env db rtp).2.1.bacc = rtp.bacc ∧
      (rtDoubleRatingPaid env db rtp).2.2.balance = db.balance := by
  have same := calcCpriceGroup_sameCall rtp
  simp only [rtDoubleRatingPaid]
  split
  · exact ⟨same.bacc, rfl⟩
  · obtain ⟨ratingId, saved_eq⟩ := rtRatingSave_frame env db (calcCpriceGroup rtp).2
    refine ⟨?_, rtRatingSave_balance env db _⟩
    rw [saved_eq]
    exact same.bacc

theorem rtDoubleRating_frame (cardless : rtp.bacc.pcardPtr = none) :
    (rtDoubleRating env db rtp).2.1.bacc = rtp.bacc ∧
      (rtDoubleRating env db rtp).2.2.balance = db.balance := by
  simp only [rtDoubleRating]
  split
  · have same := calcCpriceGroup_sameCall (rtp.withBillsec rtp.freeSec)
    rcases free_eq : calcCpriceGroup (rtp.withBillsec rtp.freeSec) with ⟨ret, free⟩
    rw [free_eq] at same
    have free_bacc : free.bacc = rtp.bacc := same.bacc
    dsimp only
    split
    · obtain ⟨ratingId, saved_eq⟩ := rtRatingSave_frame env db free
      have uncharged : rtDoubleRatingCharge env (rtRatingSave env db free).2
          ((rtRatingSave env db free).1.withBillsec (rtp.pre.billsec - rtp.freeSec)) =
            ((rtRatingSave env db free).1.withBillsec (rtp.pre.billsec - rtp.freeSec),
              (rtRatingSave env db free).2) := by
        have no_card : ((rtRatingSave env db free).1.withBillsec
            (rtp.pre.billsec - rtp.freeSec)).bacc.pcardPtr = none := by
          rw [saved_eq]
          exact (congrArg Bacc.pcardPtr free_bacc).trans cardless
        rw [rtDoubleRatingCharge, no_card]
      rw [uncharged]
      obtain ⟨paid_bacc, paid_balance⟩ := rtDoubleRatingPaid_frame env (rtRatingSave env db free).2
        ((rtRatingSave env db free).1.withBillsec (rtp.pre.billsec - rtp.freeSec))
      refine ⟨paid_bacc.trans ?_, paid_balance.trans (rtRatingSave_balance env db free)⟩
      rw [saved_eq]
      exact free_bacc
    split
    · obtain ⟨paid_bacc, paid_balance⟩ := rtDoubleRatingPaid_frame env db
        (free.withBillsec rtp.pre.billsec)
      exact ⟨paid_bacc.trans free_bacc, paid_balance⟩
    · exact ⟨free_bacc, rfl⟩
  · exact rtDoubleRatingPaid_frame env db rtp

theorem rtExecPrice_frame (cardless : rtp.bacc.pcardPtr = none) :
    (rtExecPrice env db rtp).1.bacc = rtp.bacc ∧
      (rtExecPrice env db rtp).2.balance = db.balance := by
  simp only [rtExecPrice]
  cases rtp.bplan.calcFuncs with
  | none => exact ⟨rfl, rfl⟩
  | some tr =>
      have same := calcCpriceGroup_sameCall rtp
      rcases priced_eq : calcCpriceGroup rtp with ⟨ret, priced⟩
      rw [priced_eq] at same
      have priced_bacc : priced.bacc = rtp.bacc := same.bacc
      dsimp only
      split
      · obtain ⟨ratingId, saved_eq⟩ := rtRatingSave_frame env db priced
        refine ⟨?_, rtRatingSave_balance env db priced⟩
        rw [saved_eq]
        exact priced_bacc
      split
      · obtain ⟨double_bacc, double_balance⟩ := rtDoubleRating_frame env db priced
          ((congrArg Bacc.pcardPtr priced_bacc).trans cardless)
        simp only [afterDoubleRating]
        split
        · exact ⟨double_bacc.trans priced_bacc, double_balance⟩
        · exact ⟨double_bacc.trans priced_bacc, double_balance⟩
      · exact ⟨priced_bacc, rfl⟩

/-- Without a card no balance changes. -/
theorem rtExec_balance (leg : Leg) (cardless : rtp.bacc.pcardPtr = none) :
    (rtExec env db rtp leg).2.balance = db.balance := by
  obtain ⟨bacc_eq, -, books_eq⟩ := rtExecLoad_kept env db rtp
  rw [rtExec]
  rcases loaded_eq : rtExecLoad env db rtp with ⟨loaded, db'⟩
  rw [loaded_eq] at bacc_eq books_eq
  have loaded_cardless : loaded.bacc.pcardPtr = none :=
    (congrArg Bacc.pcardPtr bacc_eq).trans cardless
  have db_balance : db'.balance = db.balance := congrArg Books.balance books_eq
  obtain ⟨priced_bacc, priced_balance⟩ := rtExecPrice_frame env db' loaded loaded_cardless
  have marked (ratingId : ℤ) (cdrId : ℕ) :
      (cdrUpdateCdr env (rtExecPrice env db' loaded).2 ratingId cdrId leg).balance =
        (rtExecPrice env db' loaded).2.balance := by
    simp only [cdrUpdateCdr, Env.exec]
    split
    · split <;> rfl
    · rfl
  have no_card : (rtExecPrice env db' loaded).1.bacc.pcardPtr = none :=
    (congrArg Bacc.pcardPtr priced_bacc).trans loaded_cardless
  dsimp only
  simp only [rtExecSettle, no_card]
  split
  · rw [marked, priced_balance, db_balance]
  · rw [marked, priced_balance, db_balance]

end Balance

/-! ## Safe rating -/

/-- The run of `rt_exec` on a call without a usable card has a result exactly when it gets no row or
is no stored one. -/
theorem rtExec?_eq (env : Env) (db : Db) (rtp : Racc) (leg : Leg) :
    rtExec? env db rtp leg =
      if rtp.RowSafe ∨ (rtExecLoad env db rtp).1.plan = .unrated then some (rtExec env db rtp leg)
      else none := by
  obtain ⟨bacc_eq, kept, -⟩ := rtExecLoad_kept env db rtp
  rw [rtExec?, rtExec]
  have safe_iff : (rtExecLoad env db rtp).1.RowSafe ↔ rtp.RowSafe := by
    rw [Racc.RowSafe, Racc.RowSafe, bacc_eq, kept.cdrId]
  rcases loaded_eq : rtExecLoad env db rtp with ⟨loaded, db'⟩
  rw [loaded_eq] at safe_iff
  dsimp only at safe_iff ⊢
  by_cases safe : loaded.RowSafe
  · rw [rtExecPrice?_of_safe env db' safe, if_pos (.inl (safe_iff.mp safe)), Option.map_some]
  · rw [rtExecPrice?_of_needed env db' safe]
    by_cases unrated : loaded.plan = .unrated
    · rw [if_pos unrated, if_pos (.inr unrated), Option.map_some]
    · rw [if_neg unrated, if_neg (not_or.mpr ⟨fun held => safe (safe_iff.mpr held), unrated⟩),
        Option.map_none]

/-- Offline rating of a CDR is safe exactly when it needs no card that is absent. -/
theorem ratesSafely_iff_needsNoCard (env : Env) (db : Db) (leg : Leg) (cdr : Cdr) :
    RatesSafely env db leg cdr ↔ NeedsNoCard env db leg cdr := by
  rw [RatesSafely, NeedsNoCard, rtMain?]
  cases record : rtMainRecord env leg cdr.recType (rtCdrToRating env cdr) with
  | none => simp
  | some rtp =>
      obtain ⟨-, mode, pre_eq⟩ := rtMainRecord_frame record
      have cdrId_eq : rtp.pre.cdrId = cdr.id := by rw [pre_eq]; rfl
      have safe_iff : rtp.RowSafe ∨ (rtExecLoad env db rtp).1.plan = .unrated ↔
          cdr.id = 0 ∨ rtp.bacc.pcardPtr ≠ none ∨ (rtExecLoad env db rtp).1.plan = .unrated := by
        rw [Racc.RowSafe, cdrId_eq, or_comm (a := rtp.bacc.pcardPtr ≠ none), or_assoc]
      simp only [Option.mem_def, Option.some.injEq, forall_eq']
      rw [rtExec?_eq, ← safe_iff]
      by_cases safe : rtp.RowSafe ∨ (rtExecLoad env db rtp).1.plan = .unrated
      · rw [if_pos safe]
        refine iff_of_true
          ⟨_, rfl, fun cardless => ⟨rtExec_balance env db rtp leg cardless, ?_⟩⟩ safe
        intro rated admits
        obtain ⟨-, kept, -⟩ := rtExecLoad_kept env db rtp
        have stored := admits.1
        rw [kept.cdrId] at stored
        rcases safe with safe | unrated
        · rcases safe with card | unstored
          · exact absurd cardless card
          · exact absurd unstored stored.ne'
        · exact absurd unrated rated
      · rw [if_neg safe]
        refine iff_of_false ?_ safe
        rintro ⟨after, crashed, -⟩
        cases crashed

/-- A number of an account that has no cards, with one rate for every number. -/
def cardlessEnv : Env :=
  { freeSecondsEnv 0 with pcard := fun _ => some [] }

/-- The call of a minute from a number of an account without cards reads through a null pointer. -/
theorem cardlessCall_crashes : ¬ ∀ env db leg cdr, RatesSafely env db leg cdr := by
  intro claim
  obtain ⟨after, rated, -⟩ := claim cardlessEnv {} .a (freeSecondsCall 0 1 "100" 60).cdr
  have crashed : rtMain? cardlessEnv {} .a CdrRecType.voipA
      (rtCdrToRating cardlessEnv (freeSecondsCall 0 1 "100" 60).cdr) = none := by
    decide +kernel
  rw [show (freeSecondsCall 0 1 "100" 60).cdr.recType = CdrRecType.voipA from rfl, crashed] at rated
  cases rated

end RateEngine
