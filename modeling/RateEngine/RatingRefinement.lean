import RateEngine.RatingBooks

/-!
# Rating keeps the books

`rt_exec` does to the tables of the money what the plan of the loaded call says.  The second part of
a split never gets a row: the duplicate check meets the row of the first.
-/

namespace RateEngine

/-! ## The statements on the books -/

/-- The record carries the balance that the table holds, or none. -/
def Racc.Current (rtp : Racc) (db : Db) (start stop : String) : Prop :=
  rtp.bal = {} ∨
    ∃ id row, db.balance.select (BalanceRow.isActiveFor rtp.bacc.id start stop) = [(id, row)] ∧
      rtp.bal = ⟨id, row.amount⟩

theorem Racc.Current.of_balance {rtp : Racc} {db db' : Db} {start stop : String}
    (current : rtp.Current db start stop) (same : db'.balance = db.balance) :
    rtp.Current db' start stop := by
  rw [Racc.Current, same]
  exact current

/-- Two records of one call, rated to the same point. -/
structure Rating.SameCall (pre pre' : Rating) : Prop where
  cdrId : pre'.cdrId = pre.cdrId
  rateId : pre'.rateId = pre.rateId
  ratingId : pre'.ratingId = pre.ratingId

/-- Two records of one call for one account and one plan. -/
structure Racc.SameCall (rtp rtp' : Racc) : Prop where
  bacc : rtp'.bacc = rtp.bacc
  bplan : rtp'.bplan = rtp.bplan
  pre : rtp.pre.SameCall rtp'.pre

theorem Rating.SameCall.refl (pre : Rating) : pre.SameCall pre := ⟨rfl, rfl, rfl⟩

theorem Rating.SameCall.trans {pre pre' pre'' : Rating} (first : pre.SameCall pre')
    (second : pre'.SameCall pre'') : pre.SameCall pre'' :=
  ⟨second.cdrId.trans first.cdrId, second.rateId.trans first.rateId,
    second.ratingId.trans first.ratingId⟩

theorem Racc.SameCall.refl (rtp : Racc) : rtp.SameCall rtp := ⟨rfl, rfl, .refl _⟩

theorem Racc.SameCall.trans {rtp rtp' rtp'' : Racc} (first : rtp.SameCall rtp')
    (second : rtp'.SameCall rtp'') : rtp.SameCall rtp'' :=
  ⟨second.bacc.trans first.bacc, second.bplan.trans first.bplan, first.pre.trans second.pre⟩

section SameCall

variable (env : Env) (db : Db) (rtp : Racc) (pre : Rating) (start stop : String)

/-- Charging changes the carried balance only. -/
theorem rtBalanceExec_frame :
    (rtBalanceExec env db rtp start stop).1.pre = rtp.pre ∧
      (rtBalanceExec env db rtp start stop).1.bacc = rtp.bacc ∧
        (rtBalanceExec env db rtp start stop).1.bplan = rtp.bplan := by
  simp only [rtBalanceExec]
  split
  · exact ⟨rfl, rfl, rfl⟩
  · exact rtDataQBal_frame env db rtp start stop

theorem rtBalanceExec_sameCall : rtp.SameCall (rtBalanceExec env db rtp start stop).1 := by
  obtain ⟨pre_eq, bacc_eq, bplan_eq⟩ := rtBalanceExec_frame env db rtp start stop
  exact ⟨bacc_eq, bplan_eq, by rw [pre_eq]; exact .refl _⟩

theorem fFreeBalIdQuery_sameCall : pre.SameCall (fFreeBalIdQuery env db pre) := by
  simp only [fFreeBalIdQuery]
  split <;> exact ⟨rfl, rfl, rfl⟩

theorem fFreeBillsecBalQuery2_sameCall : pre.SameCall (fFreeBillsecBalQuery2 env db pre) := by
  simp only [fFreeBillsecBalQuery2]
  split <;> exact ⟨rfl, rfl, rfl⟩

theorem freeBillsecBalanceV2_sameCall :
    rtp.SameCall (freeBillsecBalanceV2 env db rtp start stop) := by
  simp only [freeBillsecBalanceV2]
  split <;> exact ⟨rfl, rfl, rfl, rfl, rfl⟩

theorem freeBillsecExec_sameCall : rtp.SameCall (freeBillsecExec env db rtp start stop).1 := by
  refine (freeBillsecBalanceV2_sameCall env db rtp start stop).trans ⟨rfl, rfl, ?_⟩
  simp only [freeBillsecExec]
  refine (fFreeBalIdQuery_sameCall env db _).trans ?_
  split
  · exact fFreeBillsecBalQuery2_sameCall env _ _
  · exact (fFreeBalIdQuery_sameCall env _ _).trans (fFreeBillsecBalQuery2_sameCall env _ _)

theorem appendFreeBillsec_sameCall : pre.SameCall (appendFreeBillsec pre).2 := by
  rw [appendFreeBillsec_eq pre rfl]
  split
  · exact .refl _
  · split <;> exact ⟨rfl, rfl, rfl⟩

theorem calcCprice2_sameCall : rtp.SameCall (calcCprice2 rtp).2 := by
  cases tariff : rtp.bplan.calcFuncs with
  | none =>
    simp only [calcCprice2, tariff]
    exact .refl _
  | some tr =>
    rw [calcCprice2_eq tariff rfl]
    exact ⟨rfl, rfl, rfl, rfl, rfl⟩

theorem calcCpriceGroup_sameCall : rtp.SameCall (calcCpriceGroup rtp).2 := by
  have same := calcCprice2_sameCall rtp
  simp only [calcCpriceGroup]
  split
  · exact same
  · exact same.trans ⟨rfl, rfl, appendFreeBillsec_sameCall _⟩

/-- Whether a row is admitted depends on the call and the account. -/
theorem Books.admits_iff_of_sameCall (books : Books) {rtp rtp' : Racc} (same : rtp.SameCall rtp') :
    books.Admits rtp' ↔ books.Admits rtp := by
  rw [Books.Admits, Books.Admits, same.pre.cdrId, same.pre.rateId, same.bacc]

end SameCall

section RatingRows

variable {env : Env} {db : Db} {rtp : Racc}

theorem Env.exec_rating (stmt : Stmt) {db' : Db} (same : db'.rating = db.rating) :
    (env.exec stmt db db').rating = db.rating := by
  simp only [Env.exec]
  split
  · rfl
  · exact same

theorem rtBalanceExec_rating (start stop : String) :
    (rtBalanceExec env db rtp start stop).2.rating = db.rating := Env.exec_rating _ rfl

theorem freeBillsecExec_rating (start stop : String) :
    (freeBillsecExec env db rtp start stop).2.rating = db.rating := by
  simp only [freeBillsecExec]
  split
  · simp only [updateFreeBillsecBalance]
    split
    · exact Env.exec_rating _ rfl
    · rfl
  · exact Env.exec_rating _ rfl

theorem cdrUpdateCdr_rating (ratingId : ℤ) (cdrId : ℕ) (leg : Leg) :
    (cdrUpdateCdr env db ratingId cdrId leg).rating = db.rating := by
  simp only [cdrUpdateCdr]
  split
  · exact Env.exec_rating _ rfl
  · rfl

end RatingRows

section Statements

variable {env : Env} (reliable : env.Reliable) {db : Db} {rtp : Racc}

include reliable

/-- `rt_rating_save` enters the row and leaves its id in the record, `0` when there was one. -/
theorem rtRatingSave_eq (unsaved : rtp.pre.cdrId = 0 → rtp.pre.ratingId = 0) :
    rtRatingSave env db rtp =
      if db.books.Admits rtp then
        (rtp.withRatingId db.rating.next, { db with rating := db.rating.insert rtp.ratingRow })
      else (rtp.withRatingId 0, db) := by
  simp only [rtRatingSave, Books.Admits, Db.books]
  by_cases stored : 0 < rtp.pre.cdrId
  · simp only [stored, if_true, true_and, rtDataQRatingAdd, reliable.select, reliable .ratingAdd]
    cases db.rating.select (RatingRow.isOf rtp.pre.cdrId rtp.bacc.id rtp.pre.rateId) with
    | nil => rfl
    | cons row rows => rfl
  · have kept : rtp.withRatingId 0 = rtp := by
      rw [Racc.withRatingId, ← unsaved (Nat.eq_zero_of_not_pos stored)]
    simp [stored, kept]

/-- The record with which `rt_balance_exec` adds the price. -/
theorem bal_of_current {start stop : String} (current : rtp.Current db start stop) :
    (if 0 < rtp.bal.id then rtp else rtDataQBal env db rtp start stop) =
      { rtp with bal :=
          match db.balance.select (BalanceRow.isActiveFor rtp.bacc.id start stop) with
          | [(id, row)] => ⟨id, row.amount⟩
          | _ => {} } := by
  rcases current with unread | ⟨id, row, one, read⟩
  · simp only [unread, lt_self_iff_false, if_false, rtDataQBal, reliable.select]
    split
    · rename_i one
      simp only [Option.some.injEq] at one
      simp only [one]
    · rename_i other
      split
      · rename_i one
        exact absurd (congrArg some one) (other _ _)
      · rw [← unread]
  · have id_pos : 0 < id := SerialTable.key_pos_of_select_eq one
    simp only [read, id_pos, if_true, one]
    rw [← read]

/-- `rt_balance_exec` charges the price when the balance that the record carries is current. -/
theorem rtBalanceExec_books {start stop : String} (current : rtp.Current db start stop) :
    (rtBalanceExec env db rtp start stop).2.books =
      db.books.charge rtp.bacc.id start stop rtp.pre.cprice := by
  simp only [rtBalanceExec, bal_of_current reliable current, rtDataQBalAdd, reliable.exec,
    Books.charge, Db.books]
  rcases one : db.balance.select (BalanceRow.isActiveFor rtp.bacc.id start stop) with
    _ | ⟨⟨id, row⟩, _ | ⟨second, rest⟩⟩
  · simp
  · have id_pos : 0 < id := SerialTable.key_pos_of_select_eq one
    simp [id_pos]
  · simp

/-- `free_billsec_exec` opens a counter under balance id `0` unless one is there. -/
theorem freeBillsecExec_books {start stop : String} (balId : rtp.pre.balId = 0)
    (freeId : rtp.pre.freeId = 0) :
    (freeBillsecExec env db rtp start stop).2.books =
      db.books.count env rtp.bacc.id start stop rtp.pre.freeBillsecId := by
  simp only [freeBillsecExec, freeBillsecBalanceV2, reliable.select, fFreeBalIdQuery, Db.counters,
    balId, Books.count, Db.books]
  split
  · rename_i id counter one
    have one := Option.some.inj one
    have id_pos : 0 < id := SerialTable.key_pos_of_select_eq one
    simp [one, id_pos, updateFreeBillsecBalance]
  · rename_i other
    rw [if_neg (by simp [freeId])]
    split
    · rename_i id counter one
      exact absurd (congrArg some one) (other _ _)
    · simp [createFreeBillsecBalance, reliable.exec, Books.used]

/-- A record with a current balance, before any counter was looked up. -/
structure Racc.Loaded (rtp : Racc) (db : Db) : Prop where
  current : ∀ card, rtp.bacc.pcardPtr = some card → rtp.Current db card.start card.stop
  balId : rtp.pre.balId = 0
  freeId : rtp.pre.freeId = 0

/-- Charging a card and counting, as `rt_exec` and `rt_double_rating` do it. -/
theorem charge_count_books {card : Pcard} (current : rtp.Current db card.start card.stop)
    (balId : rtp.pre.balId = 0) (freeId : rtp.pre.freeId = 0) {rtp' : Racc} {db' : Db}
    (charge : rtBalanceExec env db rtp card.start card.stop = (rtp', db')) (counts : Bool) :
    (if counts then freeBillsecExec env db' rtp' card.start card.stop else (rtp', db')).2.books =
      db.books.settle env rtp counts (some card) := by
  have charged := rtBalanceExec_books reliable current
  obtain ⟨pre_eq, bacc_eq, -⟩ := rtBalanceExec_frame env db rtp card.start card.stop
  rw [charge] at charged pre_eq bacc_eq
  simp only [Books.settle] at pre_eq bacc_eq charged ⊢
  cases counts with
  | false => exact charged
  | true =>
    simp only [if_true]
    rw [freeBillsecExec_books reliable (pre_eq ▸ balId) (pre_eq ▸ freeId), charged, pre_eq, bacc_eq]

/-- The charge between the two parts of a split. -/
theorem rtDoubleRatingCharge_books (loaded : rtp.Loaded db) :
    (rtDoubleRatingCharge env db rtp).2.books =
      db.books.settle env rtp (rtp.pre.freeBillsecLimit ≠ 0) rtp.datedCard := by
  simp only [rtDoubleRatingCharge, Racc.datedCard]
  cases card_eq : rtp.bacc.pcardPtr with
  | none => rfl
  | some card =>
    by_cases dated : card.start ≠ "" ∧ card.stop ≠ ""
    · simp only [Option.filter, dated, ne_eq, not_false_eq_true, decide_true,
        Bool.and_self, if_true,
        and_self]
      rcases charge : rtBalanceExec env db rtp card.start card.stop with ⟨rtp', db'⟩
      have same_pre : rtp'.pre = rtp.pre := by
        have frame := (rtBalanceExec_frame env db rtp card.start card.stop).1
        rwa [charge] at frame
      rw [← charge_count_books reliable (loaded.current card card_eq) loaded.balId loaded.freeId
        charge]
      simp only [same_pre, decide_eq_true_eq]
    · have undated : (!decide (card.start = "") && !decide (card.stop = "")) = false := by
        simpa using dated
      simp [dated, Option.filter, undated, Books.settle]

omit reliable in
theorem rtDoubleRatingCharge_sameCall : rtp.SameCall (rtDoubleRatingCharge env db rtp).1 := by
  simp only [rtDoubleRatingCharge]
  split
  · exact .refl _
  split
  · rename_i card _ _
    have charged := rtBalanceExec_sameCall env db rtp card.start card.stop
    split
    · exact charged.trans (freeBillsecExec_sameCall env _ _ _ _)
    · exact charged
  · exact .refl _

theorem cdrUpdateCdr_books (ratingId : ℤ) (cdrId : ℕ) (leg : Leg) :
    (cdrUpdateCdr env db ratingId cdrId leg).books = db.books := by
  simp only [cdrUpdateCdr, reliable.exec]
  split <;> rfl

/-- The end of `rt_exec` leaves the books of a call without a new row alone. -/
theorem rtExecSettle_unrated (leg : Leg) (unrated : rtp.pre.ratingId ≤ 0) :
    (rtExecSettle env db rtp leg).2.books = db.books := by
  simp only [rtExecSettle]
  split
  · exact cdrUpdateCdr_books reliable _ _ _
  · split
    · exact cdrUpdateCdr_books reliable _ _ _
    · rw [if_neg unrated.not_gt]
      exact cdrUpdateCdr_books reliable _ _ _

/-- The end of `rt_exec` charges the card of a call with a new row. -/
theorem rtExecSettle_rated (leg : Leg) (rated : 0 < rtp.pre.ratingId) (loaded : rtp.Loaded db) :
    (rtExecSettle env db rtp leg).2.books =
      db.books.settle env rtp
        (rtp.pre.freeBillsecLimit ≠ 0 ∧ rtp.pre.ratingModeId < RtMode.sms.id)
        rtp.bacc.pcardPtr := by
  have marked : (cdrUpdateCdr env db rtp.pre.ratingId rtp.pre.cdrId leg).books = db.books :=
    cdrUpdateCdr_books reliable _ _ _
  simp only [rtExecSettle, rated.ne', if_false]
  revert marked
  generalize cdrUpdateCdr env db rtp.pre.ratingId rtp.pre.cdrId leg = db'
  intro marked
  cases card_eq : rtp.bacc.pcardPtr with
  | none => exact marked
  | some card =>
    have current' : rtp.Current db' card.start card.stop :=
      (loaded.current card card_eq).of_balance (congrArg Books.balance marked)
    simp only [rated, if_true]
    rcases charge : rtBalanceExec env db' rtp card.start card.stop with ⟨rtp', db''⟩
    have same_pre : rtp'.pre = rtp.pre := by
      have frame := (rtBalanceExec_frame env db' rtp card.start card.stop).1
      rwa [charge] at frame
    rw [← marked, ← charge_count_books reliable current' loaded.balId loaded.freeId charge]
    simp only [same_pre, decide_eq_true_eq]

/-- Saving a priced record and ending `rt_exec`. -/
theorem save_settle_books (leg : Leg) (loaded : rtp.Loaded db) (unrated : rtp.pre.ratingId = 0) :
    (rtExecSettle env (rtRatingSave env db rtp).2 (rtRatingSave env db rtp).1 leg).2.books =
      db.books.postRow env rtp := by
  rw [rtRatingSave_eq reliable fun _ => unrated, Books.postRow]
  by_cases admits : db.books.Admits rtp
  · rw [if_pos admits, if_pos admits, Books.enter, if_pos admits]
    have rated : 0 < (rtp.withRatingId db.rating.next).pre.ratingId :=
      Int.natCast_pos.mpr db.rating.next_pos
    exact rtExecSettle_rated reliable leg rated ⟨loaded.current, loaded.balId, loaded.freeId⟩
  · rw [if_neg admits, if_neg admits]
    exact rtExecSettle_unrated reliable leg le_rfl

/-- A call that is saved at some price is charged that price. -/
theorem save_settle_withPrice_books (leg : Leg) (loaded : rtp.Loaded db)
    (unrated : rtp.pre.ratingId = 0) (cprice : ℚ) (billsec : ℤ) :
    (rtExecSettle env (rtRatingSave env db (rtp.withPrice cprice billsec)).2
      (rtRatingSave env db (rtp.withPrice cprice billsec)).1 leg).2.books =
      db.books.postRow env (rtp.withPrice cprice billsec) :=
  save_settle_books reliable leg ⟨loaded.current, loaded.balId, loaded.freeId⟩ unrated

/-- A call that could not be priced leaves the books alone. -/
theorem settle_failed_books (leg : Leg) (rtp : Racc) :
    (rtExecSettle env db (rtp.withRatingId (-1)) leg).2.books = db.books :=
  rtExecSettle_unrated reliable leg (neg_nonpos.mpr zero_le_one)

/-- The second part of a split gets no row when the call has one: it leaves the tables alone and
reports a failure or the id `0`. -/
theorem rtDoubleRatingPaid_of_rated (rated : ¬ db.books.Admits rtp)
    (unsaved : rtp.pre.cdrId = 0 → rtp.pre.ratingId = 0) :
    (rtDoubleRatingPaid env db rtp).2.2 = db ∧
      ((rtDoubleRatingPaid env db rtp).1 = -1 ∨
        (rtDoubleRatingPaid env db rtp).2.1.pre.ratingId = 0) := by
  have same := calcCpriceGroup_sameCall rtp
  simp only [rtDoubleRatingPaid]
  split
  · exact ⟨rfl, Or.inl rfl⟩
  · have still_rated : ¬ db.books.Admits (calcCpriceGroup rtp).2 :=
      (db.books.admits_iff_of_sameCall same).not.mpr rated
    rw [rtRatingSave_eq reliable (by rw [same.pre.cdrId, same.pre.ratingId]; exact unsaved),
      if_neg still_rated]
    exact ⟨rfl, Or.inr rfl⟩

omit reliable in
/-- Pricing and saving without a further split. -/
theorem rtDoubleRatingPaid_eq {tr : List CalcFunction} (tariff : rtp.bplan.calcFuncs = some tr)
    {totals : CpriceTotals} (priced : calcCprice2Totals tr rtp.pre.billsec = totals)
    (ended : ¬ 0 < totals.checksec) (allowance : rtp.HasAllowance) :
    afterDoubleRating (rtDoubleRatingPaid env db rtp) =
      if totals.billsec ≤ rtp.freeSec then
        rtRatingSave env db (rtp.withPrice (-totals.cprice) totals.billsec)
      else rtRatingSave env db (rtp.withPrice totals.cprice totals.billsec) := by
  rw [rtDoubleRatingPaid, calcCpriceGroup_eq tariff priced, if_neg ended,
    if_neg (not_not_intro allowance)]
  by_cases within : totals.billsec ≤ rtp.freeSec
  · rw [if_pos within, if_pos within]
    rfl
  · rw [if_neg within, if_neg within]
    rfl

/-- What follows the saved free part: the charge counts, the second part writes nothing. -/
theorem afterSplit_books (leg : Leg) (loaded : rtp.Loaded db) (rated : ¬ db.books.Admits rtp)
    (unsaved : rtp.pre.cdrId = 0 → rtp.pre.ratingId = 0) :
    (rtExecSettle env
        (afterDoubleRating (rtDoubleRatingPaid env (rtDoubleRatingCharge env db rtp).2
          (rtDoubleRatingCharge env db rtp).1)).2
        (afterDoubleRating (rtDoubleRatingPaid env (rtDoubleRatingCharge env db rtp).2
          (rtDoubleRatingCharge env db rtp).1)).1 leg).2.books =
      db.books.settle env rtp (rtp.pre.freeBillsecLimit ≠ 0) rtp.datedCard := by
  rw [← rtDoubleRatingCharge_books reliable loaded]
  have same : rtp.SameCall (rtDoubleRatingCharge env db rtp).1 := rtDoubleRatingCharge_sameCall
  have still_rated : ¬ (rtDoubleRatingCharge env db rtp).2.books.Admits
      (rtDoubleRatingCharge env db rtp).1 := by
    rw [Books.admits_iff_of_sameCall _ same, rtDoubleRatingCharge_books reliable loaded,
      Books.Admits, Books.settle_rating]
    exact rated
  revert same still_rated
  rcases rtDoubleRatingCharge env db rtp with ⟨rtp', db'⟩
  intro same still_rated
  have still_unsaved : rtp'.pre.cdrId = 0 → rtp'.pre.ratingId = 0 := by
    rw [same.pre.cdrId, same.pre.ratingId]
    exact unsaved
  obtain ⟨db_eq, outcome⟩ := rtDoubleRatingPaid_of_rated reliable still_rated still_unsaved
  revert db_eq outcome
  rcases rtDoubleRatingPaid env db' rtp' with ⟨ret, rtp'', db''⟩
  rintro rfl outcome
  simp only [afterDoubleRating]
  split
  · exact rtExecSettle_unrated reliable leg (neg_nonpos.mpr zero_le_one)
  · rename_i not_failed
    exact rtExecSettle_unrated reliable leg (outcome.resolve_left not_failed).le

omit reliable in
/-- The first pricing of `rt_double_rating`: the free seconds fail, are whole units, or are not. -/
theorem calcCpriceGroup_freeSec {tr : List CalcFunction} (tariff : rtp.bplan.calcFuncs = some tr)
    (allowance : rtp.HasAllowance) {free : CpriceTotals}
    (priced : calcCprice2Totals tr rtp.freeSec = free) :
    calcCpriceGroup (rtp.withBillsec rtp.freeSec) =
      if 0 < free.checksec then (-1, rtp.withPrice free.cprice free.billsec)
      else if free.billsec ≤ rtp.freeSec then (0, rtp.withPrice (-free.cprice) free.billsec)
      else (1, rtp.withPrice free.cprice free.billsec) := by
  have tariff' : (rtp.withBillsec rtp.freeSec).bplan.calcFuncs = some tr := tariff
  have still : (rtp.withBillsec rtp.freeSec).HasAllowance := allowance
  rw [calcCpriceGroup_eq tariff' priced, if_neg (not_not_intro still)]
  rfl

/-- A split in which the free seconds are whole units. -/
theorem rtDoubleRating_split_books (leg : Leg) (loaded : rtp.Loaded db)
    (unrated : rtp.pre.ratingId = 0) {tr : List CalcFunction}
    (tariff : rtp.bplan.calcFuncs = some tr) (allowance : rtp.HasAllowance) {free : CpriceTotals}
    (priced : calcCprice2Totals tr rtp.freeSec = free) (ended : ¬ 0 < free.checksec)
    (within : free.billsec ≤ rtp.freeSec) :
    (rtExecSettle env (afterDoubleRating (rtDoubleRating env db rtp)).2
        (afterDoubleRating (rtDoubleRating env db rtp)).1 leg).2.books =
      db.books.postFree env (rtp.withPrice (-free.cprice) free.billsec) := by
  have group := calcCpriceGroup_freeSec tariff allowance priced
  rw [if_neg ended, if_pos within] at group
  simp only [rtDoubleRating, allowance.2, if_true, group, Books.postFree, Books.enter]
  have saved : rtRatingSave env db (rtp.withPrice (-free.cprice) free.billsec) = _ :=
    rtRatingSave_eq reliable fun _ => unrated
  have loaded' (ratingId billsec : ℤ) (rating : SerialTable RatingRow) :
      (((rtp.withPrice (-free.cprice) free.billsec).withRatingId ratingId).withBillsec
        billsec).Loaded { db with rating } := ⟨loaded.current, loaded.balId, loaded.freeId⟩
  by_cases admits : db.books.Admits (rtp.withPrice (-free.cprice) free.billsec)
  · rw [if_pos admits] at saved ⊢
    rw [saved]
    refine afterSplit_books reliable leg (loaded' _ _ _) ?_ ?_
    · have entered := Books.not_admits_enter db.books (rtp.withPrice (-free.cprice) free.billsec)
      rw [Books.enter, if_pos admits] at entered
      exact entered
    · exact fun no_cdr => absurd admits.1 (Nat.not_lt.mpr (Nat.le_of_eq no_cdr))
  · rw [if_neg admits] at saved ⊢
    rw [saved]
    exact afterSplit_books reliable leg (loaded' _ _ db.rating) admits fun _ => rfl

/-- `rt_double_rating` on a call that crosses the end of the allowance. -/
theorem rtDoubleRating_books (leg : Leg) (loaded : rtp.Loaded db)
    (unrated : rtp.pre.ratingId = 0) {tr : List CalcFunction}
    (tariff : rtp.bplan.calcFuncs = some tr) (allowance : rtp.HasAllowance)
    {free again : CpriceTotals} (free_eq : calcCprice2Totals tr rtp.freeSec = free)
    (again_eq : calcCprice2Totals tr rtp.pre.billsec = again) :
    (rtExecSettle env (afterDoubleRating (rtDoubleRating env db rtp)).2
        (afterDoubleRating (rtDoubleRating env db rtp)).1 leg).2.books =
      if 0 < free.checksec then db.books
      else if free.billsec ≤ rtp.freeSec then
        db.books.postFree env (rtp.withPrice (-free.cprice) free.billsec)
      else if 0 < again.checksec then db.books
      else if again.billsec ≤ rtp.freeSec then
        db.books.postRow env (rtp.withPrice (-again.cprice) again.billsec)
      else db.books.postRow env (rtp.withPrice again.cprice again.billsec) := by
  by_cases whole : ¬ 0 < free.checksec ∧ free.billsec ≤ rtp.freeSec
  · rw [if_neg whole.1, if_pos whole.2]
    exact rtDoubleRating_split_books reliable leg loaded unrated tariff allowance free_eq whole.1
      whole.2
  have failed : ∀ rtp' : Racc,
      (rtExecSettle env db (rtp'.withRatingId (-1)) leg).2.books = db.books :=
    settle_failed_books reliable leg
  have group := calcCpriceGroup_freeSec tariff allowance free_eq
  by_cases free_failed : 0 < free.checksec
  · rw [if_pos free_failed] at group ⊢
    simp only [rtDoubleRating, allowance.2, if_true, group]
    exact failed _
  have beyond : ¬ free.billsec ≤ rtp.freeSec := fun within => whole ⟨free_failed, within⟩
  rw [if_neg free_failed, if_neg beyond] at group ⊢
  -- the call goes back to its billed seconds and is priced without a split
  let whole_call := (rtp.withPrice free.cprice free.billsec).withBillsec rtp.pre.billsec
  have restart : rtDoubleRating env db rtp = rtDoubleRatingPaid env db whole_call := by
    simp [rtDoubleRating, allowance.2, group, whole_call]
  have tariff' : whole_call.bplan.calcFuncs = some tr := tariff
  have allowance' : whole_call.HasAllowance := allowance
  rw [restart]
  by_cases again_failed : 0 < again.checksec
  · rw [if_pos again_failed, rtDoubleRatingPaid, calcCpriceGroup_eq tariff' again_eq,
      if_pos again_failed]
    exact failed _
  have saved := save_settle_withPrice_books reliable leg loaded unrated
  rw [rtDoubleRatingPaid_eq tariff' again_eq again_failed allowance', if_neg again_failed]
  by_cases within : again.billsec ≤ rtp.freeSec
  · have within' : again.billsec ≤ whole_call.freeSec := within
    rw [if_pos within, if_pos within']
    exact saved _ _
  · have beyond' : ¬ again.billsec ≤ whole_call.freeSec := within
    rw [if_neg within, if_neg beyond']
    exact saved _ _

/-- Pricing, saving and ending `rt_exec` do to the books what the plan says. -/
theorem rtExecPrice_books (leg : Leg) (loaded : rtp.Loaded db) (unrated : rtp.pre.ratingId = 0) :
    (rtExecSettle env (rtExecPrice env db rtp).2 (rtExecPrice env db rtp).1 leg).2.books =
      db.books.post env rtp := by
  have failed : ∀ rtp' : Racc,
      (rtExecSettle env db (rtp'.withRatingId (-1)) leg).2.books = db.books :=
    settle_failed_books reliable leg
  have saved := save_settle_withPrice_books reliable leg loaded unrated
  cases tariff : rtp.bplan.calcFuncs with
  | none =>
    simp only [rtExecPrice, tariff, Books.post, Racc.plan]
    exact failed rtp
  | some tr =>
    simp only [rtExecPrice, tariff, Books.post, Racc.plan]
    rw [calcCpriceGroup_eq tariff rfl]
    generalize calcCprice2Totals tr rtp.pre.billsec = call
    by_cases call_failed : 0 < call.checksec
    · simp only [call_failed, if_true]
      exact failed _
    by_cases allowance : rtp.HasAllowance
    swap
    · simp only [call_failed, allowance, if_true, if_false, not_false_eq_true]
      exact saved _ _
    by_cases within : call.billsec ≤ rtp.freeSec
    · simp only [call_failed, allowance, within, if_true, if_false, not_true_eq_false]
      exact saved _ _
    simp only [call_failed, allowance, within, if_true, if_false, not_true_eq_false]
    let crossing := rtp.withPrice call.cprice call.billsec
    have loaded' : crossing.Loaded db := ⟨loaded.current, loaded.balId, loaded.freeId⟩
    have tariff' : crossing.bplan.calcFuncs = some tr := tariff
    have allowance' : crossing.HasAllowance := allowance
    refine (rtDoubleRating_books reliable leg loaded' unrated tariff' allowance' rfl rfl).trans ?_
    have same_left : crossing.freeSec = rtp.freeSec := rfl
    have billed : crossing.pre.billsec = call.billsec := rfl
    simp only [same_left, billed]
    split
    · rfl
    split
    · rfl
    split
    · rfl
    split <;> rfl

end Statements

/-! ## Loading -/

/-- What loading leaves alone in the record of a call. -/
structure Rating.Kept (pre pre' : Rating) : Prop where
  cdrId : pre'.cdrId = pre.cdrId
  ratingId : pre'.ratingId = pre.ratingId
  balId : pre'.balId = pre.balId
  freeId : pre'.freeId = pre.freeId

theorem Rating.Kept.refl (pre : Rating) : pre.Kept pre := ⟨rfl, rfl, rfl, rfl⟩

theorem Rating.Kept.trans {pre pre' pre'' : Rating} (first : pre.Kept pre')
    (second : pre'.Kept pre'') : pre.Kept pre'' :=
  ⟨second.cdrId.trans first.cdrId, second.ratingId.trans first.ratingId,
    second.balId.trans first.balId, second.freeId.trans first.freeId⟩

section Loading

variable (env : Env) (db : Db) (rtp : Racc)

theorem rtChkTrOpt_kept (pre : Rating) : pre.Kept (rtChkTrOpt env pre) := by
  have freed (pre' : Rating) : pre'.Kept (fFreeBillsecQuery env pre') := by
    simp only [fFreeBillsecQuery]
    split <;> exact ⟨rfl, rfl, rfl, rfl⟩
  simp only [rtChkTrOpt]
  refine Rating.Kept.trans ?_ (freed _)
  split
  · have compared : pre.Kept (tcTsCmp env (fTimeCondQueryV2 env pre) pre).2 := by
      rw [tcTsCmp_eq]
      exact ⟨rfl, rfl, rfl, rfl⟩
    revert compared
    rcases tcTsCmp env (fTimeCondQueryV2 env pre) pre with ⟨met, pre'⟩
    intro compared
    cases met with
    | false => exact compared.trans ⟨rfl, rfl, rfl, rfl⟩
    | true => exact compared
  · exact .refl _

theorem rtDataQPrefix_kept (rates : List Rate) :
    rtp.pre.Kept (rtDataQPrefix env rates rtp).pre := by
  induction rates generalizing rtp with
  | nil => exact .refl _
  | cons rate rest ih =>
      simp only [rtDataQPrefix]
      split
      · exact .refl _
      split
      · exact ih rtp
      split
      · have searched := rtChkTrOpt_kept env
          { rtp.pre with
            tariffId := rate.tariffId
            rateId := rate.id
            prefixId := rate.prefixId
            freeBillsecId := rate.freeBillsecId }
        revert searched
        generalize rtChkTrOpt env
          { rtp.pre with
            tariffId := rate.tariffId
            rateId := rate.id
            prefixId := rate.prefixId
            freeBillsecId := rate.freeBillsecId } = pre
        intro searched
        have kept : rtp.pre.Kept pre :=
          ⟨searched.cdrId, searched.ratingId, searched.balId, searched.freeId⟩
        split
        · rw [(rtDataQTariff_frame env _).2.2.1]
          exact kept
        · exact kept.trans (ih { rtp with pre })
      · exact ih rtp

theorem rtDataQRate_kept : rtp.pre.Kept (rtDataQRate env rtp).pre := by
  simp only [rtDataQRate]
  split
  · exact .refl _
  · rename_i rates _
    exact rtDataQPrefix_kept env
      { rtp with bplan :=
          { rtp.bplan with ratesPtr := env.rates rtp.bplan.id, calcFuncs := none } } rates

theorem rtPreratingLoad_kept (card : Pcard) :
    rtp.pre.Kept (rtPreratingLoad env db rtp card).pre := by
  have read := (rtDataQBal_frame env db rtp card.start card.stop).1
  simp only [rtPreratingLoad]
  split
  · simp only [freeBillsecBalanceV2, fFreeBillsecBalQuery2]
    split <;> split <;> rw [read] <;> exact ⟨rfl, rfl, rfl, rfl⟩
  · rw [read]
    exact .refl _

theorem rtRateSearching_kept : rtp.pre.Kept (rtRateSearching env db rtp).1.pre := by
  have searched := rtDataQRate_kept env rtp
  simp only [rtRateSearching]
  split
  · rename_i card _ _
    rcases rtPreratingProcess_cases env db (rtDataQRate env rtp) card with ⟨db', refused⟩ | loaded
    · rw [refused]
      exact searched
    · rw [loaded]
      exact searched.trans (rtPreratingLoad_kept env db _ card)
  · exact searched

/-- Pre-rating writes nothing but the status of a card. -/
theorem rtRateSearching_books : (rtRateSearching env db rtp).2.books = db.books := by
  have blocked (cardId : ℕ) : (rtDataQPcardSet env db cardId .block).books = db.books := by
    simp only [rtDataQPcardSet, Env.exec]
    split <;> rfl
  simp only [rtRateSearching]
  split
  · simp only [rtPreratingProcess]
    split
    · exact blocked _
    split
    · split
      · exact blocked _
      · rfl
    · rfl
  · rfl

/-- A record without a balance gets the one that the table holds, or none. -/
theorem rtRateSearching_current (unread : rtp.bal = {}) {card : Pcard}
    (card_eq : rtp.bacc.pcardPtr = some card) :
    (rtRateSearching env db rtp).1.Current db card.start card.stop := by
  obtain ⟨bal_eq, bacc_eq, -⟩ := rtDataQRate_frame env rtp
  have still_unread : (rtDataQRate env rtp).bal = {} := bal_eq.trans unread
  rw [Racc.Current, rtRateSearching_bacc]
  simp only [rtRateSearching, bacc_eq, card_eq]
  split
  · rename_i other card_eq'
    obtain rfl := Option.some.inj card_eq'
    rcases rtPreratingProcess_cases env db (rtDataQRate env rtp) card with ⟨db', refused⟩ | loaded
    · rw [refused]
      exact Or.inl still_unread
    · rw [loaded]
      simp only [(rtPreratingLoad_frame env db _ card).1, rtDataQBal, Env.select, bacc_eq]
      split
      · rename_i id row one
        split at one
        · cases one
        · exact Or.inr ⟨id, row, Option.some.inj one, rfl⟩
      · exact Or.inl still_unread
  · exact Or.inl still_unread

/-- A record that loading may still touch up: the seconds and the free messages. -/
theorem rounded_kept : rtp.rounded.bal = rtp.bal ∧ rtp.rounded.bacc = rtp.bacc ∧
    rtp.pre.Kept rtp.rounded.pre := by
  simp only [Racc.rounded]
  split <;> split <;> exact ⟨rfl, rfl, rfl, rfl, rfl, rfl⟩

theorem freeBillsecSmsBalance_kept (start stop : String) :
    (freeBillsecSmsBalance env db rtp start stop).bal = rtp.bal ∧
      (freeBillsecSmsBalance env db rtp start stop).bacc = rtp.bacc ∧
        rtp.pre.Kept (freeBillsecSmsBalance env db rtp start stop).pre := by
  simp only [freeBillsecSmsBalance]
  split <;> exact ⟨rfl, rfl, rfl, rfl, rfl, rfl⟩

/-- After the rate search, loading changes no more than the seconds and the free messages. -/
theorem rtExecLoad_frame :
    let searched := rtRateSearching env db
      { rtp with bplan := rtChkBplanPeriods rtp.bplan rtp.pre.ts }
    (rtExecLoad env db rtp).2 = searched.2 ∧ (rtExecLoad env db rtp).1.bal = searched.1.bal ∧
      (rtExecLoad env db rtp).1.bacc = searched.1.bacc ∧
        searched.1.pre.Kept (rtExecLoad env db rtp).1.pre := by
  simp only [rtExecLoad]
  rcases rtRateSearching env db { rtp with bplan := rtChkBplanPeriods rtp.bplan rtp.pre.ts } with
    ⟨searched, db'⟩
  obtain ⟨rounded_bal, rounded_bacc, rounded_pre⟩ := rounded_kept searched
  simp only
  split
  · exact ⟨rfl, rfl, rfl, .refl _⟩
  split
  · split
    · rename_i card _ _ _
      obtain ⟨sms_bal, sms_bacc, sms_pre⟩ :=
        freeBillsecSmsBalance_kept env db' searched.rounded card.start card.stop
      exact ⟨rfl, sms_bal.trans rounded_bal, sms_bacc.trans rounded_bacc, rounded_pre.trans sms_pre⟩
    · exact ⟨rfl, rounded_bal, rounded_bacc, rounded_pre⟩
  · exact ⟨rfl, rounded_bal, rounded_bacc, rounded_pre⟩

/-- Loading leaves the account, the call and the books alone. -/
theorem rtExecLoad_kept :
    (rtExecLoad env db rtp).1.bacc = rtp.bacc ∧ rtp.pre.Kept (rtExecLoad env db rtp).1.pre ∧
      (rtExecLoad env db rtp).2.books = db.books := by
  obtain ⟨db_eq, -, bacc_eq, kept⟩ := rtExecLoad_frame env db rtp
  have searched := rtRateSearching_kept env db
    { rtp with bplan := rtChkBplanPeriods rtp.bplan rtp.pre.ts }
  rw [db_eq, bacc_eq, rtRateSearching_bacc, rtRateSearching_books]
  exact ⟨rfl, searched.trans kept, rfl⟩

/-- Loading a fresh record gives one that can be charged and counted. -/
theorem rtExecLoad_loaded (fresh : rtp.Fresh) :
    (rtExecLoad env db rtp).1.Loaded (rtExecLoad env db rtp).2 ∧
      (rtExecLoad env db rtp).1.pre.ratingId = 0 := by
  obtain ⟨db_eq, bal_eq, bacc_eq, -⟩ := rtExecLoad_frame env db rtp
  obtain ⟨account, kept, books_eq⟩ := rtExecLoad_kept env db rtp
  refine ⟨⟨fun card card_eq => ?_, kept.balId.trans fresh.balId, kept.freeId.trans fresh.freeId⟩,
    kept.ratingId.trans fresh.ratingId⟩
  rw [account] at card_eq
  have current := rtRateSearching_current env db
    { rtp with bplan := rtChkBplanPeriods rtp.bplan rtp.pre.ts } fresh.bal card_eq
  have same_balance : (rtExecLoad env db rtp).2.balance = db.balance :=
    congrArg Books.balance books_eq
  rw [Racc.Current, bal_eq, bacc_eq, same_balance]
  exact current

end Loading

/-- What rating does to the books: load the call, decide, post. -/
theorem rtExec_books {env : Env} (reliable : env.Reliable) (db : Db) {rtp : Racc}
    (fresh : rtp.Fresh) (leg : Leg) :
    (rtExec env db rtp leg).2.books = db.books.post env (rtExecLoad env db rtp).1 := by
  obtain ⟨loaded, unrated⟩ := rtExecLoad_loaded env db rtp fresh
  obtain ⟨-, -, books_eq⟩ := rtExecLoad_kept env db rtp
  rw [← books_eq, ← rtExecPrice_books reliable leg loaded unrated, rtExec]

/-- One turn of the worker loop on the books. -/
theorem Job.rate_books (db : Db) (job : Job) :
    (job.rate db).books =
      match job.record with
      | none => db.books
      | some rtp => db.books.post job.env (rtExecLoad job.env db rtp).1 := by
  simp only [Job.rate, rtMain]
  cases record : job.record with
  | none =>
    rw [Job.record] at record
    rw [record]
  | some rtp =>
    have fresh := Job.fresh_of_record record
    rw [Job.record] at record
    rw [record]
    exact rtExec_books job.reliable db fresh job.leg

/-- Rating a call leaves the rating rows alone or inserts one. -/
theorem Books.post_rating (books : Books) (env : Env) (rtp : Racc) :
    (books.post env rtp).rating = books.rating ∨
      ∃ row, (books.post env rtp).rating = books.rating.insert row := by
  have entered (priced : Racc) : (books.enter priced).rating = books.rating ∨
      ∃ row, (books.enter priced).rating = books.rating.insert row := by
    simp only [Books.enter]
    split
    · exact Or.inr ⟨_, rfl⟩
    · exact Or.inl rfl
  simp only [Books.post]
  split
  · exact Or.inl rfl
  · simp only [Books.postRow]
    split
    · rw [Books.settle_rating]
      exact entered _
    · exact Or.inl rfl
  · rw [Books.postFree, Books.settle_rating]
    exact entered _

end RateEngine
