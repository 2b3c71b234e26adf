import RateEngine.BatchProgress
import RateEngine.Conservation

/-!
# Recovery from a crash

The statements of `rt_exec` are committed one by one: the row, the mark of the leg, the balance, the
free seconds.  A process that stops leaves what is committed, and the next run of `rt_loop` fetches
the CDR again when its leg is unmarked.  The second run takes a row of the CDR for a call that is
already rated and marks the leg `-1`.  This file follows both runs from every point between the
statements.
-/

namespace RateEngine

/-! ## The plan of a call -/

/-- Pricing takes a call to its mark, to its row, or to the row of its free part. -/
theorem Racc.price_eq (rtp : Racc) :
    match rtp.plan with
    | .unrated => rtp.price.pc = .mark ∧ rtp.price.rtp.pre.ratingId = -1
    | .single cprice billsec => rtp.price = ⟨rtp.withPrice cprice billsec, .check none⟩
    | .split cprice billsec =>
        ∃ rest, rtp.price = ⟨rtp.withPrice cprice billsec, .check (some rest)⟩ := by
  cases tariff : rtp.bplan.calcFuncs with
  | none => simp [Racc.plan, Racc.price, tariff, Racc.failed, Racc.withRatingId]
  | some tr =>
      simp only [Racc.plan, Racc.price, tariff]
      rw [calcCpriceGroup_eq tariff rfl]
      generalize calcCprice2Totals tr rtp.pre.billsec = call
      by_cases call_failed : 0 < call.checksec
      · simp [call_failed, Racc.failed, Racc.withRatingId]
      by_cases allowance : rtp.HasAllowance
      swap
      · simp [call_failed, allowance]
      by_cases within : call.billsec ≤ rtp.freeSec
      · simp [call_failed, allowance, within]
      simp only [call_failed, allowance, within, if_true, if_false, not_true_eq_false, one_ne_zero]
      -- the call crosses the end of the allowance
      let crossing := rtp.withPrice call.cprice call.billsec
      have tariff' : crossing.bplan.calcFuncs = some tr := tariff
      have allowance' : crossing.HasAllowance := allowance
      have group := calcCpriceGroup_freeSec tariff' allowance' rfl
      have same_left : crossing.freeSec = rtp.freeSec := rfl
      rw [same_left] at group
      have split_eq : crossing.priceSplit =
          let free := calcCpriceGroup (crossing.withBillsec rtp.freeSec)
          if free.1 = 0 then ⟨free.2, .check (some (call.billsec - rtp.freeSec))⟩
          else if free.1 = 1 then (free.2.withBillsec call.billsec).pricePaid
          else free.2.failed := if_pos allowance.2
      rw [show (rtp.withPrice call.cprice call.billsec).priceSplit = crossing.priceSplit from rfl,
        split_eq, group]
      generalize calcCprice2Totals tr rtp.freeSec = free
      by_cases free_failed : 0 < free.checksec
      · simp [free_failed, Racc.failed, Racc.withRatingId]
      by_cases whole : free.billsec ≤ rtp.freeSec
      · simp only [free_failed, whole, if_true, if_false]
        exact ⟨_, rfl⟩
      simp only [free_failed, whole, if_true, if_false, one_ne_zero]
      -- the call goes back to its billed seconds
      let whole_call := (crossing.withPrice free.cprice free.billsec).withBillsec call.billsec
      have tariff'' : whole_call.bplan.calcFuncs = some tr := tariff
      have allowance'' : whole_call.HasAllowance := allowance
      have paid := calcCpriceGroup_eq tariff'' rfl
      have billed : whole_call.pre.billsec = call.billsec := rfl
      have same_left' : whole_call.freeSec = rtp.freeSec := rfl
      rw [billed, same_left', if_neg (not_not_intro allowance'')] at paid
      have paid_eq : whole_call.pricePaid =
          let paid := calcCpriceGroup whole_call
          if paid.1 = -1 then paid.2.failed else ⟨paid.2, .check none⟩ := rfl
      rw [show ((crossing.withPrice free.cprice free.billsec).withBillsec call.billsec).pricePaid =
        whole_call.pricePaid from rfl, paid_eq, paid]
      generalize calcCprice2Totals tr call.billsec = again
      by_cases again_failed : 0 < again.checksec
      · simp [again_failed, Racc.failed, Racc.withRatingId]
      by_cases again_within : again.billsec ≤ rtp.freeSec
      · simp only [again_failed, again_within, if_true, if_false]
        rfl
      · simp only [again_failed, again_within, if_false]
        rfl

/-! ## Loading reads the books -/

/-- The load of a call reads the books alone. -/
theorem rtExecLoad_of_books {env : Env} {db db' : Db} (same : db'.books = db.books) (rtp : Racc) :
    (rtExecLoad env db' rtp).1 = (rtExecLoad env db rtp).1 := by
  have rating_eq : db'.rating = db.rating := congrArg Books.rating same
  have balance_eq : db'.balance = db.balance := congrArg Books.balance same
  have counters_eq : db'.freeBillsecBalance = db.freeBillsecBalance := congrArg Books.counters same
  have reads (rtp : Racc) (start stop : String) :
      rtDataQBal env db' rtp start stop = rtDataQBal env db rtp start stop := by
    rw [rtDataQBal, rtDataQBal, balance_eq]
  have uses (rtp : Racc) (start stop : String) :
      freeBillsecBalanceV2 env db' rtp start stop = freeBillsecBalanceV2 env db rtp start stop := by
    rw [freeBillsecBalanceV2, freeBillsecBalanceV2, rating_eq]
  have sums (pre : Rating) : fFreeBillsecBalQuery2 env db' pre =
      fFreeBillsecBalQuery2 env db pre := by
    rw [fFreeBillsecBalQuery2, fFreeBillsecBalQuery2, Db.counters, Db.counters, counters_eq]
  have loads (rtp : Racc) (card : Pcard) :
      rtPreratingLoad env db' rtp card = rtPreratingLoad env db rtp card := by
    simp only [rtPreratingLoad, reads, uses, sums]
  have counts (rtp : Racc) : rtDataQBalCount env db' rtp = rtDataQBalCount env db rtp := by
    rw [rtDataQBalCount, rtDataQBalCount, balance_eq]
  have preratings (rtp : Racc) (card : Pcard) :
      (rtPreratingProcess env db' rtp card).2.1 = (rtPreratingProcess env db rtp card).2.1 := by
    simp only [rtPreratingProcess, counts, loads, apply_ite Prod.snd, apply_ite Prod.fst]
  have searches (rtp : Racc) :
      (rtRateSearching env db' rtp).1 = (rtRateSearching env db rtp).1 := by
    simp only [rtRateSearching]
    split
    · exact preratings _ _
    · rfl
  obtain ⟨planned, planned_eq⟩ : ∃ planned,
      planned = { rtp with bplan := rtChkBplanPeriods rtp.bplan rtp.pre.ts } := ⟨_, rfl⟩
  have searched := searches planned
  have books_eq : (rtRateSearching env db' planned).2.books =
      (rtRateSearching env db planned).2.books := by
    rw [rtRateSearching_books, rtRateSearching_books, same]
  simp only [rtExecLoad, ← planned_eq]
  rcases found_eq' : rtRateSearching env db' planned with ⟨found', d'⟩
  rcases found_eq : rtRateSearching env db planned with ⟨found, d⟩
  rw [found_eq', found_eq] at searched books_eq
  obtain rfl : found' = found := searched
  have rating_eq' : d'.rating = d.rating := congrArg Books.rating books_eq
  have sms (rtp : Racc) (start stop : String) :
      freeBillsecSmsBalance env d' rtp start stop = freeBillsecSmsBalance env d rtp start stop := by
    rw [freeBillsecSmsBalance, freeBillsecSmsBalance, rating_eq']
  by_cases no_tariff : found'.bplan.calcFuncs = none
  · simp only [if_pos no_tariff]
  simp only [if_neg no_tariff]
  cases found'.rounded.rtm <;> cases found'.rounded.bacc.pcardPtr <;>
    simp only [sms, apply_ite Prod.fst]

/-- The rate of a call does not depend on the tables that rating writes. -/
theorem rtExecLoad_rateId (env : Env) (db : Db) (rtp : Racc) :
    (rtExecLoad env db rtp).1.pre.rateId =
      (rtDataQRate env
        { rtp with bplan := rtChkBplanPeriods rtp.bplan rtp.pre.ts }).pre.rateId := by
  have loads (rtp : Racc) (card : Pcard) :
      (rtPreratingLoad env db rtp card).pre.rateId = rtp.pre.rateId := by
    have read := (rtDataQBal_frame env db rtp card.start card.stop).1
    simp only [rtPreratingLoad]
    split
    · simp only [freeBillsecBalanceV2, fFreeBillsecBalQuery2]
      split <;> split <;> rw [read]
    · rw [read]
  have searched (rtp : Racc) :
      (rtRateSearching env db rtp).1.pre.rateId = (rtDataQRate env rtp).pre.rateId := by
    simp only [rtRateSearching]
    split
    · rename_i card _ _
      rcases rtPreratingProcess_cases env db (rtDataQRate env rtp) card with ⟨db', refused⟩ | loaded
      · rw [refused]
      · rw [loaded]
        exact loads _ card
    · rfl
  have rounded (rtp : Racc) : rtp.rounded.pre.rateId = rtp.pre.rateId := by
    simp only [Racc.rounded]
    split <;> split <;> rfl
  have sms (db : Db) (rtp : Racc) (start stop : String) :
      (freeBillsecSmsBalance env db rtp start stop).pre.rateId = rtp.pre.rateId := by
    simp only [freeBillsecSmsBalance]
    split <;> rfl
  rw [← searched]
  simp only [rtExecLoad]
  split
  · rfl
  split
  · split
    · rw [sms, rounded]
    · exact rounded _
  · exact rounded _

/-- Whether a call has a row is the same question after every load of it. -/
theorem Books.admits_load_iff (books : Books) (env : Env) (db db' : Db) (rtp : Racc) :
    books.Admits (rtExecLoad env db' rtp).1 ↔ books.Admits (rtExecLoad env db rtp).1 := by
  obtain ⟨bacc_eq, kept, -⟩ := rtExecLoad_kept env db rtp
  obtain ⟨bacc_eq', kept', -⟩ := rtExecLoad_kept env db' rtp
  rw [Books.Admits, Books.Admits, rtExecLoad_rateId, rtExecLoad_rateId, bacc_eq,
    bacc_eq', kept.cdrId,
    kept'.cdrId]

/-! ## Both runs -/

/-- The call and the database after `n` steps of `rt_exec`. -/
def RtExecRun.steps (env : Env) (leg : Leg) : ℕ → Option RtExecRun × Db → Option RtExecRun × Db
  | 0, state => state
  | _ + 1, (none, db) => (none, db)
  | n + 1, (some run, db) => RtExecRun.steps env leg n (run.next env db leg)

/-- `rt_loop` is run again: it rates the CDR when its leg is unmarked. -/
def Job.rerun (db : Db) (job : Job) : Db :=
  if db.Marked job.leg job.cdr.id then db else job.rate db

/-- The account of the record has a card with the dates of the period. -/
def Racc.InPeriod (rtp : Racc) (period : Period) : Prop :=
  rtp.bacc.id = period.account ∧
    ∃ card, rtp.bacc.pcardPtr = some card ∧ card.start = period.start ∧ card.stop = period.stop

/-- The leg is marked with a row of the CDR, and the balance has grown by the price of the row. -/
def RatedOnceIn (rtp : Racc) (leg : Leg) (before after : Db) : Prop :=
  ∃ (period : Period) (id : ℕ) (row : RatingRow), rtp.InPeriod period ∧
    (id, row) ∈ after.rating.rows ∧ row.callId = rtp.pre.cdrId ∧ row.baccId = rtp.bacc.id ∧
      (∃ cdr ∈ after.cdrs, cdr.id = rtp.pre.cdrId ∧ cdr.mark leg = id) ∧
        after.books.amount period = before.books.amount period + row.callPrice

/-- The process stops before the row or after the charge, or what it leaves uncharged is nothing. -/
def StopsSafely (cprice : ℚ) : Option RtExecRun → Prop
  | none => True
  | some run =>
      match run.pc with
      | .load | .check _ | .add _ | .count => True
      | .charge => cprice = 0
      | .splitCharge | .splitCount | .mark => False

/-- The call gets one row, which it does not have, on a card with dates, and the process stops
safely. -/
def RecoversAt (env : Env) (db : Db) (rtp : Racc) (call : Option RtExecRun) : Prop :=
  (∃ period, rtp.InPeriod period) ∧ db.books.Admits (rtExecLoad env db rtp).1 ∧
    ∃ cprice billsec, (rtExecLoad env db rtp).1.plan = .single cprice billsec ∧
      StopsSafely cprice call

/-! ## Marks -/

section Marks

variable {env : Env} (reliable : env.Reliable) {db d : Db} {mark : ℤ} {cdrId : ℕ} {leg : Leg}
include reliable

theorem cdrUpdateCdr_cdrs_congr (same : d.cdrs = db.cdrs) :
    (cdrUpdateCdr env d mark cdrId leg).cdrs = (cdrUpdateCdr env db mark cdrId leg).cdrs := by
  rw [cdrUpdateCdr, cdrUpdateCdr]
  split
  · simp only [reliable.exec, same]
  · exact same

/-- An update sets the mark of its CDR. -/
theorem cdrUpdateCdr_mark (stored : 0 < cdrId) :
    ∀ cdr ∈ (cdrUpdateCdr env db mark cdrId leg).cdrs, cdr.id = cdrId → cdr.mark leg = mark := by
  rw [cdrUpdateCdr, if_pos stored, reliable.exec]
  intro cdr member own
  obtain ⟨row, -, rfl⟩ := List.mem_map.mp member
  split at own
  · rename_i updated
    rw [if_pos updated]
    cases leg <;> rfl
  · rename_i other
    exact absurd own other

end Marks

/-! ## A call with one row -/

/-- The call has its row and is marked with it, and its card is charged. -/
structure Posted (env : Env) (db : Db) (leg : Leg) (priced : Racc) (after : Db) : Prop where
  rating : after.rating = db.rating.insert priced.ratingRow
  cdrs : after.cdrs = (cdrUpdateCdr env db db.rating.next priced.pre.cdrId leg).cdrs
  amount : ∀ period, priced.InPeriod period →
    after.books.amount period = db.books.amount period + priced.pre.cprice

/-- What a call that gets one row has done at each of its steps. -/
def OneRow (env : Env) (db : Db) (rtp : Racc) (leg : Leg) (priced : Racc) :
    Option RtExecRun → Db → Prop
  | some ⟨run, .load⟩, d => run = rtp ∧ d = db
  | some ⟨run, .check none⟩, d | some ⟨run, .add none⟩, d =>
      run = priced ∧ d.books = db.books ∧ d.cdrs = db.cdrs
  | some ⟨run, .mark⟩, d =>
      run = priced.withRatingId db.rating.next ∧ d.books = db.books.enter priced ∧ d.cdrs = db.cdrs
  | some ⟨run, .charge⟩, d =>
      run = priced.withRatingId db.rating.next ∧ d.books = db.books.enter priced ∧
        d.cdrs = (cdrUpdateCdr env db db.rating.next priced.pre.cdrId leg).cdrs
  | some ⟨_, .count⟩, d | none, d => Posted env db leg priced d
  | _, _ => False

theorem freeBillsecExec_balance (env : Env) (db : Db) (rtp : Racc) (start stop : String) :
    (freeBillsecExec env db rtp start stop).2.balance = db.balance := by
  simp only [freeBillsecExec]
  split
  · simp only [updateFreeBillsecBalance, Env.exec]
    split
    · split <;> rfl
    · rfl
  · simp only [createFreeBillsecBalance, Env.exec]
    split <;> rfl

/-- The row of the call is entered. -/
theorem rating_enter {db : Db} {priced : Racc} (admits : db.books.Admits priced) :
    (db.books.enter priced).rating = db.rating.insert priced.ratingRow := by
  rw [Books.enter, if_pos admits]
  rfl

section OneRow

variable {env : Env} (reliable : env.Reliable) {db d : Db} {rtp : Racc}
    (fresh : rtp.Fresh) (leg : Leg)
  {cprice : ℚ} {billsec : ℤ} (plan : (rtExecLoad env db rtp).1.plan = .single cprice billsec)
  (admits : db.books.Admits (rtExecLoad env db rtp).1)

include reliable fresh plan admits

omit plan in
/-- An entered and marked call is posted when its card is charged. -/
theorem posted_charge {card : Pcard}
    (card_eq : (rtExecLoad env db rtp).1.bacc.pcardPtr = some card)
    (books_eq : d.books = db.books.enter ((rtExecLoad env db rtp).1.withPrice cprice billsec))
    (cdrs_eq : d.cdrs = (cdrUpdateCdr env db db.rating.next
      ((rtExecLoad env db rtp).1.withPrice cprice billsec).pre.cdrId leg).cdrs) :
    Posted env db leg ((rtExecLoad env db rtp).1.withPrice cprice billsec)
      (rtBalanceExec env d (((rtExecLoad env db rtp).1.withPrice cprice billsec).withRatingId
        db.rating.next) card.start card.stop).2 := by
  obtain ⟨loaded, -⟩ := rtExecLoad_loaded env db rtp fresh
  obtain ⟨-, -, load_books⟩ := rtExecLoad_kept env db rtp
  obtain ⟨priced, priced_eq⟩ :
      ∃ priced, priced = (rtExecLoad env db rtp).1.withPrice cprice billsec := ⟨_, rfl⟩
  have priced_admits : db.books.Admits priced := priced_eq ▸ admits
  have has_card : priced.bacc.pcardPtr = some card := priced_eq ▸ card_eq
  rw [← priced_eq] at books_eq cdrs_eq ⊢
  have balance_eq : d.balance = (rtExecLoad env db rtp).2.balance := by
    have entered_balance : (db.books.enter priced).balance = db.balance := by
      rw [Books.enter, if_pos priced_admits]
      rfl
    exact (congrArg Books.balance books_eq).trans
      (entered_balance.trans (congrArg Books.balance load_books).symm)
  have current : (priced.withRatingId db.rating.next).Current d card.start card.stop := by
    rw [priced_eq]
    exact (loaded.current card card_eq).of_balance balance_eq
  have frame := RtExecRun.next_cdrs env d leg ⟨priced.withRatingId db.rating.next, .charge⟩
  rw [if_neg (by simp)] at frame
  refine ⟨?_, ?_, fun period in_period => ?_⟩
  · exact (rtBalanceExec_rating _ _).trans
      ((congrArg Books.rating books_eq).trans (rating_enter priced_admits))
  · refine Eq.trans ?_ (frame.trans cdrs_eq)
    simp only [RtExecRun.next, Racc.withRatingId, has_card]
  · obtain ⟨account, other, other_eq, start, stop⟩ := in_period
    obtain rfl : card = other := Option.some.inj (has_card.symm.trans other_eq)
    have account' : (priced.withRatingId db.rating.next).bacc.id = period.account := account
    rw [rtBalanceExec_books reliable current, account', start, stop, Books.charge_amount, books_eq,
      (db.books.enter_paid period priced).1]
    rfl

omit fresh plan admits in
/-- The leg is marked with the row, and then the card is charged, if there is one. -/
theorem OneRow.next_mark {priced : Racc} (books_eq : d.books = db.books.enter priced)
    (rating_eq : d.rating = db.rating.insert priced.ratingRow) (cdrs_eq : d.cdrs = db.cdrs) :
    OneRow env db rtp leg priced
      (RtExecRun.next env d leg ⟨priced.withRatingId db.rating.next, .mark⟩).1
      (RtExecRun.next env d leg ⟨priced.withRatingId db.rating.next, .mark⟩).2 := by
  have next_pos : 0 < (db.rating.next : ℤ) := Int.natCast_pos.mpr db.rating.next_pos
  have marked : (cdrUpdateCdr env d db.rating.next priced.pre.cdrId leg).cdrs =
      (cdrUpdateCdr env db db.rating.next priced.pre.cdrId leg).cdrs :=
    cdrUpdateCdr_cdrs_congr reliable cdrs_eq
  have marks : RtExecRun.next env d leg ⟨priced.withRatingId db.rating.next, .mark⟩ =
      (if priced.bacc.pcardPtr.isSome then some ⟨priced.withRatingId db.rating.next, .charge⟩
        else none,
        cdrUpdateCdr env d db.rating.next priced.pre.cdrId leg) := by
    have ratingId : (priced.withRatingId db.rating.next).pre.ratingId = db.rating.next := rfl
    simp only [RtExecRun.next, ratingId, if_neg next_pos.ne', next_pos, and_true]
    rfl
  rw [marks]
  cases card_eq : priced.bacc.pcardPtr with
  | some card => exact ⟨rfl, (cdrUpdateCdr_books reliable _ _ leg).trans books_eq, marked⟩
  | none =>
      refine ⟨(cdrUpdateCdr_rating _ _ leg).trans rating_eq, marked, ?_⟩
      rintro period ⟨-, card, has_card, -⟩
      rw [card_eq] at has_card
      cases has_card

omit plan in
/-- The card is charged, and then the seconds are counted, if there is an allowance. -/
theorem OneRow.next_charge {priced : Racc}
    (priced_eq : priced = (rtExecLoad env db rtp).1.withPrice cprice billsec)
    (books_eq : d.books = db.books.enter priced)
    (cdrs_eq : d.cdrs = (cdrUpdateCdr env db db.rating.next priced.pre.cdrId leg).cdrs) :
    OneRow env db rtp leg priced
      (RtExecRun.next env d leg ⟨priced.withRatingId db.rating.next, .charge⟩).1
      (RtExecRun.next env d leg ⟨priced.withRatingId db.rating.next, .charge⟩).2 := by
  have priced_admits : db.books.Admits priced := priced_eq ▸ admits
  have rating_eq : d.rating = db.rating.insert priced.ratingRow :=
    (congrArg Books.rating books_eq).trans (rating_enter priced_admits)
  cases card_eq : priced.bacc.pcardPtr with
  | none =>
      have ends : RtExecRun.next env d leg ⟨priced.withRatingId db.rating.next, .charge⟩ =
          (none, d) := by
        simp only [RtExecRun.next, Racc.withRatingId, card_eq]
      rw [ends]
      refine ⟨rating_eq, cdrs_eq, ?_⟩
      rintro period ⟨-, card, has_card, -⟩
      rw [card_eq] at has_card
      cases has_card
  | some card =>
      have posted := posted_charge reliable fresh leg admits (priced_eq ▸ card_eq)
        (priced_eq ▸ books_eq) (priced_eq ▸ cdrs_eq)
      rw [← priced_eq] at posted
      rcases charge : rtBalanceExec env d (priced.withRatingId db.rating.next) card.start
        card.stop with ⟨after, d'⟩
      rw [charge] at posted
      have charges : RtExecRun.next env d leg ⟨priced.withRatingId db.rating.next, .charge⟩ =
          (if after.pre.freeBillsecLimit ≠ 0 ∧ after.pre.ratingModeId < RtMode.sms.id then
            some ⟨after, .count⟩
          else none, d') := by
        have has_card : (priced.withRatingId db.rating.next).bacc.pcardPtr = some card := card_eq
        simp only [RtExecRun.next, has_card, charge]
      rw [charges]
      split
      · exact posted
      · exact posted

omit reliable fresh plan admits in
/-- Counting the seconds leaves the call posted. -/
theorem OneRow.next_count {priced run : Racc} (posted : Posted env db leg priced d) :
    OneRow env db rtp leg priced (RtExecRun.next env d leg ⟨run, .count⟩).1
      (RtExecRun.next env d leg ⟨run, .count⟩).2 := by
  have frame := RtExecRun.next_cdrs env d leg ⟨run, .count⟩
  rw [if_neg (by simp)] at frame
  have counts : RtExecRun.next env d leg ⟨run, .count⟩ =
      (none, run.bacc.pcardPtr.elim d fun card =>
        (freeBillsecExec env d run card.start card.stop).2) := by
    simp only [RtExecRun.next]
    cases run.bacc.pcardPtr <;> rfl
  rw [counts] at frame ⊢
  obtain ⟨rating_eq, cdrs_eq, amount⟩ := posted
  refine ⟨?_, frame.trans cdrs_eq, fun period in_period => ?_⟩
  · cases run.bacc.pcardPtr with
    | none => exact rating_eq
    | some card => exact (freeBillsecExec_rating _ _).trans rating_eq
  · rw [← amount period in_period, Books.amount, Books.amount]
    cases run.bacc.pcardPtr with
    | none => rfl
    | some card => exact congrArg _ (freeBillsecExec_balance env d run card.start card.stop)

/-- One step of a call that gets one row. -/
theorem OneRow.next {run : RtExecRun}
    (one : OneRow env db rtp leg ((rtExecLoad env db rtp).1.withPrice cprice billsec)
      (some run) d) :
    OneRow env db rtp leg ((rtExecLoad env db rtp).1.withPrice cprice billsec)
      (run.next env d leg).1 (run.next env d leg).2 := by
  obtain ⟨-, -, load_books⟩ := rtExecLoad_kept env db rtp
  obtain ⟨priced, priced_eq⟩ :
      ∃ priced, priced = (rtExecLoad env db rtp).1.withPrice cprice billsec := ⟨_, rfl⟩
  have priced_admits : db.books.Admits priced := priced_eq ▸ admits
  have stored : 0 < priced.pre.cdrId := priced_admits.1
  rw [← priced_eq] at one ⊢
  rcases run with ⟨run, pc⟩
  cases pc with
  | load =>
      obtain ⟨rfl, rfl⟩ := one
      have frame := RtExecRun.next_cdrs env d leg ⟨run, .load⟩
      have price_eq := (rtExecLoad env d run).1.price_eq
      rw [plan] at price_eq
      rw [if_neg (by simp)] at frame
      have loads : RtExecRun.next env d leg ⟨run, .load⟩ =
          (some (rtExecLoad env d run).1.price, (rtExecLoad env d run).2) := rfl
      rw [loads, price_eq, ← priced_eq]
      rw [loads] at frame
      exact ⟨rfl, load_books, frame⟩
  | check rest =>
      cases rest with
      | some rest => exact one.elim
      | none =>
          obtain ⟨rfl, books_eq, cdrs_eq⟩ := one
          have rating_eq : d.rating = db.rating := congrArg Books.rating books_eq
          have absent : db.rating.select
              (RatingRow.isOf run.pre.cdrId run.bacc.id run.pre.rateId) = [] := priced_admits.2
          simp only [RtExecRun.next, if_pos stored, reliable.select, rating_eq, absent]
          exact ⟨rfl, books_eq, cdrs_eq⟩
  | add rest =>
      cases rest with
      | some rest => exact one.elim
      | none =>
          obtain ⟨rfl, books_eq, cdrs_eq⟩ := one
          have rating_eq : d.rating = db.rating := congrArg Books.rating books_eq
          simp only [RtExecRun.next, reliable .ratingAdd, Bool.false_eq_true, if_false, rating_eq]
          refine ⟨rfl, ?_, cdrs_eq⟩
          rw [Books.enter, if_pos priced_admits, ← books_eq]
          simp only [Db.books, rating_eq]
  | mark =>
      obtain ⟨rfl, books_eq, cdrs_eq⟩ := one
      have rating_eq := (congrArg Books.rating books_eq).trans (rating_enter priced_admits)
      exact .next_mark reliable leg books_eq rating_eq cdrs_eq
  | charge =>
      obtain ⟨rfl, books_eq, cdrs_eq⟩ := one
      exact .next_charge reliable fresh leg admits priced_eq books_eq cdrs_eq
  | count => exact .next_count leg one
  | splitCharge => exact one.elim
  | splitCount => exact one.elim

end OneRow

/-! ## A call that gets no mark of its own -/

/-- Two records with the same row. -/
structure Racc.SameRow (rtp rtp' : Racc) : Prop where
  cdrId : rtp'.pre.cdrId = rtp.pre.cdrId
  bacc : rtp'.bacc = rtp.bacc
  rateId : rtp'.pre.rateId = rtp.pre.rateId

theorem Racc.SameRow.admits_iff {rtp rtp' : Racc} (same : rtp.SameRow rtp') (books : Books) :
    books.Admits rtp' ↔ books.Admits rtp := by
  rw [Books.Admits, Books.Admits, same.cdrId, same.bacc, same.rateId]

theorem Racc.SameRow.of_sameCall {rtp rtp' rtp'' : Racc} (same : rtp.SameRow rtp')
    (call : rtp'.SameCall rtp'') : rtp.SameRow rtp'' :=
  ⟨call.pre.cdrId.trans same.cdrId, call.bacc.trans same.bacc, call.pre.rateId.trans same.rateId⟩

/-- What a call that is split, has no price or has its row already is at: from its first row on it
is taken for a rated one. -/
def Lost (env : Env) (db : Db) (rtp : Racc) (leg : Leg) : Option RtExecRun → Db → Prop
  | none, d => d.cdrs = (cdrUpdateCdr env db (-1) rtp.pre.cdrId leg).cdrs
  | some run, d =>
      d.cdrs = db.cdrs ∧
        match run.pc with
        | .load => run.rtp = rtp ∧ d = db
        | .check (some _) | .add (some _) =>
            (rtExecLoad env db rtp).1.SameRow run.rtp ∧ d.books = db.books
        | .check none | .splitCharge | .splitCount =>
            (rtExecLoad env db rtp).1.SameRow run.rtp ∧
              ¬ d.books.Admits (rtExecLoad env db rtp).1
        | .mark =>
            run.rtp.pre.cdrId = rtp.pre.cdrId ∧
              (run.rtp.pre.ratingId = 0 ∨ run.rtp.pre.ratingId = -1) ∧
                (¬ d.books.Admits (rtExecLoad env db rtp).1 ∨ d.books = db.books)
        | .add none | .charge | .count => False

section Lost

variable {env : Env} {db d : Db} {rtp : Racc} {leg : Leg}

/-- At every step the call has its row or the books are as they were. -/
theorem Lost.left {run : RtExecRun} (lost : Lost env db rtp leg (some run) d) :
    ¬ d.books.Admits (rtExecLoad env db rtp).1 ∨ d.books = db.books := by
  obtain ⟨-, at_pc⟩ := lost
  rcases run with ⟨run, pc⟩
  cases pc with
  | load => exact .inr (congrArg Db.books at_pc.2)
  | check rest =>
      cases rest with
      | none => exact .inl at_pc.2
      | some rest => exact .inr at_pc.2
  | add rest =>
      cases rest with
      | none => exact at_pc.elim
      | some rest => exact .inr at_pc.2
  | splitCharge => exact .inl at_pc.2
  | splitCount => exact .inl at_pc.2
  | mark => exact at_pc.2.2
  | charge => exact at_pc.elim
  | count => exact at_pc.elim

/-- The rest of a split is priced after its first row. -/
theorem Lost.of_pricePaid {rest : Racc} (same : (rtExecLoad env db rtp).1.SameRow rest)
    (rated : ¬ d.books.Admits (rtExecLoad env db rtp).1) (cdrs_eq : d.cdrs = db.cdrs) :
    Lost env db rtp leg (some rest.pricePaid) d := by
  obtain ⟨-, kept, -⟩ := rtExecLoad_kept env db rtp
  have call := calcCpriceGroup_sameCall rest
  rw [Racc.pricePaid]
  rcases priced_eq : calcCpriceGroup rest with ⟨ret, priced⟩
  rw [priced_eq] at call
  have priced_same := same.of_sameCall call
  dsimp only
  split
  · exact ⟨cdrs_eq, priced_same.cdrId.trans kept.cdrId, .inr rfl, .inl rated⟩
  · exact ⟨cdrs_eq, priced_same, rated⟩

/-- The first row of a split is written or was there. -/
theorem Lost.of_saved {free : Racc} (rest : ℤ) (same : (rtExecLoad env db rtp).1.SameRow free)
    (rated : ¬ d.books.Admits (rtExecLoad env db rtp).1) (cdrs_eq : d.cdrs = db.cdrs) :
    Lost env db rtp leg (some (free.saved (some rest))) d := by
  have same' : (rtExecLoad env db rtp).1.SameRow (free.withBillsec rest) :=
    ⟨same.cdrId, same.bacc, same.rateId⟩
  simp only [Racc.saved]
  split
  · exact ⟨cdrs_eq, same', rated⟩
  · exact .of_pricePaid same' rated cdrs_eq

/-- A call that is loaded is priced, but gets no row of its own. -/
theorem Lost.next_load (bars : ∀ cprice billsec,
      (rtExecLoad env db rtp).1.plan = .single cprice billsec →
        ¬ db.books.Admits (rtExecLoad env db rtp).1) :
    Lost env db rtp leg (RtExecRun.next env db leg ⟨rtp, .load⟩).1
      (RtExecRun.next env db leg ⟨rtp, .load⟩).2 := by
  obtain ⟨-, kept, load_books⟩ := rtExecLoad_kept env db rtp
  have price_eq := (rtExecLoad env db rtp).1.price_eq
  obtain ⟨keeps, -⟩ := RtExecRun.price_keeps (rtExecLoad env db rtp).1
  have frame := RtExecRun.next_cdrs env db leg ⟨rtp, .load⟩
  rw [if_neg (by simp)] at frame
  have loads : RtExecRun.next env db leg ⟨rtp, .load⟩ =
      (some (rtExecLoad env db rtp).1.price, (rtExecLoad env db rtp).2) := rfl
  rw [loads] at frame ⊢
  cases plan : (rtExecLoad env db rtp).1.plan with
  | unrated =>
      rw [plan] at price_eq
      refine ⟨frame, ?_⟩
      rw [price_eq.1]
      exact ⟨keeps.cdrId.trans kept.cdrId, .inr price_eq.2, .inr load_books⟩
  | single cprice billsec =>
      rw [plan] at price_eq
      dsimp only at price_eq
      rw [price_eq]
      refine ⟨frame, ⟨rfl, rfl, rfl⟩, ?_⟩
      rw [load_books]
      exact bars cprice billsec plan
  | split cprice billsec =>
      rw [plan] at price_eq
      obtain ⟨rest, price_eq⟩ := price_eq
      rw [price_eq]
      exact ⟨frame, ⟨rfl, rfl, rfl⟩, load_books⟩

/-- A rated call finds its row. -/
theorem Lost.next_check_none (reliable : env.Reliable) (stored : 0 < rtp.pre.cdrId) {run : Racc}
    (same : (rtExecLoad env db rtp).1.SameRow run)
    (rated : ¬ d.books.Admits (rtExecLoad env db rtp).1) (cdrs_eq : d.cdrs = db.cdrs) :
    Lost env db rtp leg (RtExecRun.next env d leg ⟨run, .check none⟩).1
      (RtExecRun.next env d leg ⟨run, .check none⟩).2 := by
  obtain ⟨-, kept, -⟩ := rtExecLoad_kept env db rtp
  have run_stored : 0 < run.pre.cdrId := by
    rw [same.cdrId, kept.cdrId]
    exact stored
  have run_rated : ¬ d.books.Admits run := (same.admits_iff _).not.mpr rated
  obtain ⟨row, rows, found⟩ := List.exists_cons_of_ne_nil fun absent =>
    run_rated ⟨run_stored, absent⟩
  have selects : d.rating.select (RatingRow.isOf run.pre.cdrId run.bacc.id run.pre.rateId) =
      row :: rows := found
  simp only [RtExecRun.next, if_pos run_stored, reliable.select, selects, Racc.saved]
  exact ⟨cdrs_eq, same.cdrId.trans kept.cdrId, .inl rfl, .inl rated⟩

/-- The first part of a split finds its row or is about to be added. -/
theorem Lost.next_check_some (reliable : env.Reliable) (stored : 0 < rtp.pre.cdrId) {run : Racc}
    (rest : ℤ) (same : (rtExecLoad env db rtp).1.SameRow run) (books_eq : d.books = db.books)
    (cdrs_eq : d.cdrs = db.cdrs) :
    Lost env db rtp leg (RtExecRun.next env d leg ⟨run, .check (some rest)⟩).1
      (RtExecRun.next env d leg ⟨run, .check (some rest)⟩).2 := by
  obtain ⟨-, kept, -⟩ := rtExecLoad_kept env db rtp
  have run_stored : 0 < run.pre.cdrId := by
    rw [same.cdrId, kept.cdrId]
    exact stored
  cases selects : d.rating.select (RatingRow.isOf run.pre.cdrId run.bacc.id run.pre.rateId) with
  | nil =>
      simp only [RtExecRun.next, if_pos run_stored, reliable.select, selects]
      exact ⟨cdrs_eq, same, books_eq⟩
  | cons row rows =>
      have run_rated : ¬ d.books.Admits run := fun admits => by
        have absent : d.rating.select
            (RatingRow.isOf run.pre.cdrId run.bacc.id run.pre.rateId) = [] := admits.2
        rw [selects] at absent
        cases absent
      simp only [RtExecRun.next, if_pos run_stored, reliable.select, selects]
      exact .of_saved rest ⟨same.cdrId, same.bacc, same.rateId⟩
        ((same.admits_iff _).not.mp run_rated) cdrs_eq

/-- The charge and the count of the first part leave its row. -/
theorem Lost.next_split {run : Racc} {pc : RtExecPc} (split : pc = .splitCharge ∨ pc = .splitCount)
    (same : (rtExecLoad env db rtp).1.SameRow run)
    (rated : ¬ d.books.Admits (rtExecLoad env db rtp).1) (cdrs_eq : d.cdrs = db.cdrs) :
    Lost env db rtp leg (RtExecRun.next env d leg ⟨run, pc⟩).1
      (RtExecRun.next env d leg ⟨run, pc⟩).2 := by
  have frame := RtExecRun.next_cdrs env d leg ⟨run, pc⟩
  have rated_of {d' : Db} (rating_eq : d'.rating = d.rating) :
      ¬ d'.books.Admits (rtExecLoad env db rtp).1 := by
    rw [Books.Admits, Db.books, rating_eq]
    exact rated
  cases card_eq : run.bacc.pcardPtr with
  | none =>
      rcases split with rfl | rfl <;>
      · simp only [RtExecRun.next, card_eq]
        exact .of_pricePaid same rated cdrs_eq
  | some card =>
      rcases split with rfl | rfl
      · have call := rtBalanceExec_sameCall env d run card.start card.stop
        have rating_eq : (rtBalanceExec env d run card.start card.stop).2.rating = d.rating :=
          rtBalanceExec_rating _ _
        rw [if_neg (by simp)] at frame
        simp only [RtExecRun.next, card_eq] at frame ⊢
        rcases charge : rtBalanceExec env d run card.start card.stop with ⟨after, d'⟩
        rw [charge] at call rating_eq frame
        have after_same := same.of_sameCall call
        split
        · exact ⟨frame.trans cdrs_eq, after_same, rated_of rating_eq⟩
        · exact .of_pricePaid after_same (rated_of rating_eq) (frame.trans cdrs_eq)
      · have call := freeBillsecExec_sameCall env d run card.start card.stop
        rw [if_neg (by simp)] at frame
        simp only [RtExecRun.next, card_eq] at frame ⊢
        exact .of_pricePaid (same.of_sameCall call) (rated_of (freeBillsecExec_rating _ _))
          (frame.trans cdrs_eq)

/-- One step of a call that gets no mark of its own. -/
theorem Lost.next (reliable : env.Reliable) (stored : 0 < rtp.pre.cdrId)
    (bars : ∀ cprice billsec, (rtExecLoad env db rtp).1.plan = .single cprice billsec →
      ¬ db.books.Admits (rtExecLoad env db rtp).1) {run : RtExecRun}
    (lost : Lost env db rtp leg (some run) d) :
    Lost env db rtp leg (run.next env d leg).1 (run.next env d leg).2 := by
  obtain ⟨cdrs_eq, at_pc⟩ := lost
  rcases run with ⟨run, pc⟩
  cases pc with
  | load =>
      obtain ⟨rfl, rfl⟩ := at_pc
      exact .next_load bars
  | check rest =>
      cases rest with
      | none => exact .next_check_none reliable stored at_pc.1 at_pc.2 cdrs_eq
      | some rest => exact .next_check_some reliable stored rest at_pc.1 at_pc.2 cdrs_eq
  | add rest =>
      cases rest with
      | none => exact at_pc.elim
      | some rest =>
          obtain ⟨same, -⟩ := at_pc
          simp only [RtExecRun.next, reliable .ratingAdd, Bool.false_eq_true, if_false]
          refine .of_saved rest ⟨same.cdrId, same.bacc, same.rateId⟩ ?_ cdrs_eq
          rw [← same.admits_iff, Books.Admits, Db.books, SerialTable.select_insert]
          simp [RatingRow.isOf, Racc.ratingRow]
  | splitCharge => exact .next_split (.inl rfl) at_pc.1 at_pc.2 cdrs_eq
  | splitCount => exact .next_split (.inr rfl) at_pc.1 at_pc.2 cdrs_eq
  | mark =>
      obtain ⟨cdrId_eq, at_mark, -⟩ := at_pc
      have ratingId : run.pre.ratingId = 0 ∨ run.pre.ratingId = -1 := at_mark
      have ends : RtExecRun.next env d leg ⟨run, .mark⟩ =
          (none, cdrUpdateCdr env d (-1) run.pre.cdrId leg) := by
        rcases ratingId with ratingId | ratingId <;> simp [RtExecRun.next, ratingId]
      rw [ends, cdrId_eq]
      exact cdrUpdateCdr_cdrs_congr reliable cdrs_eq
  | charge => exact at_pc.elim
  | count => exact at_pc.elim

end Lost

/-! ## Outcomes -/

/-- The steps of a call are a run of it. -/
theorem RtExecRun.reaches_steps (env : Env) (leg : Leg) (n : ℕ) (state : Option RtExecRun × Db) :
    Reaches env leg state (steps env leg n state) := by
  induction n generalizing state with
  | zero => exact .refl
  | succ n induction =>
      rcases state with ⟨call, db⟩
      cases call with
      | none => exact .refl
      | some run => exact .head ⟨run, rfl, rfl⟩ (induction _)

/-- What every step of a call keeps holds after a run of it. -/
theorem RtExecRun.Reaches.preserves {env : Env} {leg : Leg} {holds : Option RtExecRun → Db → Prop}
    {state after : Option RtExecRun × Db} (reaches : Reaches env leg state after)
    (preserved : ∀ run db, holds (some run) db →
      holds (run.next env db leg).1 (run.next env db leg).2)
    (start : holds state.1 state.2) : holds after.1 after.2 := by
  induction reaches with
  | refl => exact start
  | tail _ goes induction =>
      obtain ⟨run, call_eq, rfl⟩ := goes
      rw [call_eq] at induction
      exact preserved run _ induction

section Outcome

variable {env : Env} (reliable : env.Reliable) {db d : Db} {rtp : Racc} {leg : Leg}

/-- The call of a record that is marked `-1` is not marked with a row. -/
theorem not_ratedOnceIn_of_lost (reliable : env.Reliable) (stored : 0 < rtp.pre.cdrId)
    {before after : Db}
    (cdrs_eq : after.cdrs = (cdrUpdateCdr env d (-1) rtp.pre.cdrId leg).cdrs) :
    ¬ RatedOnceIn rtp leg before after := by
  rintro ⟨-, id, -, -, -, -, -, ⟨cdr, member, own, mark⟩, -⟩
  rw [cdrs_eq] at member
  rw [cdrUpdateCdr_mark reliable stored cdr member own] at mark
  exact absurd mark (by omega)

/-- A call that is posted to its card is rated once. -/
theorem Posted.ratedOnceIn {priced : Racc} {after : Db} (posted : Posted env db leg priced after)
    (reliable : env.Reliable) (cdrId_eq : priced.pre.cdrId = rtp.pre.cdrId)
    (bacc_eq : priced.bacc = rtp.bacc) (stored : rtp.pre.cdrId ∈ db.cdrIds)
    (positive : 0 < rtp.pre.cdrId) {period : Period} (in_period : rtp.InPeriod period) :
    RatedOnceIn rtp leg db after := by
  have in_period' : priced.InPeriod period := by
    rw [Racc.InPeriod, bacc_eq]
    exact in_period
  refine ⟨period, db.rating.next, priced.ratingRow, in_period, ?_, cdrId_eq,
    congrArg Bacc.id bacc_eq, ?_, posted.amount period in_period'⟩
  · rw [posted.rating]
    exact List.mem_append_right _ (List.mem_singleton_self _)
  · have cdrs_eq := posted.cdrs
    rw [cdrId_eq] at cdrs_eq
    have kept : rtp.pre.cdrId ∈ (cdrUpdateCdr env db db.rating.next rtp.pre.cdrId leg).cdrIds := by
      rw [cdrUpdateCdr_cdrIds reliable]
      exact stored
    obtain ⟨cdr, member, own⟩ := List.mem_map.mp kept
    refine ⟨cdr, cdrs_eq ▸ member, own, ?_⟩
    exact cdrUpdateCdr_mark reliable positive cdr member own

omit reliable in
theorem RatedOnceIn.of_books {before before' after : Db} (same : before'.books = before.books)
    (rated : RatedOnceIn rtp leg before after) : RatedOnceIn rtp leg before' after := by
  rw [RatedOnceIn, same]
  exact rated

include reliable

/-- A whole run of a call that gets one row. -/
theorem rtExec_posted (fresh : rtp.Fresh) {cprice : ℚ} {billsec : ℤ}
    (plan : (rtExecLoad env db rtp).1.plan = .single cprice billsec)
    (admits : db.books.Admits (rtExecLoad env db rtp).1) :
    Posted env db leg ((rtExecLoad env db rtp).1.withPrice cprice billsec)
      (rtExec env db rtp leg).2 :=
  (RtExecRun.reaches_rtExec env db leg rtp).preserves
    (fun _ _ one => OneRow.next reliable fresh leg plan admits one) ⟨rfl, rfl⟩

/-- A whole run of a call that gets no mark of its own. -/
theorem rtExec_lost (stored : 0 < rtp.pre.cdrId)
    (bars : ∀ cprice billsec, (rtExecLoad env db rtp).1.plan = .single cprice billsec →
      ¬ db.books.Admits (rtExecLoad env db rtp).1) :
    (rtExec env db rtp leg).2.cdrs = (cdrUpdateCdr env db (-1) rtp.pre.cdrId leg).cdrs :=
  (RtExecRun.reaches_rtExec env db leg rtp).preserves
    (fun _ _ lost => Lost.next reliable stored bars lost) ⟨rfl, rfl, rfl⟩

/-- A second run of a call that has its row, or that got none before. -/
theorem not_ratedOnceIn_again (stored : 0 < rtp.pre.cdrId) (bars : ∀ cprice billsec,
      (rtExecLoad env db rtp).1.plan = .single cprice billsec →
        ¬ db.books.Admits (rtExecLoad env db rtp).1)
    (left : ¬ d.books.Admits (rtExecLoad env db rtp).1 ∨ d.books = db.books) :
    ¬ RatedOnceIn rtp leg db (rtExec env d rtp leg).2 := by
  refine not_ratedOnceIn_of_lost reliable stored (rtExec_lost reliable stored ?_)
  intro cprice billsec plan
  rw [d.books.admits_load_iff env db d rtp]
  rcases left with rated | same
  · exact rated
  · rw [rtExecLoad_of_books same] at plan
    rw [same]
    exact bars cprice billsec plan

/-- A second run of a call that got no row before. -/
theorem ratedOnceIn_again (fresh : rtp.Fresh) {cprice : ℚ} {billsec : ℤ}
    (plan : (rtExecLoad env db rtp).1.plan = .single cprice billsec)
    (admits : db.books.Admits (rtExecLoad env db rtp).1) (books_eq : d.books = db.books)
    (cdrs_eq : d.cdrs = db.cdrs) (stored : rtp.pre.cdrId ∈ db.cdrIds) {period : Period}
    (in_period : rtp.InPeriod period) : RatedOnceIn rtp leg db (rtExec env d rtp leg).2 := by
  obtain ⟨bacc_eq, kept, -⟩ := rtExecLoad_kept env d rtp
  have load_eq : (rtExecLoad env d rtp).1 = (rtExecLoad env db rtp).1 :=
    rtExecLoad_of_books books_eq rtp
  have positive : 0 < rtp.pre.cdrId := by
    rw [← (rtExecLoad_kept env db rtp).2.1.cdrId]
    exact admits.1
  have posted : Posted env d leg ((rtExecLoad env d rtp).1.withPrice cprice billsec)
      (rtExec env d rtp leg).2 := by
    refine rtExec_posted reliable fresh ?_ ?_
    · rw [load_eq]
      exact plan
    · rw [load_eq, books_eq]
      exact admits
  have stored' : rtp.pre.cdrId ∈ d.cdrIds := by
    rw [Db.cdrIds, cdrs_eq]
    exact stored
  exact .of_books books_eq.symm
    (posted.ratedOnceIn reliable kept.cdrId bacc_eq stored' positive in_period)

end Outcome

/-- What a call that gets one row leaves when it is marked and not charged. -/
theorem ratedOnceIn_uncharged_iff {env : Env} (reliable : env.Reliable) {db d : Db}
    {rtp priced : Racc}
    {leg : Leg} (cdrId_eq : priced.pre.cdrId = rtp.pre.cdrId) (bacc_eq : priced.bacc = rtp.bacc)
    (admits : db.books.Admits priced) (stored : rtp.pre.cdrId ∈ db.cdrIds)
    (books_eq : d.books = db.books.enter priced)
    (cdrs_eq : d.cdrs = (cdrUpdateCdr env db db.rating.next priced.pre.cdrId leg).cdrs) :
    RatedOnceIn rtp leg db d ↔ (∃ period, rtp.InPeriod period) ∧ priced.pre.cprice = 0 := by
  have positive : 0 < rtp.pre.cdrId := cdrId_eq ▸ admits.1
  rw [cdrId_eq] at cdrs_eq
  have rating_eq : d.rating = db.rating.insert priced.ratingRow := by
    have entered := congrArg Books.rating books_eq
    rw [Books.enter, if_pos admits] at entered
    exact entered
  have amount_eq (period : Period) : d.books.amount period = db.books.amount period := by
    rw [books_eq, (db.books.enter_paid period priced).1]
  constructor
  · rintro ⟨period, id, row, in_period, member, -, -, ⟨cdr, cdr_mem, own, mark⟩, amount⟩
    rw [cdrs_eq] at cdr_mem
    rw [cdrUpdateCdr_mark reliable positive cdr cdr_mem own] at mark
    obtain rfl : db.rating.next = id := by exact_mod_cast mark
    rw [rating_eq] at member
    have row_eq : row = priced.ratingRow := by
      rcases List.mem_append.mp member with old | new
      · exact absurd (db.rating.key_lt _ old) (lt_irrefl _)
      · exact (Prod.mk.inj (List.mem_singleton.mp new)).2
    rw [amount_eq, left_eq_add, row_eq] at amount
    exact ⟨⟨period, in_period⟩, amount⟩
  · rintro ⟨⟨period, in_period⟩, free⟩
    have kept : rtp.pre.cdrId ∈ (cdrUpdateCdr env db db.rating.next rtp.pre.cdrId leg).cdrIds := by
      rw [cdrUpdateCdr_cdrIds reliable]
      exact stored
    obtain ⟨cdr, member, own⟩ := List.mem_map.mp kept
    refine ⟨period, db.rating.next, priced.ratingRow, in_period, ?_, cdrId_eq,
      congrArg Bacc.id bacc_eq, ⟨cdr, cdrs_eq ▸ member, own, ?_⟩, ?_⟩
    · rw [rating_eq]
      exact List.mem_append_right _ (List.mem_singleton_self _)
    · exact cdrUpdateCdr_mark reliable positive cdr member own
    · rw [amount_eq]
      exact (add_eq_left.mpr free).symm

/-! ## Recovery -/

section Recovery

variable {job : Job} {rtp : Racc} (record : job.record = some rtp) {db d : Db}
include record

/-- The second run on the CDR of a record. -/
theorem Job.rerun_eq : job.rerun d =
    if d.Marked job.leg job.cdr.id then d else (rtExec job.env d rtp job.leg).2 := by
  rw [Job.record] at record
  rw [Job.rerun, Job.rate, rtMain, record]

/-- A CDR that was marked by an update is left alone by the second run. -/
theorem Job.rerun_of_marked {mark : ℤ} (mark_ne : mark ≠ 0) (positive : 0 < job.cdr.id)
    (stored : job.cdr.id ∈ db.cdrIds)
    (cdrs_eq : d.cdrs = (cdrUpdateCdr job.env db mark job.cdr.id job.leg).cdrs) :
    job.rerun d = d := by
  rw [Job.rerun_eq record, if_pos]
  rw [Db.Marked.of_cdrs cdrs_eq, cdrUpdateCdr_marked job.reliable db _ _ mark_ne positive]
  exact .inr ⟨rfl, rfl, stored⟩

theorem Job.cdrId_of_record : rtp.pre.cdrId = job.cdr.id := by
  obtain ⟨-, mode, pre_eq⟩ := Job.record_frame record
  rw [pre_eq]
  rfl

/-- A CDR that was not marked is rated again. -/
theorem Job.rerun_of_unmarked (unmarked : ¬ db.Marked job.leg job.cdr.id)
    (cdrs_eq : d.cdrs = db.cdrs) : job.rerun d = (rtExec job.env d rtp job.leg).2 := by
  rw [Job.rerun_eq record, if_neg]
  rw [Db.Marked.of_cdrs cdrs_eq]
  exact unmarked

/-- The second run of a call that gets one row. -/
theorem ratedOnceIn_rerun_iff (stored : job.cdr.id ∈ db.cdrIds) (positive : 0 < job.cdr.id)
    (unmarked : ¬ db.Marked job.leg job.cdr.id) {cprice : ℚ} {billsec : ℤ}
    (plan : (rtExecLoad job.env db rtp).1.plan = .single cprice billsec)
    (admits : db.books.Admits (rtExecLoad job.env db rtp).1) {call : Option RtExecRun}
    (one : OneRow job.env db rtp job.leg
      ((rtExecLoad job.env db rtp).1.withPrice cprice billsec) call d) :
    RatedOnceIn rtp job.leg db (job.rerun d) ↔
      (∃ period, rtp.InPeriod period) ∧ StopsSafely cprice call := by
  have fresh := Job.fresh_of_record record
  have cdrId_eq := Job.cdrId_of_record record
  have rtp_stored : rtp.pre.cdrId ∈ db.cdrIds := cdrId_eq ▸ stored
  have rtp_positive : 0 < rtp.pre.cdrId := cdrId_eq ▸ positive
  obtain ⟨bacc_eq, kept, -⟩ := rtExecLoad_kept job.env db rtp
  -- what is left when the process stops before the row, and after the charge
  have unwritten {d : Db} (books_eq : d.books = db.books) (cdrs_eq : d.cdrs = db.cdrs) :
      RatedOnceIn rtp job.leg db (job.rerun d) ↔ ∃ period, rtp.InPeriod period := by
    rw [Job.rerun_of_unmarked record unmarked cdrs_eq]
    refine ⟨fun ⟨period, _, _, in_period, _⟩ => ⟨period, in_period⟩, ?_⟩
    rintro ⟨period, in_period⟩
    exact ratedOnceIn_again job.reliable fresh plan admits books_eq cdrs_eq rtp_stored in_period
  have next_ne : (db.rating.next : ℤ) ≠ 0 := (Int.natCast_pos.mpr db.rating.next_pos).ne'
  have rerun_of_next {d : Db} (cdrs_eq : d.cdrs = (cdrUpdateCdr job.env db db.rating.next
      (rtExecLoad job.env db rtp).1.pre.cdrId job.leg).cdrs) : job.rerun d = d := by
    rw [kept.cdrId, cdrId_eq] at cdrs_eq
    exact Job.rerun_of_marked record next_ne positive stored cdrs_eq
  have settled {d : Db} (posted : Posted job.env db job.leg
      ((rtExecLoad job.env db rtp).1.withPrice cprice billsec) d) :
      RatedOnceIn rtp job.leg db (job.rerun d) ↔ ∃ period, rtp.InPeriod period := by
    rw [rerun_of_next posted.cdrs]
    refine ⟨fun ⟨period, _, _, in_period, _⟩ => ⟨period, in_period⟩, ?_⟩
    rintro ⟨period, in_period⟩
    exact posted.ratedOnceIn job.reliable kept.cdrId bacc_eq rtp_stored rtp_positive in_period
  rcases call with _ | ⟨run, pc⟩
  · rw [settled one, StopsSafely, and_true]
  cases pc with
  | load =>
      obtain ⟨-, rfl⟩ := one
      rw [unwritten rfl rfl, StopsSafely, and_true]
  | check rest =>
      cases rest with
      | some rest => exact one.elim
      | none => rw [unwritten one.2.1 one.2.2, StopsSafely, and_true]
  | add rest =>
      cases rest with
      | some rest => exact one.elim
      | none => rw [unwritten one.2.1 one.2.2, StopsSafely, and_true]
  | splitCharge => exact one.elim
  | splitCount => exact one.elim
  | mark =>
      obtain ⟨-, books_eq, cdrs_eq⟩ := one
      rw [Job.rerun_of_unmarked record unmarked cdrs_eq]
      refine iff_of_false ?_ fun ⟨_, stops⟩ => stops
      -- the row is there, and the second run takes the call for a rated one
      have rated : ¬ d.books.Admits (rtExecLoad job.env db rtp).1 := by
        rw [books_eq]
        exact Books.not_admits_enter db.books
          ((rtExecLoad job.env db rtp).1.withPrice cprice billsec)
      refine not_ratedOnceIn_of_lost job.reliable rtp_positive
        (rtExec_lost job.reliable rtp_positive fun _ _ _ => ?_)
      rw [d.books.admits_load_iff job.env db d rtp]
      exact rated
  | charge =>
      obtain ⟨-, books_eq, cdrs_eq⟩ := one
      rw [rerun_of_next cdrs_eq]
      have uncharged : RatedOnceIn rtp job.leg db d ↔ (∃ period, rtp.InPeriod period) ∧
          ((rtExecLoad job.env db rtp).1.withPrice cprice billsec).pre.cprice = 0 :=
        ratedOnceIn_uncharged_iff job.reliable kept.cdrId bacc_eq admits rtp_stored
          books_eq cdrs_eq
      exact uncharged
  | count => rw [settled one, StopsSafely, and_true]

/-- The second run of a call that gets no row or two. -/
theorem not_ratedOnceIn_rerun (stored : job.cdr.id ∈ db.cdrIds) (positive : 0 < job.cdr.id)
    (unmarked : ¬ db.Marked job.leg job.cdr.id)
    (bars : ∀ cprice billsec, (rtExecLoad job.env db rtp).1.plan = .single cprice billsec →
      ¬ db.books.Admits (rtExecLoad job.env db rtp).1)
    {call : Option RtExecRun} (lost : Lost job.env db rtp job.leg call d) :
    ¬ RatedOnceIn rtp job.leg db (job.rerun d) := by
  have cdrId_eq := Job.cdrId_of_record record
  have rtp_positive : 0 < rtp.pre.cdrId := cdrId_eq ▸ positive
  cases call with
  | none =>
      have cdrs_eq : d.cdrs = (cdrUpdateCdr job.env db (-1) rtp.pre.cdrId job.leg).cdrs := lost
      rw [cdrId_eq] at cdrs_eq
      rw [Job.rerun_of_marked record (by decide) positive stored cdrs_eq]
      exact not_ratedOnceIn_of_lost job.reliable rtp_positive lost
  | some run =>
      rw [Job.rerun_of_unmarked record unmarked lost.1]
      exact not_ratedOnceIn_again job.reliable rtp_positive bars lost.left

end Recovery

end RateEngine
