import RateEngine.Lib.GuardedRun
import RateEngine.RatingRefinement

/-!
# Conservation

Over a run of rating in one balance period the balance should grow by the prices of the paid rows.
A row of a call inside the free seconds carries a negated price, and `rt_balance_exec` adds it all
the same, so the balance shrinks by the price of every free call.  This file states on which calls
the balance moves by the paid rows only, and proves that a run of such calls conserves the account.
-/

namespace RateEngine

/-! ## The account of a period -/

/-- A balance period of an account; a card without dates has none. -/
structure Period where
  account : ℕ
  start : String
  stop : String
  start_ne : start ≠ ""
  stop_ne : stop ≠ ""

/-- A CDR of the account whose card has the dates of the period. -/
structure PeriodJob (period : Period) extends Job where
  inPeriod : ∀ rtp, toJob.record = some rtp →
    rtp.bacc.id = period.account ∧
      ∃ card, rtp.bacc.pcardPtr = some card ∧ card.start = period.start ∧ card.stop = period.stop

/-- The record of a CDR of the period before it is rated. -/
structure PeriodRecord (period : Period) where
  rtp : Racc
  fresh : rtp.Fresh
  account : rtp.bacc.id = period.account
  card : Pcard
  card_eq : rtp.bacc.pcardPtr = some card
  start_eq : card.start = period.start
  stop_eq : card.stop = period.stop

/-- The amount of a balance row in the period. -/
def Period.amountOf (period : Period) (row : BalanceRow) : ℚ :=
  if row.isActiveFor period.account period.start period.stop then row.amount else 0

/-- The balance of the period. -/
def Books.amount (books : Books) (period : Period) : ℚ := books.balance.total period.amountOf

/-- The price of a paid row. -/
def RatingRow.paid (row : RatingRow) : ℚ := if 0 < row.callPrice then row.callPrice else 0

/-- The rating rows written between two states. -/
def writtenSince (before after : Db) : List RatingRow :=
  (after.rating.rows.drop before.rating.rows.length).map Prod.snd

/-- The balance grew by the prices of the paid rows. -/
def Conserved (period : Period) (before after : Db) : Prop :=
  after.books.amount period =
    before.books.amount period + ((writtenSince before after).map RatingRow.paid).sum

instance (period : Period) (before after : Db) : Decidable (Conserved period before after) :=
  inferInstanceAs (Decidable (_ = _))

/-! ## Calls that conserve -/

/-- The condition on a loaded call.  Without an allowance its price is not negative; inside the
allowance the price, which is stored negated, is not positive; across the end of the allowance the
same holds of the free part, which is charged again even when the call has its row. -/
def Racc.ChargesOnlyPaid (rtp : Racc) (unrated : Prop) : Prop :=
  ∀ tr, rtp.bplan.calcFuncs = some tr →
    let call := calcCprice2Totals tr rtp.pre.billsec
    let free := calcCprice2Totals tr rtp.freeSec
    let again := calcCprice2Totals tr call.billsec
    ¬ 0 < call.checksec →
      if ¬ rtp.HasAllowance then unrated → 0 ≤ call.cprice
      else if call.billsec ≤ rtp.freeSec then unrated → call.cprice ≤ 0
      else
        ¬ 0 < free.checksec →
          if free.billsec ≤ rtp.freeSec then
            free.cprice ≤ 0 ∧ (¬ unrated → free.cprice = 0)
          else
            ¬ 0 < again.checksec → unrated →
              if again.billsec ≤ rtp.freeSec then again.cprice ≤ 0 else 0 ≤ again.cprice

/-- The condition on a CDR in a state: it holds of the record that loading gives. -/
def Job.ChargesOnlyPaid (db : Db) (job : Job) : Prop :=
  ∀ rtp, job.record = some rtp →
    (rtExecLoad job.env db rtp).1.ChargesOnlyPaid
      (db.books.Admits (rtExecLoad job.env db rtp).1)

/-- The condition, read off the plan: what is charged is the paid part of what is entered. -/
theorem chargesOnlyPaid_iff (rtp : Racc) (unrated : Prop) :
    rtp.ChargesOnlyPaid unrated ↔
      match rtp.plan with
      | .unrated => True
      | .single cprice _ => unrated → 0 ≤ cprice
      | .split cprice _ => 0 ≤ cprice ∧ (¬ unrated → cprice = 0) := by
  cases tariff : rtp.bplan.calcFuncs with
  | none => simp [Racc.ChargesOnlyPaid, Racc.plan, tariff]
  | some tr =>
    simp only [Racc.ChargesOnlyPaid, Racc.plan, tariff, Option.some.injEq, forall_eq']
    generalize calcCprice2Totals tr rtp.pre.billsec = call
    generalize calcCprice2Totals tr rtp.freeSec = free
    generalize calcCprice2Totals tr call.billsec = again
    by_cases call_failed : 0 < call.checksec
    · simp [call_failed]
    by_cases allowance : rtp.HasAllowance
    swap
    · simp [call_failed, allowance]
    by_cases within : call.billsec ≤ rtp.freeSec
    · simp [call_failed, allowance, within]
    by_cases free_failed : 0 < free.checksec
    · simp [call_failed, allowance, within, free_failed]
    by_cases whole : free.billsec ≤ rtp.freeSec
    · simp [call_failed, allowance, within, free_failed, whole]
    by_cases again_failed : 0 < again.checksec
    · simp [call_failed, allowance, within, free_failed, whole, again_failed]
    by_cases again_within : again.billsec ≤ rtp.freeSec <;>
      simp [call_failed, allowance, within, free_failed, whole, again_failed, again_within]

/-! ## One rating -/

section Step

variable (period : Period) (books : Books)

theorem Books.charge_amount (amount : ℚ) :
    (books.charge period.account period.start period.stop amount).amount period =
      books.amount period + amount := by
  rcases one : books.balance.select
      (BalanceRow.isActiveFor period.account period.start period.stop) with
    _ | ⟨⟨id, row⟩, _ | ⟨second, rest⟩⟩
  · simp [Books.charge, one, Books.amount, SerialTable.total_insert, Period.amountOf,
      BalanceRow.isActiveFor]
  · have member := SerialTable.mem_rows_of_select_eq one
    have active : row.isActiveFor period.account period.start period.stop = true := by
      have selected : (id, row) ∈ books.balance.select
          (BalanceRow.isActiveFor period.account period.start period.stop) := by
        rw [one]
        exact List.mem_singleton_self _
      exact (List.mem_filter.mp selected).2
    have still : ({ row with amount := row.amount + amount } : BalanceRow).isActiveFor
        period.account period.start period.stop = true := active
    simp only [Books.charge, one, Books.amount]
    rw [SerialTable.total_update _ _ member]
    simp [Period.amountOf, active, still]
  · simp [Books.charge, one, Books.amount, SerialTable.total_insert, Period.amountOf,
      BalanceRow.isActiveFor]

/-- Charging and counting move the balance by the price, and the rating rows not at all. -/
theorem Books.settle_amount (env : Env) {rtp : Racc} (account : rtp.bacc.id = period.account)
    (counts : Bool) {card : Pcard} (start : card.start = period.start)
    (stop : card.stop = period.stop) :
    (books.settle env rtp counts (some card)).amount period =
      books.amount period + rtp.pre.cprice := by
  have charged := books.charge_amount period rtp.pre.cprice
  simp only [Books.settle, account, start, stop]
  split
  · simp only [Books.count]
    split <;> exact charged
  · exact charged

/-- An entry leaves the balance alone and adds a paid row when it is new. -/
theorem Books.enter_paid (rtp : Racc) :
    (books.enter rtp).amount period = books.amount period ∧
      (books.enter rtp).rating.total RatingRow.paid =
        books.rating.total RatingRow.paid + if books.Admits rtp then rtp.ratingRow.paid else 0 := by
  simp only [Books.enter]
  split
  · exact ⟨rfl, SerialTable.total_insert _ _ _⟩
  · exact ⟨rfl, (add_zero _).symm⟩

/-- What the balance holds beyond the paid rows. -/
def Books.surplus : ℚ := books.amount period - books.rating.total RatingRow.paid

/-- An entry with its charge moves the surplus by the price, less what is entered as paid. -/
theorem Books.surplus_enter_settle (env : Env) {rtp : Racc} (account : rtp.bacc.id = period.account)
    (counts : Bool) {card : Pcard} (start : card.start = period.start)
    (stop : card.stop = period.stop) :
    ((books.enter rtp).settle env rtp counts (some card)).surplus period =
      books.surplus period +
        (rtp.pre.cprice - if books.Admits rtp then rtp.ratingRow.paid else 0) := by
  obtain ⟨entered_amount, entered_paid⟩ := books.enter_paid period rtp
  rw [Books.surplus, Books.settle_rating,
    Books.settle_amount period _ env account counts start stop,
    entered_amount, entered_paid, Books.surplus]
  ring

/-- A price is what its row enters as paid exactly when it is not negative. -/
theorem sub_paid_eq_zero_iff (row : RatingRow) :
    row.callPrice - row.paid = 0 ↔ 0 ≤ row.callPrice := by
  rw [RatingRow.paid]
  split
  · rename_i positive
    simp [positive.le]
  · rename_i not_positive
    rw [sub_zero]
    exact ⟨fun zero => zero.ge, fun nonneg => le_antisymm (not_lt.mp not_positive) nonneg⟩

/-- One rating keeps the surplus exactly when the call charges only what it enters as paid. -/
theorem Books.surplus_post_iff (env : Env) {rtp : Racc} (account : rtp.bacc.id = period.account)
    {card : Pcard} (card_eq : rtp.bacc.pcardPtr = some card) (start : card.start = period.start)
    (stop : card.stop = period.stop) :
    (books.post env rtp).surplus period = books.surplus period ↔
      rtp.ChargesOnlyPaid (books.Admits rtp) := by
  have dated : rtp.datedCard = some card := by
    simp [Racc.datedCard, card_eq, start, stop, period.start_ne, period.stop_ne]
  have entered (cprice : ℚ) (billsec : ℤ) (counts : Bool) :
      ((books.enter (rtp.withPrice cprice billsec)).settle env (rtp.withPrice cprice billsec) counts
        (some card)).surplus period =
        books.surplus period + (cprice - if books.Admits rtp then
          (rtp.withPrice cprice billsec).ratingRow.paid else 0) := by
    have account' : (rtp.withPrice cprice billsec).bacc.id = period.account := account
    rw [books.surplus_enter_settle period env account' counts start stop]
    simp only [Books.admits_withPrice, Racc.withPrice_cprice]
  have priced (cprice : ℚ) (billsec : ℤ) :
      cprice - (rtp.withPrice cprice billsec).ratingRow.paid = 0 ↔ 0 ≤ cprice :=
    sub_paid_eq_zero_iff (rtp.withPrice cprice billsec).ratingRow
  rw [chargesOnlyPaid_iff, Books.post]
  cases rtp.plan with
  | unrated => simp
  | single cprice billsec =>
    have card_eq' : (rtp.withPrice cprice billsec).bacc.pcardPtr = some card := card_eq
    simp only [Books.postRow, Books.admits_withPrice, card_eq']
    by_cases unrated : books.Admits rtp
    · rw [if_pos unrated, entered, if_pos unrated, add_eq_left, priced]
      exact ⟨fun nonneg _ => nonneg, fun nonneg => nonneg unrated⟩
    · simp [unrated]
  | split cprice billsec =>
    have dated' : (rtp.withPrice cprice billsec).datedCard = some card := dated
    simp only [Books.postFree, dated', entered, add_eq_left]
    by_cases unrated : books.Admits rtp
    · rw [if_pos unrated, priced]
      exact ⟨fun nonneg => ⟨nonneg, fun rated => absurd unrated rated⟩, And.left⟩
    · rw [if_neg unrated, sub_zero]
      exact ⟨fun zero => ⟨zero.ge, fun _ => zero⟩, fun both => both.2 unrated⟩

end Step

/-! ## Runs -/

/-- Every guarded turn keeps the surplus. -/
theorem Job.surplus_rate {period : Period} {db : Db} {job : PeriodJob period}
    (charges : job.ChargesOnlyPaid db) :
    (job.rate db).books.surplus period = db.books.surplus period := by
  rw [Job.rate_books]
  cases record : job.record with
  | none => rfl
  | some rtp =>
    obtain ⟨account, card, card_eq, start, stop⟩ := job.inPeriod rtp record
    obtain ⟨bacc_eq, -, -⟩ := rtExecLoad_kept job.env db rtp
    refine (Books.surplus_post_iff period db.books job.env ?_ ?_ start stop).mpr
      (charges rtp record)
    · rw [bacc_eq, account]
    · rw [bacc_eq, card_eq]

theorem Job.rating_prefix (db : Db) (job : Job) :
    db.rating.rows <+: (job.rate db).rating.rows := by
  have rate_books := job.rate_books db
  have rating_eq : (job.rate db).rating = (job.rate db).books.rating := rfl
  rw [rating_eq, rate_books]
  cases job.record with
  | none => exact List.prefix_rfl
  | some rtp =>
    rcases db.books.post_rating job.env (rtExecLoad job.env db rtp).1 with kept | ⟨row, inserted⟩
    · rw [kept]
      exact List.prefix_rfl
    · simp only [inserted]
      exact List.prefix_append _ _

/-- A later state: rows were only added, and the surplus is the same. -/
structure Follows (period : Period) (before after : Db) : Prop where
  rows : before.rating.rows <+: after.rating.rows
  surplus : after.books.surplus period = before.books.surplus period

theorem Follows.rate {period : Period} {before db : Db} (follows : Follows period before db)
    {job : PeriodJob period} (charges : job.ChargesOnlyPaid db) :
    Follows period before (job.rate db) where
  rows := follows.rows.trans (Job.rating_prefix db job.toJob)
  surplus := (Job.surplus_rate charges).trans follows.surplus

theorem Follows.conserved {period : Period} {before after : Db}
    (follows : Follows period before after) : Conserved period before after := by
  obtain ⟨written, rows_eq⟩ := follows.rows
  have paid_eq : after.books.rating.total RatingRow.paid =
      before.books.rating.total RatingRow.paid +
        ((writtenSince before after).map RatingRow.paid).sum := by
    simp [SerialTable.total, writtenSince, Db.books, ← rows_eq, Function.comp_def]
  have kept := follows.surplus
  rw [Books.surplus, Books.surplus, paid_eq] at kept
  rw [Conserved]
  linarith

/-- A run of calls that charge only what they enter as paid conserves the account. -/
theorem run_conserved {period : Period} {jobs : List (PeriodJob period)} {before after : Db}
    (run : GuardedRun (fun db (job : PeriodJob period) => some (job.rate db))
      (fun db job => job.ChargesOnlyPaid db) before jobs after) :
    Conserved period before after := by
  have start : Follows period before before := ⟨List.prefix_rfl, rfl⟩
  have follows : Follows period before after :=
    run.preserves
      (fun charges steps follows => Option.some.inj steps ▸ follows.rate charges) start
  exact follows.conserved

/-- The period of the card of account 1. -/
def cardPeriod : Period where
  account := 1
  start := "2024-01-01"
  stop := "2025-01-01"
  start_ne := by decide
  stop_ne := by decide

/-- A call of account 1 before it is rated. -/
def cardRecord (id : ℕ) (billsec : ℤ) : PeriodRecord cardPeriod where
  rtp := freeSecondsRecord id billsec
  fresh := ⟨rfl, rfl, rfl, rfl⟩
  account := rfl
  card := ⟨1, 100, "2024-01-01", "2025-01-01", .active, .debitCard, 1⟩
  card_eq := rfl
  start_eq := rfl
  stop_eq := rfl

/-- A call of 30 seconds from number 100, on a tariff with `limit` free seconds. -/
def halfMinute (limit : ℤ) (id : ℕ)
    (record : (freeSecondsCall limit id "100" 30).record = some (freeSecondsRecord id 30)) :
    PeriodJob cardPeriod where
  toJob := freeSecondsCall limit id "100" 30
  inPeriod := by
    intro rtp found
    obtain rfl := Option.some.inj (record.symm.trans found)
    exact ⟨rfl, _, rfl, rfl, rfl⟩

/-- Two calls without free seconds. -/
theorem halfMinutes_conserved :
    Conserved cardPeriod {}
      (((freeSecondsCall 0 2 "100" 30).rate ((freeSecondsCall 0 1 "100" 30).rate {}))) := by
  have first : (freeSecondsCall 0 1 "100" 30).record = some (freeSecondsRecord 1 30) := by
    decide +kernel
  have second : (freeSecondsCall 0 2 "100" 30).record = some (freeSecondsRecord 2 30) := by
    decide +kernel
  have paid {db : Db} {id : ℕ}
      (record : (freeSecondsCall 0 id "100" 30).record = some (freeSecondsRecord id 30))
      (plan : (rtExecLoad (freeSecondsEnv 0) db (freeSecondsRecord id 30)).1.plan = .single 30 30) :
      (halfMinute 0 id record).ChargesOnlyPaid db := by
    intro rtp found
    obtain rfl := Option.some.inj (record.symm.trans found)
    rw [chargesOnlyPaid_iff]
    simp only [halfMinute, freeSecondsCall, plan]
    exact fun _ => by norm_num
  have first_plan : (rtExecLoad (freeSecondsEnv 0) {} (freeSecondsRecord 1 30)).1.plan =
      .single 30 30 := by
    decide +kernel
  have second_plan : (rtExecLoad (freeSecondsEnv 0) ((freeSecondsCall 0 1 "100" 30).rate {})
      (freeSecondsRecord 2 30)).1.plan = .single 30 30 := by
    decide +kernel
  have run : GuardedRun (fun db (job : PeriodJob cardPeriod) => some (job.rate db))
      (fun db job => job.ChargesOnlyPaid db) {} [halfMinute 0 1 first, halfMinute 0 2 second]
      ((freeSecondsCall 0 2 "100" 30).rate ((freeSecondsCall 0 1 "100" 30).rate {})) :=
    .cons (paid first first_plan) rfl (.cons (paid second second_plan) rfl (.nil _))
  exact run_conserved run

/-- A call inside the free seconds: its row carries the negated price, and the balance loses it. -/
theorem freeCall_not_conserved :
    ¬ ∀ (period : Period) (jobs : List (PeriodJob period)) (before after : Db),
        execAll (fun db (job : PeriodJob period) => some (job.rate db)) before jobs = some after →
          Conserved period before after := by
  intro claim
  have record : (freeSecondsCall 60 1 "100" 30).record = some (freeSecondsRecord 1 30) := by
    decide +kernel
  have conserved : Conserved cardPeriod {} ((freeSecondsCall 60 1 "100" 30).rate {}) :=
    claim cardPeriod [halfMinute 60 1 record] {} _ rfl
  exact absurd conserved (by decide +kernel)

end RateEngine
