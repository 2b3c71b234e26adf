import RateEngine.Conservation

/-!
# Rating workers and the balance

A worker reads the balance of an account in pre-rating, carries it through pricing and writes the
sum back in `rt_balance_exec`.  The mutex of `rt_balance_exec` covers the write and not the read, so
a write can undo another worker's charge.  This file states when a charge adds its price, and proves
that runs of such charges lose nothing.
-/

namespace RateEngine

/-! ## Workers -/

/-- The steps of a worker on the balance. -/
inductive BalanceEvent (period : Period) where
  /-- The rate search and pre-rating of a CDR. -/
  | read (worker : ℕ) (record : PeriodRecord period)
  /-- `rt_balance_exec` at the price that the CDR got. -/
  | charge (worker : ℕ) (cprice : ℚ)

/-- The database and the record that each worker carries. -/
structure RatingWorkers where
  db : Db
  records : ℕ → Option Racc

/-- No worker has read anything. -/
def RatingWorkers.start (db : Db) : RatingWorkers := ⟨db, fun _ => none⟩

/-- Store the price of the CDR. -/
def Racc.withCprice (rtp : Racc) (cprice : ℚ) : Racc := { rtp with pre := { rtp.pre with cprice } }

/-- One step of one worker; the record is given up after the charge. -/
def workerStep (env : Env) {period : Period} (s : RatingWorkers) :
    BalanceEvent period → Option RatingWorkers
  | .read worker record =>
      match rtRateSearching env s.db record.rtp with
      | (rtp, db) => some { db, records := Function.update s.records worker (some rtp) }
  | .charge worker cprice =>
      match s.records worker with
      | none => none
      | some rtp =>
          match rtBalanceExec env s.db (rtp.withCprice cprice) period.start period.stop with
          | (_, db) => some { db, records := Function.update s.records worker none }

/-- The price that a step charges. -/
def BalanceEvent.price {period : Period} : BalanceEvent period → ℚ
  | .read _ _ => 0
  | .charge _ cprice => cprice

/-- The row that the worker's record names, if any, still holds the amount that the worker read. -/
def ChargesCurrent {period : Period} (s : RatingWorkers) : BalanceEvent period → Prop
  | .read _ _ => True
  | .charge worker _ =>
      ∀ rtp, s.records worker = some rtp → 0 < rtp.bal.id →
        ∀ row, (rtp.bal.id, row) ∈ s.db.balance.rows → row.amount = rtp.bal.amount

/-! ## The carried records -/

/-- A carried record is of the account, and names no balance or an active one of the period. -/
def Racc.Carries (rtp : Racc) (period : Period) (balance : SerialTable BalanceRow) : Prop :=
  rtp.bacc.id = period.account ∧
    (rtp.bal = {} ∨
      ∃ row : BalanceRow, (rtp.bal.id, row) ∈ balance.rows ∧
        row.isActiveFor period.account period.start period.stop = true)

/-- All workers carry such records. -/
def RatingWorkers.Carry (period : Period) (s : RatingWorkers) : Prop :=
  ∀ worker rtp, s.records worker = some rtp → rtp.Carries period s.db.balance

/-- An active row stays in the table when a balance is written. -/
theorem active_of_rtDataQBalAdd (env : Env) (db : Db) (rtp : Racc) {period : Period} {key : ℕ}
    {row : BalanceRow} (member : (key, row) ∈ db.balance.rows)
    (active : row.isActiveFor period.account period.start period.stop = true) :
    ∃ row', (key, row') ∈ (rtDataQBalAdd env db rtp period.start period.stop).balance.rows ∧
      row'.isActiveFor period.account period.start period.stop = true := by
  simp only [rtDataQBalAdd, Env.exec]
  split
  · exact ⟨row, member, active⟩
  split
  · by_cases picked : key = rtp.bal.id
    · refine ⟨{ row with amount := rtp.bal.amount },
        List.mem_map.mpr ⟨(key, row), member, ?_⟩, active⟩
      simp [picked]
    · refine ⟨row, List.mem_map.mpr ⟨(key, row), member, ?_⟩, active⟩
      simp [picked]
  · exact ⟨row, List.mem_append_left _ member, active⟩

theorem Racc.Carries.of_active {rtp : Racc} {period : Period}
    {balance balance' : SerialTable BalanceRow}
    (carries : rtp.Carries period balance)
    (kept : ∀ {key : ℕ} {row : BalanceRow}, (key, row) ∈ balance.rows →
      row.isActiveFor period.account period.start period.stop = true →
        ∃ row', (key, row') ∈ balance'.rows ∧
          row'.isActiveFor period.account period.start period.stop = true) :
    rtp.Carries period balance' := by
  obtain ⟨account, unread | ⟨row, member, active⟩⟩ := carries
  · exact ⟨account, Or.inl unread⟩
  · exact ⟨account, Or.inr (kept member active)⟩

/-- Pre-rating gives a record that names the one active balance or none. -/
theorem carries_of_read (env : Env) (db : Db) {period : Period} (record : PeriodRecord period) :
    (rtRateSearching env db record.rtp).1.Carries period db.balance := by
  have current := rtRateSearching_current env db record.rtp record.fresh.bal record.card_eq
  have account : (rtRateSearching env db record.rtp).1.bacc.id = period.account := by
    rw [rtRateSearching_bacc, record.account]
  refine ⟨account, ?_⟩
  rcases current with unread | ⟨id, row, one, read⟩
  · exact Or.inl unread
  · rw [account, record.start_eq, record.stop_eq] at one
    have selected : (id, row) ∈ db.balance.select
        (BalanceRow.isActiveFor period.account period.start period.stop) := by
      rw [one]
      exact List.mem_singleton_self _
    refine Or.inr ⟨row, ?_, (List.mem_filter.mp selected).2⟩
    rw [read]
    exact SerialTable.mem_rows_of_mem_select selected

/-! ## One charge -/

section Charge

variable {env : Env} (reliable : env.Reliable) {db : Db} {period : Period} {rtp : Racc}

include reliable

/-- A record without a balance reads it under the mutex. -/
theorem charge_amount_of_unread (account : rtp.bacc.id = period.account) (unread : rtp.bal = {})
    (cprice : ℚ) :
    (rtBalanceExec env db (rtp.withCprice cprice) period.start period.stop).2.books.amount period =
      db.books.amount period + cprice := by
  have account' : (rtp.withCprice cprice).bacc.id = period.account := account
  have current : (rtp.withCprice cprice).Current db period.start period.stop := Or.inl unread
  rw [rtBalanceExec_books reliable current, account']
  exact db.books.charge_amount period cprice

/-- A record with a balance overwrites its row: what the row gained since the read is lost. -/
theorem charge_amount_of_read {row : BalanceRow} (member : (rtp.bal.id, row) ∈ db.balance.rows)
    (active : row.isActiveFor period.account period.start period.stop = true) (cprice : ℚ) :
    (rtBalanceExec env db (rtp.withCprice cprice) period.start period.stop).2.books.amount period =
      db.books.amount period + cprice - (row.amount - rtp.bal.amount) := by
  have id_pos : 0 < rtp.bal.id := db.balance.key_pos _ member
  have still : ({ row with amount := rtp.bal.amount + cprice } : BalanceRow).isActiveFor
      period.account period.start period.stop = true := active
  simp only [rtBalanceExec, Racc.withCprice, id_pos, if_true, rtDataQBalAdd, reliable.exec,
    Db.books, Books.amount]
  rw [SerialTable.total_update _ _ member, Period.amountOf, Period.amountOf, if_pos active,
    if_pos still]
  ring

end Charge

/-! ## Runs -/

theorem workerStep_read (env : Env) {period : Period} (s : RatingWorkers) (worker : ℕ)
    (record : PeriodRecord period) :
    workerStep env s (.read worker record) =
      some ⟨(rtRateSearching env s.db record.rtp).2,
        Function.update s.records worker (some (rtRateSearching env s.db record.rtp).1)⟩ := rfl

theorem workerStep_charge (env : Env) {period : Period} {s : RatingWorkers} {worker : ℕ}
    {rtp : Racc} (found : s.records worker = some rtp) (cprice : ℚ) :
    workerStep env s (.charge worker cprice : BalanceEvent period) =
      some ⟨(rtBalanceExec env s.db (rtp.withCprice cprice) period.start period.stop).2,
        Function.update s.records worker none⟩ := by
  rw [workerStep, found]

/-- A record that is replaced or given up leaves the others as they were. -/
theorem RatingWorkers.Carry.update {period : Period} {s : RatingWorkers} (carry : s.Carry period)
    {db : Db} (worker : ℕ) {record : Option Racc}
    (kept : ∀ {rtp : Racc}, rtp.Carries period s.db.balance → rtp.Carries period db.balance)
    (new : ∀ rtp, record = some rtp → rtp.Carries period db.balance) :
    RatingWorkers.Carry period ⟨db, Function.update s.records worker record⟩ := by
  intro other rtp found
  by_cases same : other = worker
  · subst same
    exact new rtp (by simpa using found)
  · exact kept (carry other rtp (by simpa [same] using found))

/-- A charge of a current record adds its price; a read adds nothing. -/
theorem workerStep_amount {env : Env} (reliable : env.Reliable) {period : Period}
    {s t : RatingWorkers} {event : BalanceEvent period} (current : ChargesCurrent s event)
    (step : workerStep env s event = some t) (carry : s.Carry period) :
    t.Carry period ∧
      t.db.books.amount period = s.db.books.amount period + event.price := by
  cases event with
  | read worker record =>
    rw [workerStep_read] at step
    obtain rfl := Option.some.inj step
    have books_eq := rtRateSearching_books env s.db record.rtp
    have balance_eq : (rtRateSearching env s.db record.rtp).2.balance = s.db.balance :=
      congrArg Books.balance books_eq
    refine ⟨carry.update worker (fun carries => ?_) fun rtp found => ?_, ?_⟩
    · rw [balance_eq]
      exact carries
    · obtain rfl := Option.some.inj found
      rw [balance_eq]
      exact carries_of_read env s.db record
    · simp only [books_eq, BalanceEvent.price, add_zero]
  | charge worker cprice =>
    cases found : s.records worker with
    | none =>
      rw [workerStep, found] at step
      cases step
    | some rtp =>
      rw [workerStep_charge env found] at step
      obtain rfl := Option.some.inj step
      refine ⟨carry.update worker (fun carries => ?_) fun _ none_left => ?_, ?_⟩
      · exact carries.of_active (active_of_rtDataQBalAdd env s.db _)
      · cases none_left
      · obtain ⟨account, unread | ⟨row, member, active⟩⟩ := carry worker rtp found
        · exact charge_amount_of_unread reliable account unread cprice
        · have same : row.amount = rtp.bal.amount :=
            current rtp found (s.db.balance.key_pos _ member) row member
          have charged := charge_amount_of_read reliable member active cprice
          rw [same, sub_self, sub_zero] at charged
          exact charged

/-- A charge right after the read of its record is current. -/
theorem chargesCurrent_of_read (env : Env) {period : Period} (s : RatingWorkers) (worker : ℕ)
    (record : PeriodRecord period) (cprice : ℚ) :
    ChargesCurrent
      ⟨(rtRateSearching env s.db record.rtp).2,
        Function.update s.records worker (some (rtRateSearching env s.db record.rtp).1)⟩
      (.charge worker cprice : BalanceEvent period) := by
  intro rtp found id_pos row member
  obtain rfl : (rtRateSearching env s.db record.rtp).1 = rtp := by simpa using found
  have balance_eq : (rtRateSearching env s.db record.rtp).2.balance = s.db.balance :=
    congrArg Books.balance (rtRateSearching_books env s.db record.rtp)
  rw [balance_eq] at member
  rcases rtRateSearching_current env s.db record.rtp record.fresh.bal record.card_eq with
    unread | ⟨id, held, one, read⟩
  · rw [unread] at id_pos
    exact absurd id_pos (lt_irrefl 0)
  · rw [read] at member ⊢
    rw [SerialTable.value_eq_of_mem_rows member (SerialTable.mem_rows_of_select_eq one)]

/-- A worker that is not interrupted between read and charge takes guarded steps,
from every state. -/
theorem guardedRun_read_charge (env : Env) {period : Period} (s : RatingWorkers) (worker : ℕ)
    (record : PeriodRecord period) (cprice : ℚ) :
    ∃ t, GuardedRun (workerStep env) ChargesCurrent s
      [.read worker record, .charge worker cprice] t := by
  have found : (⟨(rtRateSearching env s.db record.rtp).2,
      Function.update s.records worker (some (rtRateSearching env s.db record.rtp).1)⟩ :
        RatingWorkers).records worker = some (rtRateSearching env s.db record.rtp).1 :=
    Function.update_self _ _ _
  exact ⟨_, .cons trivial (workerStep_read env s worker record)
    (.cons (chargesCurrent_of_read env s worker record cprice)
      (workerStep_charge env found cprice) (.nil _))⟩

/-- Whatever the order of the workers' steps, a run in which every charge is current loses none. -/
theorem run_amount_eq {env : Env} (reliable : env.Reliable) {period : Period} {db : Db}
    {events : List (BalanceEvent period)} {s : RatingWorkers}
    (run : GuardedRun (workerStep env) ChargesCurrent (.start db) events s) :
    s.db.books.amount period =
      db.books.amount period + (events.map BalanceEvent.price).sum := by
  have start : (RatingWorkers.start db).Carry period := by
    intro worker rtp found
    cases found
  have moved : s.db.books.amount period =
      (RatingWorkers.start db).db.books.amount period + (events.map BalanceEvent.price).sum :=
    run.measure_eq (fun current step carry => workerStep_amount reliable current step carry) start
  exact moved

/-- Account 1 owes 10. -/
def owingDb : Db where
  balance := SerialTable.empty.insert ⟨1, "2024-01-01", "2025-01-01", true, 10⟩

/-- Two workers, one after the other. -/
theorem serialWorkers_amount :
    ∃ s, execAll (workerStep (freeSecondsEnv 0)) (.start owingDb)
        [.read 1 (cardRecord 1 30), .charge 1 5, .read 2 (cardRecord 2 30), .charge 2 7] = some s ∧
      s.db.books.amount cardPeriod = owingDb.books.amount cardPeriod + 12 := by
  obtain ⟨middle, first⟩ :=
    guardedRun_read_charge (freeSecondsEnv 0) (.start owingDb) 1 (cardRecord 1 30) 5
  obtain ⟨s, second⟩ := guardedRun_read_charge (freeSecondsEnv 0) middle 2 (cardRecord 2 30) 7
  have guarded := first.append second
  refine ⟨s, GuardedRun.true_iff_execAll.mp (guarded.mono fun _ => trivial), ?_⟩
  rw [run_amount_eq (fun _ => rfl) guarded]
  norm_num [BalanceEvent.price]

/-- Two workers read the balance before either charges it: the first charge is lost. -/
theorem overlappingWorkers_lose :
    ¬ ∀ (env : Env) (period : Period) (db : Db) (events : List (BalanceEvent period))
        (s : RatingWorkers), env.Reliable →
        execAll (workerStep env) (.start db) events = some s →
          s.db.books.amount period =
            db.books.amount period + (events.map BalanceEvent.price).sum := by
  intro claim
  let events : List (BalanceEvent cardPeriod) :=
    [.read 1 (cardRecord 1 30), .read 2 (cardRecord 2 30), .charge 1 5, .charge 2 5]
  have outcome : (execAll (workerStep (freeSecondsEnv 0)) (.start owingDb) events).map
      (fun s => s.db.books.amount cardPeriod) = some 15 := by
    decide +kernel
  obtain ⟨s, run, amount⟩ := Option.map_eq_some_iff.mp outcome
  have kept := claim (freeSecondsEnv 0) cardPeriod owingDb events s (fun _ => rfl) run
  rw [amount] at kept
  exact absurd kept (by decide +kernel)

end RateEngine
