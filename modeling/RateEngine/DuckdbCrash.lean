import RateEngine.Conservation
import RateEngine.FreeSecondsBatches
import RateEngine.Lib.GuardedRun
import RateEngine.Lib.Transaction

/-!
# A batch that is cut short

`rt_duckdb_rate_batch` inserts the rating rows and joins the legs in one transaction, and charges
the balances and marks the rest of the window in a second one.  What the second one charges is what
the query of the batch holds in memory.  This file says after which faults the balances and the
rating rows still agree, and shows that no fault makes the batches insert the rows of a CDR twice.
-/

namespace RateEngine

open Transaction

/-! ## The statements -/

/-- The database, and the rows of each `INSERT` that it keeps. -/
structure Store where
  db : Db
  posted : List (Leg × List RatingRow) := []

namespace Store

/-- A statement that writes no rating rows. -/
def onDb (change : Db → Db) (store : Store) : Store := { store with db := change store.db }

/-- `INSERT INTO rating`. -/
def insertRating (leg : Leg) (rated : List RatedRow) (store : Store) : Store where
  db := store.db.insertRating rated
  posted := store.posted ++ [(leg, rated.map RatedRow.values)]

end Store

/-- A batch of a process that may meet a fault; its statements are counted over
both transactions. -/
structure BatchAttempt where
  order : BatchOrder
  leg : Leg
  limit : ℕ
  fault : Fault

namespace BatchAttempt

variable (dims : Dims) (attempt : BatchAttempt) (store : Store)

/-- `batch_window`. -/
def window : List ℕ := batchWindow attempt.leg attempt.limit store.db.cdrs

/-- `portions`. -/
def portions : List Portion :=
  RateEngine.portions (dims.hist (store.db.rating.rows.map Prod.snd))
    (dims.fb attempt.order attempt.leg (dims.windowCdrs (attempt.window store)))

/-- `rated_batch`. -/
def rated : List RatedRow :=
  dims.rated attempt.order attempt.leg (attempt.window store) (store.db.rating.rows.map Prod.snd)

/-- The rows that the `INSERT` returns: none when it fails. -/
def returned : List RatedRow := if attempt.fault = .fails 1 then [] else attempt.rated dims store

/-- The statements between the first `BEGIN` and its `COMMIT`. -/
def postStmts : List (Store → Store) :=
  Store.insertRating attempt.leg (attempt.rated dims store) ::
    if attempt.returned dims store = [] then []
    else [Store.onDb (Db.updateLeg attempt.order.leg attempt.leg
      (store.db.returned (attempt.rated dims store)))]

/-- The statements of `rt_duckdb_balance`. -/
def balanceStmts (rated : List RatedRow) : List (Store → Store) :=
  (dims.balDelta rated).map fun delta => Store.onDb (Db.chargeBalance delta.1 delta.2)

/-- The statements of `rt_duckdb_free_balance`; the scanner reads what is committed. -/
def freeBalanceStmts (rated : List RatedRow) (committed : Store) : List (Store → Store) :=
  (dims.fbbDelta attempt.order committed.db rated).map fun delta =>
    Store.onDb (Db.setFreeBalance delta.1 delta.2.1 delta.2.2)

/-- The `-1` statements. -/
def markStmts : List (Store → Store) :=
  let um := Dims.unmatched (attempt.window store) (attempt.rated dims store)
  (markChunks 2000 um.length um).map fun ids => Store.onDb (Db.markUnmatched attempt.leg ids)

/-- What `rt_duckdb_rate_batch` leaves in the database when the process meets the fault; a
transaction that is open when the process stops is rolled back. -/
def run : Store :=
  if attempt.window store = [] then store
  else
    let client : Client Store := ⟨attempt.fault, ⟨store, .idle⟩⟩
    let client :=
      if attempt.rated dims store = [] then client
      else client.transaction (attempt.postStmts dims store) fun _ => []
    -- without returned rows `rated` stays `0` and the balances are left alone
    let client :=
      client.transaction (balanceStmts dims (attempt.returned dims store)) fun committed =>
      attempt.freeBalanceStmts dims (attempt.returned dims store) committed ++
        attempt.markStmts dims store
    client.session.durable

end BatchAttempt

/-! ## What should hold -/

/-- The amount of the active balances of an account and period. -/
def Db.amount (db : Db) (key : AccountPeriod) : ℚ :=
  ((db.balance.select (BalanceRow.isOf key)).map fun row => row.2.amount).sum

/-- The positive prices of the rating rows of an account and period. -/
def Dims.billed (dims : Dims) (key : AccountPeriod) (rating : List RatingRow) : ℚ :=
  ((rating.filter fun r => dims.period r.baccId r.callTs = some key).map RatingRow.paid).sum

namespace Store

variable (dims : Dims) (store : Store)

/-- The balance of each account and period is the sum of its positive prices. -/
def BalancesMatch : Prop :=
  ∀ key, store.db.amount key = dims.billed key (store.db.rating.rows.map Prod.snd)

/-- The rating rows are those of the inserts, and no two inserts for a leg have rows of one CDR; a
CDR with rows for a leg is settled on it. -/
structure CommittedOnce : Prop where
  rows : store.db.rating.rows.map Prod.snd = store.posted.flatMap Prod.snd
  once : store.posted.Pairwise fun post later =>
    post.1 = later.1 → ∀ r ∈ post.2, ∀ r' ∈ later.2, r.callId ≠ r'.callId
  settled : ∀ post ∈ store.posted, ∀ r ∈ post.2, ∀ row ∈ store.db.cdrs, row.id = r.callId →
    row.mark post.1 ≠ 0

/-- An account and period has no more than one active balance. -/
def OneBalance : Prop := ∀ key, (store.db.balance.select (BalanceRow.isOf key)).length ≤ 1

/-- The balances and the rating rows agree, and the rows of each CDR were inserted once. -/
structure Consistent : Prop where
  one : store.OneBalance
  balances : store.BalancesMatch dims
  once : store.CommittedOnce

end Store

/-! ## The condition -/

/-- What the walk asks for a portion. -/
def Dims.price (dims : Dims) (pt : Portion) : ℚ :=
  ((tariffTotal dims.calcFunction pt.call.tariffId pt.sec).map Prod.snd).getD 0

namespace BatchAttempt

variable (dims : Dims) (attempt : BatchAttempt) (store : Store)

/-- No tariff of the batch prices the seconds of a portion below zero. -/
def PricedNonneg : Prop := ∀ pt ∈ attempt.portions dims store, 0 ≤ dims.price pt

/-- The paid portions of accounts with a balance cost nothing. -/
def Chargeless : Prop :=
  ∀ pt ∈ attempt.portions dims store, pt.kind = .paid →
    dims.period pt.call.baccId pt.call.startTs ≠ none → dims.price pt = 0

/-- The statements of the batch, when there are rated rows: `BEGIN`, `INSERT`, `UPDATE`, `COMMIT`,
`BEGIN`, those of the second transaction, `COMMIT`. -/
def stmtCount : ℕ :=
  6 + (balanceStmts dims (attempt.rated dims store)).length +
    (attempt.freeBalanceStmts dims (attempt.rated dims store) store).length +
      (attempt.markStmts dims store).length

/-- The fault leaves both the rows and the charge, or neither: a `BEGIN` or the `INSERT` fails, the
process stops before the first `COMMIT`, or nothing happens before the last one. -/
def InStep : Prop :=
  match attempt.fault with
  | .none => True
  | .fails before => before ≤ 1 ∨ before = 4 ∨ attempt.stmtCount dims store ≤ before
  | .stops before => before ≤ 3 ∨ attempt.stmtCount dims store ≤ before

/-- The condition on a batch. -/
structure Harmless : Prop where
  priced : attempt.PricedNonneg dims store
  fault : attempt.Chargeless dims store ∨ attempt.InStep dims store

end BatchAttempt

/-! ## Charges -/

/-- What `rt_duckdb_balance` charges to an account and period. -/
def Dims.charge (dims : Dims) (rated : List RatedRow) (key : AccountPeriod) : ℚ :=
  (((dims.per rated).filter fun row => row.1 = key).map Prod.snd).sum

section Charges

variable {dims : Dims} {store after later : Store} {charge charge' : AccountPeriod → ℚ}

/-- The statements between the states move the amounts by a charge and settle CDRs at most. -/
structure Store.Charged (charge : AccountPeriod → ℚ) (store after : Store) : Prop where
  posted : after.posted = store.posted
  rating : after.db.rating = store.db.rating
  one : store.OneBalance → after.OneBalance
  amount : store.OneBalance → ∀ key, after.db.amount key = store.db.amount key + charge key
  settled : ∀ row' ∈ after.db.cdrs, ∃ row ∈ store.db.cdrs, row'.id = row.id ∧
    ∀ leg, row.mark leg ≠ 0 → row'.mark leg ≠ 0

namespace Store.Charged

theorem trans (first : Charged charge store after) (second : Charged charge' after later) :
    Charged (charge + charge') store later where
  posted := second.posted.trans first.posted
  rating := second.rating.trans first.rating
  one one := second.one (first.one one)
  amount one key := by
    rw [second.amount (first.one one), first.amount one, Pi.add_apply, add_assoc]
  settled row'' member := by
    obtain ⟨row', row'_mem, id_eq', marks'⟩ := second.settled row'' member
    obtain ⟨row, row_mem, id_eq, marks⟩ := first.settled row' row'_mem
    exact ⟨row, row_mem, id_eq'.trans id_eq, fun leg marked => marks' leg (marks leg marked)⟩

/-- A statement that leaves balances, rows and marks alone. -/
theorem of_same (posted : after.posted = store.posted) (rating : after.db.rating = store.db.rating)
    (balance : after.db.balance = store.db.balance)
    (settled : ∀ row' ∈ after.db.cdrs, ∃ row ∈ store.db.cdrs, row'.id = row.id ∧
      ∀ leg, row.mark leg ≠ 0 → row'.mark leg ≠ 0) : Charged 0 store after where
  posted := posted
  rating := rating
  one one := by
    rw [OneBalance, balance]
    exact one
  amount _ key := by rw [Db.amount, balance, Pi.zero_apply, add_zero, Db.amount]
  settled := settled

theorem refl (store : Store) : Charged 0 store store :=
  of_same rfl rfl rfl fun row member => ⟨row, member, rfl, fun _ marked => marked⟩

/-- Statements one after the other charge what they charge together. -/
theorem applyAll {Delta : Type*} {deltas : List Delta} {stmt : Delta → Store → Store}
    {charge : Delta → AccountPeriod → ℚ}
    (each : ∀ delta ∈ deltas, ∀ store, Charged (charge delta) store (stmt delta store))
    (store : Store) :
    Charged (deltas.map charge).sum store (Transaction.applyAll (deltas.map stmt) store) := by
  induction deltas generalizing store with
  | nil => exact refl store
  | cons delta rest induction =>
      have first := each delta List.mem_cons_self store
      have later := induction (fun delta member => each delta (List.mem_cons_of_mem _ member))
        (stmt delta store)
      rw [List.map_cons, List.sum_cons]
      exact first.trans later

end Store.Charged

theorem charged_setFreeBalance (bal fbid : ℕ) (used : ℤ) (store : Store) :
    Store.Charged 0 store (store.onDb (Db.setFreeBalance bal fbid used)) := by
  have same := store.db.setFreeBalance_sameCalls bal fbid used
  have balance : (store.db.setFreeBalance bal fbid used).balance = store.db.balance := by
    rw [Db.setFreeBalance]
    split <;> rfl
  refine .of_same rfl same.rating balance fun row member => ⟨row, ?_, rfl, fun _ marked => marked⟩
  exact same.cdrs ▸ member

theorem charged_markUnmatched (leg : Leg) (ids : List ℕ) (store : Store) :
    Store.Charged 0 store (store.onDb (Db.markUnmatched leg ids)) := by
  refine .of_same rfl rfl rfl fun row' member => ?_
  obtain ⟨row, row_mem, rfl⟩ := List.mem_map.mp member
  refine ⟨row, row_mem, ?_, fun leg' marked => ?_⟩ <;> rw [CdrRow.markUnmatched]
  · split
    · exact row.id_setMark leg _
    · rfl
  · split
    · by_cases own : leg' = leg
      · rw [own, CdrRow.mark_setMark]
        decide
      · rwa [CdrRow.mark_setMark_of_ne row leg _ own]
    · exact marked

/-- Balances of different accounts or periods are different rows. -/
theorem BalanceRow.key_eq {key key' : AccountPeriod} {row : BalanceRow} (own : row.isOf key = true)
    (own' : row.isOf key' = true) : key = key' := by
  simp only [BalanceRow.isOf, BalanceRow.isActiveFor, Bool.and_eq_true,
    decide_eq_true_eq] at own own'
  obtain ⟨⟨⟨account, start⟩, stop⟩, -⟩ := own
  obtain ⟨⟨⟨account', start'⟩, stop'⟩, -⟩ := own'
  exact Prod.ext (account.symm.trans account')
    (Prod.ext (start.symm.trans start') (stop.symm.trans stop'))

/-- The balances of another account or period stay as they are. -/
theorem select_chargeBalance_of_ne (db : Db) {key key' : AccountPeriod} (amt : ℚ)
    (other : key' ≠ key) :
    (db.chargeBalance key amt).balance.select (BalanceRow.isOf key') =
      db.balance.select (BalanceRow.isOf key') := by
  have unpicked {row : BalanceRow} (own : row.isOf key' = true) : row.isOf key = false :=
    Bool.eq_false_iff.mpr fun picked => other (BalanceRow.key_eq own picked)
  rw [Db.chargeBalance]
  split
  · have updated := db.balance.select_update (fun _ row => row.isOf key)
      (fun row => { row with amount := row.amount + amt }) (BalanceRow.isOf key') fun _ => rfl
    refine updated.trans ((List.map_congr_left fun row member => ?_).trans (List.map_id _))
    rw [unpicked (List.mem_filter.mp member).2]
    rfl
  · have unmet : BalanceRow.isOf key'
        { baccId := key.1, startDate := key.2.1, endDate := key.2.2, active := true,
          amount := amt } =
          false :=
      Bool.eq_false_iff.mpr fun own => by
        have picked := unpicked own
        simp [BalanceRow.isOf, BalanceRow.isActiveFor] at picked
    rw [SerialTable.select_insert, unmet]
    simp

/-- The balance of the account and period grows by the amount. -/
theorem select_chargeBalance (db : Db) (key : AccountPeriod) (amt : ℚ)
    (one : (db.balance.select (BalanceRow.isOf key)).length ≤ 1) :
    ((db.chargeBalance key amt).balance.select (BalanceRow.isOf key)).length ≤ 1 ∧
      (db.chargeBalance key amt).amount key = db.amount key + amt := by
  have listed : (db.balance.rows.any fun row => row.2.isOf key) = true ↔
      db.balance.select (BalanceRow.isOf key) ≠ [] := by
    rw [ne_eq, SerialTable.select, List.filter_eq_nil_iff]
    simp
  rw [Db.amount, Db.amount, Db.chargeBalance]
  split
  · rename_i found
    obtain ⟨⟨id, row⟩, selected⟩ := List.length_eq_one_iff.mp
      (one.antisymm (List.length_pos_iff.mpr (listed.mp found)))
    have own : row.isOf key = true := by
      have member : (id, row) ∈ db.balance.select (BalanceRow.isOf key) :=
        selected ▸ List.mem_cons_self
      exact (List.mem_filter.mp member).2
    have updated := db.balance.select_update (fun _ row => row.isOf key)
      (fun row => { row with amount := row.amount + amt }) (BalanceRow.isOf key) fun _ => rfl
    simp only [updated, selected, List.map_singleton, own, if_true, List.length_singleton,
      List.sum_singleton, le_refl, and_self]
  · rename_i none_found
    have unselected : db.balance.select (BalanceRow.isOf key) = [] :=
      not_not.mp (listed.not.mp none_found)
    have own : BalanceRow.isOf key
        { baccId := key.1, startDate := key.2.1, endDate := key.2.2, active := true,
          amount := amt } =
          true := by
      simp [BalanceRow.isOf, BalanceRow.isActiveFor]
    rw [SerialTable.select_insert, unselected, own]
    simp

theorem charged_chargeBalance (key : AccountPeriod) (amt : ℚ) (store : Store) :
    Store.Charged (fun key' => if key' = key then amt else 0) store
      (store.onDb (Db.chargeBalance key amt)) := by
  have same := store.db.chargeBalance_sameCalls key amt
  refine ⟨rfl, same.rating, fun one key' => ?_, fun one key' => ?_, fun row member =>
    ⟨row, same.cdrs ▸ member, rfl, fun _ marked => marked⟩⟩
  · by_cases own : key' = key
    · subst own
      exact (select_chargeBalance store.db key' amt (one key')).1
    · exact (congrArg List.length (select_chargeBalance_of_ne store.db amt own)).trans_le (one key')
  · by_cases own : key' = key
    · subst own
      rw [if_pos rfl]
      exact (select_chargeBalance store.db key' amt (one key')).2
    · have kept := select_chargeBalance_of_ne store.db amt own
      rw [if_neg own, add_zero, Db.amount, Store.onDb, kept, Db.amount]

/-- A sum over distinct keys in which only one key counts. -/
theorem sum_ite_key {Key : Type*} [DecidableEq Key] {keys : List Key} (distinct : keys.Nodup)
    (amount : Key → ℚ) (key : Key) :
    (keys.map fun other => if key = other then amount other else 0).sum =
      if key ∈ keys then amount key else 0 := by
  rw [List.sum_map_eq_nsmul_single key _ fun other differs _ => if_neg differs.symm, if_pos rfl,
    distinct.count]
  split
  · rw [one_nsmul]
  · rw [zero_nsmul]

/-- The statements of `rt_duckdb_balance` charge each account and period the sum of its rows. -/
theorem sum_balDelta (rated : List RatedRow) :
    ((dims.balDelta rated).map fun delta key => if key = delta.1 then delta.2 else 0).sum =
      dims.charge rated := by
  funext key
  have pointwise :
      ((dims.balDelta rated).map fun delta key => if key = delta.1 then delta.2 else 0).sum
      key = (((dims.per rated).map Prod.fst).dedup.map fun other =>
        if key = other then dims.charge rated other else 0).sum := by
    rw [Pi.list_sum_apply, Dims.balDelta, List.map_map, List.map_map]
    rfl
  rw [pointwise, sum_ite_key (List.nodup_dedup _)]
  split
  · rfl
  · rename_i absent
    have uncharged : ((dims.per rated).filter fun row => row.1 = key) = [] := by
      refine List.filter_eq_nil_iff.mpr fun row member own => absent ?_
      obtain rfl : row.1 = key := of_decide_eq_true own
      exact List.mem_dedup.mpr (List.mem_map_of_mem member)
    rw [Dims.charge, uncharged, List.map_nil, List.sum_nil]

/-- The second transaction charges what `rt_duckdb_balance` reads. -/
theorem charged_balanceStmts (attempt : BatchAttempt) (rated : List RatedRow)
    (other seen store : Store) :
    Store.Charged (dims.charge rated) store
      (Transaction.applyAll
        (attempt.freeBalanceStmts dims rated seen ++ attempt.markStmts dims other)
        (Transaction.applyAll (BatchAttempt.balanceStmts dims rated) store)) := by
  have balances : Store.Charged _ store
      (Transaction.applyAll (BatchAttempt.balanceStmts dims rated) store) :=
    .applyAll (fun delta _ store => charged_chargeBalance delta.1 delta.2 store) store
  rw [sum_balDelta] at balances
  have frees (store : Store) : Store.Charged _ store
      (Transaction.applyAll (attempt.freeBalanceStmts dims rated seen) store) :=
    .applyAll (fun delta _ store => charged_setFreeBalance delta.1 delta.2.1 delta.2.2 store) store
  have marks (store : Store) : Store.Charged _ store
      (Transaction.applyAll (attempt.markStmts dims other) store) :=
    .applyAll (fun ids _ store => charged_markUnmatched attempt.leg ids store) store
  simp only [List.map_const', List.sum_replicate, nsmul_zero] at frees marks
  rw [Transaction.applyAll_append]
  simpa using (balances.trans (frees _)).trans (marks _)

theorem charge_nil : dims.charge [] = 0 := rfl

end Charges

/-! ## What a fault leaves -/

namespace BatchAttempt

variable {dims : Dims} {attempt : BatchAttempt} {store : Store}

/-- What the first transaction leaves. -/
def posted (dims : Dims) (attempt : BatchAttempt) (store : Store) : Store where
  db := Dims.post attempt.order attempt.leg (attempt.rated dims store) store.db
  posted := store.posted ++ [(attempt.leg, (attempt.rated dims store).map RatedRow.values)]

theorem applyAll_postStmts (some_rated : attempt.rated dims store ≠ [])
    (inserted : attempt.fault ≠ .fails 1) :
    applyAll (attempt.postStmts dims store) store = attempt.posted dims store := by
  have returned : attempt.returned dims store = attempt.rated dims store := if_neg inserted
  rw [postStmts, returned, if_neg some_rated, posted, Dims.post, if_neg some_rated]
  rfl

/-- The second transaction from an idle session. -/
theorem charged_second (dims : Dims) (attempt : BatchAttempt) (store : Store) (fault : Fault)
    (rated : List RatedRow) (start : Store) :
    ∃ charges : Bool,
      (charges = true ↔ fault.Spares ((balanceStmts dims rated ++
        (attempt.freeBalanceStmts dims rated start ++ attempt.markStmts dims store)).length + 2)) ∧
      Store.Charged (if charges then dims.charge rated else 0) start
        ((⟨fault, ⟨start, .idle⟩⟩ : Client Store).transaction (balanceStmts dims rated)
          fun committed => attempt.freeBalanceStmts dims rated committed ++
            attempt.markStmts dims store).session.durable := by
  rcases Client.durable_transaction start (balanceStmts dims rated) (fun committed =>
      attempt.freeBalanceStmts dims rated committed ++ attempt.markStmts dims store) fault with
    ⟨spares, seen, durable⟩ | ⟨hit, durable⟩
  · rw [durable]
    exact ⟨true, iff_of_true rfl spares, charged_balanceStmts attempt rated store seen start⟩
  · rw [durable]
    exact ⟨false, iff_of_false nofun hit, .refl start⟩

/-- The number of statements does not depend on the first transaction. -/
theorem length_freeBalanceStmts (rated : List RatedRow) :
    (attempt.freeBalanceStmts dims rated (attempt.posted dims store)).length =
      (attempt.freeBalanceStmts dims rated store).length := by
  have same : (attempt.posted dims store).db.balance = store.db.balance := by
    rw [posted, Dims.post]
    split <;> rfl
  simp only [freeBalanceStmts, Dims.fbbDelta, List.length_map, List.length_filterMap_eq_countP,
    Option.isSome_map, same]

/-- The statements of the second transaction are the last but four of the batch. -/
theorem length_second (dims : Dims) (attempt : BatchAttempt) (store start : Store)
    (same : start = store ∨ start = attempt.posted dims store) :
    (balanceStmts dims (attempt.rated dims store) ++
      (attempt.freeBalanceStmts dims (attempt.rated dims store) start ++
        attempt.markStmts dims store)).length + 6 = attempt.stmtCount dims store := by
  rcases same with rfl | rfl
  · simp only [List.length_append, stmtCount]
    omega
  · simp only [List.length_append, stmtCount, length_freeBalanceStmts]
    omega

/-- The statements of the first transaction, with its `BEGIN` and its `COMMIT`. -/
theorem length_postStmts (some_rated : attempt.rated dims store ≠ [])
    (inserted : attempt.fault ≠ .fails 1) :
    (attempt.postStmts dims store ++ []).length + 2 = 4 := by
  have returned : attempt.returned dims store = attempt.rated dims store := if_neg inserted
  rw [postStmts, returned, if_neg some_rated]
  rfl

/-- A fault behind the first `COMMIT` leaves the rows, which are charged when it spares the second
transaction. -/
theorem run_charged_of_beyond (some_cdr : attempt.window store ≠ [])
    (some_rated : attempt.rated dims store ≠ []) (beyond : attempt.fault.Beyond 4) :
    ∃ charges : Bool,
      (charges = true ↔ (attempt.fault.after 4).Spares (attempt.stmtCount dims store - 4)) ∧
      Store.Charged (if charges then dims.charge (attempt.rated dims store) else 0)
        (attempt.posted dims store) (attempt.run dims store) := by
  have inserted : attempt.fault ≠ .fails 1 := by
    intro failed
    rw [failed] at beyond
    exact Nat.not_lt.mpr beyond (by decide)
  have returned : attempt.returned dims store = attempt.rated dims store := if_neg inserted
  have length_eq := length_postStmts some_rated inserted
  have committed := Client.transaction_of_beyond store (attempt.postStmts dims store) (fun _ => [])
    (length_eq.symm ▸ beyond)
  rw [length_eq] at committed
  obtain ⟨charges, spares, charged⟩ := charged_second dims attempt store (attempt.fault.after 4)
    (attempt.rated dims store) (attempt.posted dims store)
  have total := length_second dims attempt store _ (.inr rfl)
  refine ⟨charges, ?_, ?_⟩
  · rw [spares, ← total, Nat.add_sub_assoc (by decide)]
  · rw [run, if_neg some_cdr, returned]
    simp only [if_neg some_rated]
    rw [committed, applyAll_postStmts some_rated inserted]
    exact charged

/-- What the fault leaves is charged exactly when it is in step. -/
theorem run_charged (some_cdr : attempt.window store ≠ [])
    (some_rated : attempt.rated dims store ≠ []) :
    ∃ posts charges : Bool, (attempt.InStep dims store ↔ posts = charges) ∧
      Store.Charged (if charges then dims.charge (attempt.rated dims store) else 0)
        (if posts then attempt.posted dims store else store) (attempt.run dims store) := by
  by_cases beyond : attempt.fault.Beyond 4
  · obtain ⟨charges, spares, charged⟩ := run_charged_of_beyond some_cdr some_rated beyond
    have total := length_second dims attempt store _ (.inl rfl)
    refine ⟨true, charges, ?_, charged⟩
    rw [eq_comm, spares, InStep]
    cases fault : attempt.fault with
    | none => exact iff_of_true trivial trivial
    | fails before =>
        have behind : 4 ≤ before := by rwa [fault] at beyond
        have left : (Fault.fails before).after 4 = .fails (before - 4) :=
          if_neg (Nat.not_lt.mpr behind)
        rw [left, Fault.Spares]
        omega
    | stops before =>
        have behind : 4 ≤ before := by rwa [fault] at beyond
        rw [Fault.after, Fault.Spares]
        omega
  rw [run, if_neg some_cdr]
  simp only [if_neg some_rated]
  have second := charged_second dims attempt store
  by_cases inserted : attempt.fault = .fails 1
  · -- the failed `INSERT` returns no rows, so nothing is charged either
    have returned : attempt.returned dims store = [] := if_pos inserted
    have rolled_back := Client.transaction_fails store (attempt.postStmts dims store) (fun _ => [])
      (Nat.succ_pos _)
    obtain ⟨charges, -, charged⟩ := second .none [] store
    rw [charge_nil, ite_self] at charged
    rw [InStep, inserted, returned, rolled_back]
    exact ⟨false, false, iff_of_true (.inl le_rfl) rfl, charged⟩
  have returned : attempt.returned dims store = attempt.rated dims store := if_neg inserted
  have length_eq := length_postStmts some_rated inserted
  rw [returned, InStep]
  cases fault : attempt.fault with
  | none => exact (beyond (fault ▸ trivial)).elim
  | fails before =>
      rw [fault] at beyond inserted
      have early : ¬ 4 ≤ before := beyond
      cases before with
      | zero =>
          have unstarted := Client.transaction_fails_start store (attempt.postStmts dims store)
            fun _ => []
          obtain ⟨charges, spares, charged⟩ := second .none (attempt.rated dims store)
            (attempt.posted dims store)
          obtain rfl : charges = true := spares.mpr trivial
          have applied := applyAll_postStmts some_rated (fault ▸ inserted)
          rw [unstarted, applied]
          exact ⟨true, true, iff_of_true (.inl (Nat.zero_le 1)) rfl, charged⟩
      | succ before =>
          -- the rows are rolled back and charged all the same
          have later : before ≠ 0 := fun first => inserted (first ▸ rfl)
          have rolled_back := Client.transaction_fails store (attempt.postStmts dims store)
            (fun _ => []) (show before < _ by omega)
          obtain ⟨charges, spares, charged⟩ := second .none (attempt.rated dims store) store
          obtain rfl : charges = true := spares.mpr trivial
          have total := length_second dims attempt store _ (.inl rfl)
          rw [rolled_back]
          refine ⟨false, true, iff_of_false ?_ Bool.false_ne_true, charged⟩
          omega
  | stops before =>
      rw [fault] at beyond
      have early : before < 4 := Nat.not_le.mp beyond
      obtain ⟨work, stopped⟩ := Client.transaction_stops store (attempt.postStmts dims store)
        (fun _ => []) (length_eq.symm ▸ early)
      rw [stopped, Client.transaction_stopped]
      exact ⟨false, false, iff_of_true (.inl (Nat.le_of_lt_succ early)) rfl, .refl store⟩

/-- A batch without rated rows charges nothing. -/
theorem run_charged_of_unrated (unrated : attempt.rated dims store = []) :
    Store.Charged 0 store (attempt.run dims store) := by
  have returned : attempt.returned dims store = [] := by
    rw [returned, unrated, ite_self]
  by_cases some_cdr : attempt.window store = []
  · rw [run, if_pos some_cdr]
    exact .refl store
  · obtain ⟨charges, -, charged⟩ := charged_second dims attempt store attempt.fault [] store
    rw [charge_nil, ite_self] at charged
    rw [run, if_neg some_cdr]
    simp only [if_pos unrated, returned]
    exact charged

end BatchAttempt

/-! ## Without a fault -/

theorem db_applyAll_onDb {Delta : Type*} (change : Delta → Db → Db) (deltas : List Delta)
    (store : Store) :
    (applyAll (deltas.map fun delta => Store.onDb (change delta)) store).db =
      deltas.foldl (fun db delta => change delta db) store.db := by
  induction deltas generalizing store with
  | nil => rfl
  | cons delta rest induction => exact induction _

/-- A batch without a fault is `rt_duckdb_rate_batch` as it is when every statement succeeds. -/
theorem db_run_of_none (dims : Dims) (attempt : BatchAttempt) (store : Store)
    (unfaulted : attempt.fault = .none) :
    (attempt.run dims store).db =
      (dims.rtDuckdbRateBatch attempt.order attempt.leg attempt.limit store.db).2.2 := by
  have returned : attempt.returned dims store = attempt.rated dims store :=
    if_neg (by simp [unfaulted])
  have settled (start : Store) : ((⟨.none, ⟨start, .idle⟩⟩ : Client Store).transaction
      (BatchAttempt.balanceStmts dims (attempt.rated dims store)) fun committed =>
        attempt.freeBalanceStmts dims (attempt.rated dims store) committed ++
          attempt.markStmts dims store).session.durable.db =
      dims.settle attempt.order attempt.leg (attempt.window store) (attempt.rated dims store)
        start.db := by
    rw [Client.transaction_of_beyond start _ _ (show Fault.none.Beyond _ from trivial),
      applyAll_append, BatchAttempt.markStmts, db_applyAll_onDb, BatchAttempt.freeBalanceStmts,
      db_applyAll_onDb, BatchAttempt.balanceStmts, db_applyAll_onDb, Dims.settle]
    by_cases unrated : attempt.rated dims store = []
    · rw [if_pos unrated, unrated]
      rfl
    · rw [if_neg unrated]
      rfl
  rw [BatchAttempt.run, Dims.rtDuckdbRateBatch]
  by_cases some_cdr : attempt.window store = []
  · rw [if_pos some_cdr, if_pos (show batchWindow _ _ _ = [] from some_cdr)]
  rw [if_neg some_cdr, if_neg (show ¬ batchWindow _ _ _ = [] from some_cdr)]
  by_cases unrated : attempt.rated dims store = []
  · have posted : Dims.post attempt.order attempt.leg
        (attempt.rated dims store) store.db = store.db :=
      if_pos unrated
    simp only [if_pos unrated, returned, unfaulted]
    exact (settled store).trans (congrArg (dims.settle attempt.order attempt.leg
      (attempt.window store) (attempt.rated dims store)) posted.symm)
  · simp only [if_neg unrated, returned, unfaulted]
    rw [Client.transaction_of_beyond store _ _ (show Fault.none.Beyond _ from trivial),
      BatchAttempt.applyAll_postStmts unrated (by simp [unfaulted])]
    exact settled _

/-! ## The prices of a batch -/

section Prices

variable {dims : Dims} {attempt : BatchAttempt} {store : Store}

theorem mem_attempt_rated {rb : RatedRow} : rb ∈ attempt.rated dims store ↔
    ∃ pt ∈ attempt.portions dims store, pt.rated dims.calcFunction = some rb := by
  rw [BatchAttempt.rated, mem_rated, ratedBatch_eq (fb_nodup _), List.mem_filterMap]
  rfl

/-- A paid row has the price of its portion, a free row the price below zero. -/
theorem cprice_of_rated {pt : Portion} {rb : RatedRow}
    (member : pt ∈ attempt.portions dims store) (row : pt.rated dims.calcFunction = some rb) :
    rb.portion = pt ∧ rb.cprice = if pt.kind = .paid then dims.price pt else -dims.price pt := by
  obtain ⟨total, found, rfl⟩ := Option.map_eq_some_iff.mp row
  have price_eq : dims.price pt = total.2 := by
    rw [Dims.price, found]
    rfl
  obtain ⟨call, -, ⟨-, rfl⟩ | ⟨-, -, rfl⟩ | ⟨-, -, rfl⟩⟩ := mem_portions.mp member <;>
    simp [price_eq]

theorem charge_eq (rated : List RatedRow) (key : AccountPeriod) :
    dims.charge rated key = (rated.map fun rb =>
      if rb.portion.kind = .paid ∧
          dims.period rb.portion.call.baccId rb.portion.call.startTs = some key then
        rb.cprice
      else 0).sum := by
  rw [Dims.charge, Dims.per]
  induction rated with
  | nil => rfl
  | cons rb rest induction =>
      rw [List.map_cons, List.sum_cons, ← induction]
      by_cases paid : rb.portion.kind = .paid
      · cases period : dims.period rb.portion.call.baccId rb.portion.call.startTs with
        | none => simp [paid, period]
        | some other => by_cases own : other = key <;> simp [paid, period, own]
      · simp [paid]

theorem billed_append (key : AccountPeriod) (rating more : List RatingRow) :
    dims.billed key (rating ++ more) = dims.billed key rating + dims.billed key more := by
  rw [Dims.billed, Dims.billed, Dims.billed, List.filter_append, List.map_append, List.sum_append]

/-- The inserted rows bill what the batch charges. -/
theorem billed_rated (priced : attempt.PricedNonneg dims store) (key : AccountPeriod) :
    dims.billed key ((attempt.rated dims store).map RatedRow.values) =
      dims.charge (attempt.rated dims store) key := by
  rw [Dims.billed, sum_filter, charge_eq, List.map_map]
  refine congrArg List.sum (List.map_congr_left fun rb member => ?_)
  obtain ⟨pt, pt_mem, row⟩ := mem_attempt_rated.mp member
  obtain ⟨portion_eq, cprice_eq⟩ := cprice_of_rated pt_mem row
  have nonneg := priced pt pt_mem
  have dated : safeTs rb.portion.call.startTs = rb.portion.call.startTs :=
    if_neg (of_mem_rated member).2.1
  rw [← portion_eq] at cprice_eq nonneg
  have paid_eq : (if 0 < rb.cprice then rb.cprice else 0) =
      if rb.portion.kind = .paid then rb.cprice else 0 := by
    rw [cprice_eq]
    split
    · split
      · rfl
      · linarith
    · split
      · linarith
      · rfl
  simp only [Function.comp_apply, RatedRow.values, RatingRow.paid, dated, paid_eq]
  by_cases own : dims.period rb.portion.call.baccId rb.portion.call.startTs = some key <;>
    simp [own]

/-- Nothing is charged exactly when the paid portions of accounts with a balance cost nothing. -/
theorem chargeless_iff (priced : attempt.PricedNonneg dims store) :
    attempt.Chargeless dims store ↔ ∀ key, dims.charge (attempt.rated dims store) key = 0 := by
  constructor
  · intro chargeless key
    rw [charge_eq]
    refine List.sum_eq_zero fun amount member => ?_
    obtain ⟨rb, rb_mem, rfl⟩ := List.mem_map.mp member
    obtain ⟨pt, pt_mem, row⟩ := mem_attempt_rated.mp rb_mem
    obtain ⟨rfl, cprice_eq⟩ := cprice_of_rated pt_mem row
    split
    · rename_i both
      rw [cprice_eq, if_pos both.1]
      exact chargeless _ pt_mem both.1 (by simp [both.2])
    · rfl
  · intro uncharged pt pt_mem paid has_period
    obtain ⟨key, own⟩ := Option.ne_none_iff_exists'.mp has_period
    cases row : pt.rated dims.calcFunction with
    | none =>
        have unpriced := Option.map_eq_none_iff.mp row
        rw [Dims.price, unpriced]
        rfl
    | some rb =>
        obtain ⟨rfl, cprice_eq⟩ := cprice_of_rated pt_mem row
        rw [if_pos paid] at cprice_eq
        have nonneg := priced _ pt_mem
        have terms : ∀ amount ∈ (attempt.rated dims store).map fun rb =>
            if rb.portion.kind = .paid ∧
                dims.period rb.portion.call.baccId rb.portion.call.startTs = some key then
              rb.cprice
            else 0, 0 ≤ amount := by
          intro amount member
          obtain ⟨other, other_mem, rfl⟩ := List.mem_map.mp member
          obtain ⟨pt', pt'_mem, row'⟩ := mem_attempt_rated.mp other_mem
          obtain ⟨rfl, cprice_eq'⟩ := cprice_of_rated pt'_mem row'
          split
          · rename_i both
            rw [cprice_eq', if_pos both.1]
            exact priced _ pt'_mem
          · exact le_rfl
        have single := List.single_le_sum terms _
          (List.mem_map_of_mem (mem_attempt_rated.mpr ⟨_, pt_mem, row⟩))
        rw [← charge_eq, uncharged, if_pos ⟨paid, own⟩, cprice_eq] at single
        exact le_antisymm single nonneg

end Prices

/-! ## No row is inserted twice -/

section Once

variable {dims : Dims} {attempt : BatchAttempt} {store after : Store}

/-- Joining legs with positive ids settles the joined CDRs and unsettles none. -/
theorem CdrRow.updateLeg_settles (tie : ℕ → ℕ) (leg : Leg) {v : List (ℕ × ℕ)}
    (positive : ∀ value ∈ v, 0 < value.2) (row : CdrRow) :
    (row.updateLeg tie leg v).id = row.id ∧
      (∀ leg', row.mark leg' ≠ 0 → (row.updateLeg tie leg v).mark leg' ≠ 0) ∧
        ((∃ value ∈ v, value.1 = row.id) → (row.updateLeg tie leg v).mark leg ≠ 0) := by
  by_cases joined : ∃ value ∈ v, value.1 = row.id
  · obtain ⟨value, value_mem, -, updated⟩ := CdrRow.updateLeg_of_joined leg tie joined
    have marked : (row.setMark value.2 leg).mark leg ≠ 0 := by
      have := positive value value_mem
      rw [CdrRow.mark_setMark]
      omega
    rw [updated]
    refine ⟨row.id_setMark leg _, fun leg' was => ?_, fun _ => marked⟩
    by_cases own : leg' = leg
    · exact own ▸ marked
    · rwa [CdrRow.mark_setMark_of_ne row leg _ own]
  · have absent : ∀ value ∈ v, value.1 ≠ row.id :=
      fun value member own => joined ⟨value, member, own⟩
    rw [CdrRow.updateLeg_of_absent absent]
    exact ⟨rfl, fun _ was => was, fun some_value => absurd some_value joined⟩

theorem Store.CommittedOnce.of_charged {charge : AccountPeriod → ℚ} (once : store.CommittedOnce)
    (charged : Store.Charged charge store after) : after.CommittedOnce where
  rows := by rw [charged.rating, charged.posted, once.rows]
  once := charged.posted ▸ once.once
  settled post member r r_mem row' row'_mem own := by
    obtain ⟨row, row_mem, id_eq, marks⟩ := charged.settled row' row'_mem
    rw [charged.posted] at member
    exact marks _ (once.settled post member r r_mem row row_mem (id_eq.symm.trans own))

/-- The first transaction inserts rows of CDRs that have none for the leg. -/
theorem Store.CommittedOnce.posted (once : store.CommittedOnce) :
    (attempt.posted dims store).CommittedOnce := by
  obtain ⟨rating, cdrs⟩ := post_eq attempt.order attempt.leg (attempt.rated dims store) store.db
  have positive : ∀ value ∈ store.db.returned (attempt.rated dims store), 0 < value.2 := by
    intro value member
    obtain ⟨row, row_mem, rfl⟩ := List.mem_map.mp member
    exact SerialTable.key_pos_of_mem_newRows row_mem
  have settles := CdrRow.updateLeg_settles attempt.order.leg attempt.leg positive
  refine ⟨?_, ?_, ?_⟩
  · rw [BatchAttempt.posted, rating, List.map_append, SerialTable.map_snd_newRows, once.rows,
      List.flatMap_append, List.flatMap_singleton]
  · refine List.pairwise_append.mpr ⟨once.once, List.pairwise_singleton _ _, ?_⟩
    intro post member later later_mem same_leg r r_mem r' r'_mem same_cdr
    obtain rfl := List.mem_singleton.mp later_mem
    obtain ⟨rb, rb_mem, rfl⟩ := List.mem_map.mp r'_mem
    obtain ⟨row, row_mem, unmarked, id_eq⟩ := mem_batchWindow (of_mem_rated rb_mem).1
    have marked := once.settled post member r r_mem row row_mem (id_eq.trans same_cdr.symm)
    rw [same_leg] at marked
    exact marked unmarked
  · intro post member r r_mem row' row'_mem own
    rw [BatchAttempt.posted, cdrs] at row'_mem
    obtain ⟨row, row_mem, rfl⟩ := List.mem_map.mp row'_mem
    obtain ⟨id_eq, kept, joins⟩ := settles row
    rcases List.mem_append.mp member with old | new
    · exact kept _ (once.settled post old r r_mem row row_mem (id_eq.symm.trans own))
    · obtain rfl := List.mem_singleton.mp new
      have values :=
        store.db.rating.map_snd_newRows ((attempt.rated dims store).map RatedRow.values)
      rw [← values] at r_mem
      obtain ⟨inserted, inserted_mem, rfl⟩ := List.mem_map.mp r_mem
      exact joins ⟨_, List.mem_map_of_mem inserted_mem, own.symm.trans id_eq⟩

/-- Whatever the fault, the rows of a CDR are inserted once for a leg. -/
theorem Store.CommittedOnce.run (once : store.CommittedOnce) :
    (attempt.run dims store).CommittedOnce := by
  by_cases some_cdr : attempt.window store = []
  · rwa [BatchAttempt.run, if_pos some_cdr]
  by_cases unrated : attempt.rated dims store = []
  · exact once.of_charged (BatchAttempt.run_charged_of_unrated unrated)
  obtain ⟨posts, charges, -, charged⟩ := BatchAttempt.run_charged some_cdr unrated
  cases posts with
  | true => exact once.posted.of_charged charged
  | false => exact once.of_charged charged

end Once

/-! ## The balances after a fault -/

section Balances

variable {dims : Dims} {attempt : BatchAttempt} {store after : Store}

/-- What the balance of an account and period has more than the positive prices of its rows. -/
def Store.gap (dims : Dims) (store : Store) (key : AccountPeriod) : ℚ :=
  store.db.amount key - dims.billed key (store.db.rating.rows.map Prod.snd)

theorem balancesMatch_iff : store.BalancesMatch dims ↔ ∀ key, store.gap dims key = 0 :=
  forall_congr' fun _ => sub_eq_zero.symm

theorem Store.Charged.gap_eq {charge : AccountPeriod → ℚ}
    (charged : Store.Charged charge store after)
    (one : store.OneBalance) (key : AccountPeriod) :
    after.gap dims key = store.gap dims key + charge key := by
  rw [Store.gap, Store.gap, charged.rating, charged.amount one, sub_add_eq_add_sub]

/-- The first transaction opens the gap by what the second one charges. -/
theorem gap_posted (priced : attempt.PricedNonneg dims store) (key : AccountPeriod) :
    (attempt.posted dims store).gap dims key =
      store.gap dims key - dims.charge (attempt.rated dims store) key := by
  have rows := (post_eq attempt.order attempt.leg (attempt.rated dims store) store.db).1
  have same : (attempt.posted dims store).db.amount key = store.db.amount key := by
    rw [BatchAttempt.posted, Dims.post]
    split <;> rfl
  rw [Store.gap, Store.gap, same, BatchAttempt.posted, rows, List.map_append,
    SerialTable.map_snd_newRows, billed_append, billed_rated priced, sub_add_eq_sub_sub]

theorem oneBalance_posted (one : store.OneBalance) : (attempt.posted dims store).OneBalance := by
  rw [BatchAttempt.posted, Dims.post]
  split <;> exact one

theorem oneBalance_run (one : store.OneBalance) : (attempt.run dims store).OneBalance := by
  by_cases some_cdr : attempt.window store = []
  · rwa [BatchAttempt.run, if_pos some_cdr]
  by_cases unrated : attempt.rated dims store = []
  · exact (BatchAttempt.run_charged_of_unrated unrated).one one
  obtain ⟨posts, charges, -, charged⟩ := BatchAttempt.run_charged some_cdr unrated
  cases posts with
  | true => exact charged.one (oneBalance_posted one)
  | false => exact charged.one one

/-- A batch keeps the gaps exactly when the fault is in step or there is nothing to charge. -/
theorem gap_run_eq_iff (one : store.OneBalance) (priced : attempt.PricedNonneg dims store) :
    (∀ key, (attempt.run dims store).gap dims key = store.gap dims key) ↔
      attempt.Chargeless dims store ∨ attempt.InStep dims store := by
  rw [chargeless_iff priced]
  by_cases unrated : attempt.rated dims store = []
  · have charged := BatchAttempt.run_charged_of_unrated unrated
    refine iff_of_true (fun key => ?_) (.inl fun key => ?_)
    · rw [charged.gap_eq one, Pi.zero_apply, add_zero]
    · rw [unrated, charge_nil, Pi.zero_apply]
  have some_cdr : attempt.window store ≠ [] := by
    intro no_cdr
    obtain ⟨rb, rb_mem⟩ := List.exists_mem_of_ne_nil _ unrated
    have listed := (of_mem_rated rb_mem).1
    rw [no_cdr] at listed
    exact List.not_mem_nil listed
  obtain ⟨posts, charges, in_step, charged⟩ := BatchAttempt.run_charged some_cdr unrated
  rw [in_step]
  have moved (key : AccountPeriod) : (attempt.run dims store).gap dims key =
      store.gap dims key - (if posts then dims.charge (attempt.rated dims store) key else 0) +
        if charges then dims.charge (attempt.rated dims store) key else 0 := by
    cases posts with
    | true =>
        rw [charged.gap_eq (oneBalance_posted one), if_pos rfl, gap_posted priced]
        cases charges <;> rfl
    | false =>
        rw [charged.gap_eq one]
        cases charges <;> simp
  simp only [moved]
  cases posts <;> cases charges <;> simp

end Balances

/-! ## Runs with faults -/

/-- A batch of a run; after a stop the next one is of a new process. -/
def BatchAttempt.step (dims : Dims) (store : Store) (attempt : BatchAttempt) : Option Store :=
  some (attempt.run dims store)

section Runs

variable {dims : Dims} {store after : Store} {attempt : BatchAttempt} {attempts : List BatchAttempt}

theorem Store.Consistent.run (consistent : store.Consistent dims)
    (harmless : attempt.Harmless dims store) : (attempt.run dims store).Consistent dims where
  one := oneBalance_run consistent.one
  once := consistent.once.run
  balances := by
    have kept := (gap_run_eq_iff consistent.one harmless.priced).mpr harmless.fault
    have balanced := balancesMatch_iff.mp consistent.balances
    exact balancesMatch_iff.mpr fun key => (kept key).trans (balanced key)

/-- What a run without faults keeps of the store that it starts from. -/
structure Store.SameGap (dims : Dims) (start store : Store) : Prop where
  one : store.OneBalance
  once : store.CommittedOnce
  gap : ∀ key, store.gap dims key = start.gap dims key

/-- The loop of the engine is a run without faults. -/
theorem run_of_drain (cfg : DuckdbConfig) (order : ℕ → Leg → BatchOrder) {passes pass : ℕ}
    {store : Store} {db : Db}
    (drained : cfg.drain (fun _ => dims) order passes pass store.db = some db) :
    ∃ attempts after, GuardedRun (BatchAttempt.step dims) (fun _ attempt => attempt.fault = .none)
      store attempts after ∧ after.db = db := by
  have batches (legs : List Leg) (order : Leg → BatchOrder) (counted : ℕ) (store : Store) :
      ∃ attempts after, GuardedRun (BatchAttempt.step dims) (fun _ attempt => attempt.fault = .none)
        store attempts after ∧
          after.db = (legs.foldl (cfg.batch dims order) (counted, store.db)).2 := by
    induction legs generalizing counted store with
    | nil => exact ⟨[], store, .nil store, rfl⟩
    | cons leg rest induction =>
        let attempt : BatchAttempt := ⟨order leg, leg, cfg.limit, .none⟩
        obtain ⟨attempts, after, run, db_eq⟩ := induction
          (counted + (dims.rtDuckdbRateBatch (order leg) leg cfg.limit store.db).1)
          (attempt.run dims store)
        refine ⟨attempt :: attempts, after, .cons rfl rfl run, ?_⟩
        rw [db_eq, db_run_of_none dims attempt store rfl]
        rfl
  induction passes generalizing pass store with
  | zero => cases drained
  | succ passes induction =>
      obtain ⟨attempts, middle, run, db_eq⟩ := batches cfg.legs (order pass) 0 store
      rw [DuckdbConfig.drain] at drained
      have cycle_eq : (cfg.cycle dims (order pass) store.db).2 = middle.db := db_eq.symm
      rcases cycled : cfg.cycle dims (order pass) store.db with ⟨processed, next⟩
      rw [cycled] at drained cycle_eq
      obtain rfl : next = middle.db := cycle_eq
      cases processed with
      | zero => exact ⟨attempts, middle, run, Option.some.inj drained⟩
      | succ processed =>
          obtain ⟨more, after, run', after_eq⟩ := induction drained
          exact ⟨attempts ++ more, after, run.append run', after_eq⟩

/-- From every store there is a run without faults to one in which the legs are settled. -/
theorem exists_drained (dims : Dims) (cfg : DuckdbConfig) (order : ℕ → Leg → BatchOrder)
    (store : Store) :
    ∃ attempts after, GuardedRun (BatchAttempt.step dims) (fun _ attempt => attempt.fault = .none)
      store attempts after ∧ ∀ leg ∈ cfg.legs, ∀ row ∈ after.db.cdrs, row.mark leg ≠ 0 := by
  obtain ⟨db, drained, settled⟩ := cfg.drain_ends (fun _ => dims) order 0
    (Nat.lt_succ_self store.db.pending)
  obtain ⟨attempts, after, run, rfl⟩ := run_of_drain cfg order drained
  exact ⟨attempts, after, run, settled⟩

/-- The batches after a fault neither close a gap nor open one. -/
theorem sameGap_of_run (one : store.OneBalance) (once : store.CommittedOnce)
    (run : GuardedRun (BatchAttempt.step dims)
      (fun store attempt => attempt.PricedNonneg dims store ∧ attempt.fault = .none) store attempts
      after) : store.SameGap dims after := by
  refine run.preserves (fun {before next attempt} meets steps kept => ?_) ⟨one, once, fun _ => rfl⟩
  obtain rfl := Option.some.inj steps
  have in_step : attempt.InStep dims before := by
    rw [BatchAttempt.InStep, meets.2]
    trivial
  have same := (gap_run_eq_iff kept.one meets.1).mpr (.inr in_step)
  exact ⟨oneBalance_run kept.one, kept.once.run, fun key => (same key).trans (kept.gap key)⟩

end Runs

/-- Account 1 with a credit card, on a tariff that sells minutes. -/
def cardDims : Dims :=
  { allowanceDims ⟨1, 60, 1, 0⟩ 0 with
    pcard := [⟨1, ⟨1, 100, "", "", .active, .creditCard, 0⟩⟩] }

/-- One unrated CDR. -/
def oneCdr : Store where
  db := { cdrs := [⟨1, 0, 0⟩] }

/-- A batch on leg a. -/
def batchOfA (fault : Fault) : BatchAttempt := ⟨{}, .a, 5000, fault⟩

theorem oneCdr_consistent : oneCdr.Consistent cardDims where
  one _ := Nat.zero_le 1
  balances _ := rfl
  once := ⟨rfl, .nil, nofun⟩

end RateEngine
