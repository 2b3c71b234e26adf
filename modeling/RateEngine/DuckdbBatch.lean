import Mathlib.Data.List.Sort
import Mathlib.Data.String.Basic
import RateEngine.BalancePeriod
import RateEngine.CdrRaters
import RateEngine.Lib.RankedRows
import RateEngine.PriceAcceptance
import RateEngine.RateSelection

/-!
# A batch of the DuckDB engine

`rt_duckdb_rate_batch` takes a window of unrated CDRs, joins accounts, rates and tariffs to it,
prices the calls, inserts the rating rows, points the legs of the CDRs at them, charges the balances
and marks the rest of the window with `-1`.  Every join may multiply a CDR and every ranking may
choose among equal rows; this file shows that a batch settles exactly its window whatever is chosen,
and that the loop of `RateEngine` therefore drains any backlog.
-/

namespace RateEngine

open OrderDual (toDual)

/-! ## What the engine reads -/

/-- The dimension tables, and the columns of `cdrs` that rating leaves as they are. -/
structure Dims where
  accounts : AccountTables
  rates : RateTables
  calcFunction : ℕ → List CalcFunction
  freeBillsec : SerialTable ℤ := .empty
  pcard : List PcardRow := []
  call : ℕ → Cdr
  /-- The column is `NOT NULL`. -/
  startTs_ne : ∀ id, (call id).startTs ≠ ""
  /-- `CAST(text AS TIMESTAMP)`. -/
  castTs : String → Tm
  /-- The order in which the cards of an account with one `start_date` stand. -/
  cardTie : ℕ → ℕ := fun _ => 0

/-- The orders that the queries of a batch leave open: rows of equal rank, the values of an
`UPDATE … FROM`, and the rows of `rated_batch`. -/
structure BatchOrder where
  acct : ℕ → ℕ := fun _ => 0
  matched : ℕ → ℕ := fun _ => 0
  timeCondition : ℕ → ℕ := fun _ => 0
  freeBalance : ℕ → ℕ := fun _ => 0
  leg : ℕ → ℕ := fun _ => 0
  rated : List RatedRow → List RatedRow := id
  rated_perm : ∀ rows, (rated rows).Perm rows := by exact fun _ => .refl _

/-! ## The match -/

/-- `batch_window`: the lowest ids whose leg is `0`. -/
def batchWindow (leg : Leg) (limit : ℕ) (cdrs : List CdrRow) : List ℕ :=
  (((cdrs.filter fun row => row.mark leg = 0).map CdrRow.id).insertionSort (· ≤ ·)).take limit

/-- The columns on which `acct_all` joins, in the record of `rt_cdr_to_rating`. -/
def Cdr.joined (c : Cdr) : Rating where
  cdrServerId := c.cdrServerId
  clg := c.callingNumber
  accountCode := c.accountCode
  srcContext := c.srcContext
  dstContext := c.dstContext
  srcTgroup := c.srcTgroup
  dstTgroup := c.dstTgroup
  clgNadi := c.clgNadi
  cldNadi := c.cldNadi

/-- A row of `acct_all`. -/
structure AcctRow where
  cdrId : ℕ
  prio : ℕ
  ratingModeId : ℕ
  baccId : ℕ
  roundModeId : ℕ
  bplanId : ℕ
deriving DecidableEq, Repr

/-- A row of `matched`. -/
structure MatchedRow where
  cdr : Cdr
  acct : AcctRow
  rate : Rate
deriving DecidableEq, Repr

/-- A row of `best_match`. -/
structure BestMatchRow extends MatchedRow where
  tcId : ℕ
  pcardId : ℕ
deriving DecidableEq, Repr

/-- `COALESCE(NULLIF(TRY_CAST(ba.billing_day AS INTEGER),0),1)`. -/
def BillingAccountRow.bday (ba : BillingAccountRow) : ℕ :=
  if ba.billingDay = 0 then 1 else ba.billingDay

namespace Dims

variable (dims : Dims) (order : BatchOrder)

/-- The columns of the window. -/
def windowCdrs (window : List ℕ) : List Cdr := window.map fun id => { dims.call id with id }

/-- `acct_all`, as `rt_build_acct_union` writes it. -/
def acctAll (leg : Leg) (window : List Cdr) : List AcctRow :=
  (rtAcctModes.filter fun m => m.leg = leg).flatMap fun m =>
    (window.filter fun c => c.recType = m.recType).flatMap fun c =>
      (dims.accounts.modeRows c.joined m.mode).map fun row =>
        { cdrId := c.id
          prio := m.prio
          ratingModeId := m.mode.id
          baccId := row.baccId
          roundModeId := row.roundModeId
          bplanId := row.bplanId }

/-- `acct`. -/
def acct (leg : Leg) (window : List Cdr) : List AcctRow :=
  RankedRows.firsts AcctRow.cdrId AcctRow.prio order.acct (dims.acctAll leg window)

/-- `matched`. -/
def matched (leg : Leg) (window : List Cdr) : List MatchedRow :=
  window.flatMap fun c =>
    ((dims.acct order leg window).filter fun a => a.cdrId = c.id).flatMap fun a =>
      (dims.rates.matched a.bplanId c.calledNumber).map fun rt => ⟨c, a, rt⟩

/-- `tc_match_id`. -/
def tcMatch (m : MatchedRow) : Option ℕ :=
  (RankedRows.first? (fun row : ℤ × TimeCond => toDual row.1) (order.timeCondition m.cdr.id)
    ((dims.rates.timeConds m.rate.tariffId).filter fun row =>
      row.2.sqlMeets (dims.castTs m.cdr.startTs))).map fun row => row.2.id

/-- The active cards of an account that cover a date. -/
def cards (baccId : ℕ) (date : ℕ × ℕ × ℕ) : List Pcard :=
  (dims.pcard.filter fun row => row.baccId = baccId && row.card.status = .active &&
    row.card.sqlCovers date).map PcardRow.card

/-- The card that `ORDER BY p.start_date DESC` puts first. -/
def card (baccId : ℕ) (date : ℕ × ℕ × ℕ) : Option Pcard :=
  RankedRows.first? (fun card : Pcard => toDual card.start) (dims.cardTie baccId)
    (dims.cards baccId date)

/-- `has_tc`. -/
def hasTc (tariffId : ℕ) : Bool :=
  !(dims.rates.timeCondition.select fun tc => tc.tariffId = tariffId).isEmpty

/-- `best_match`. -/
def bestMatch (leg : Leg) (window : List Cdr) : List BestMatchRow :=
  ((RankedRows.firsts (fun m : MatchedRow => m.cdr.id)
      (fun m => toDual m.rate.prefixStr.length) order.matched
      (dims.matched order leg window)).filter fun m =>
    !dims.hasTc m.rate.tariffId || (dims.tcMatch order m).isSome).map fun m =>
      { m with
        tcId := (dims.tcMatch order m).getD 0
        pcardId := ((dims.card m.acct.baccId (dims.castTs m.cdr.startTs).castDate).map
          Pcard.id).getD 0 }

/-- `JOIN billing_account ba ON ba.id = …`. -/
def accountsOf (baccId : ℕ) : List (ℕ × BillingAccountRow) :=
  dims.accounts.billingAccount.rows.filter fun ba => ba.1 = baccId

/-- `pstart`. -/
def pstart (ba : BillingAccountRow) (ts : String) : ℕ × ℕ × ℕ :=
  winStart ba.bday (dims.castTs ts).castDate

/-- `fb_limit` over the rows of `LEFT JOIN free_billsec f`. -/
def fbLimits (fbid : ℕ) : List ℤ :=
  match dims.freeBillsec.rows.filter fun f => f.1 = fbid with
  | [] => [0]
  | rows => rows.map Prod.snd

/-- `fb`. -/
def fb (leg : Leg) (window : List Cdr) : List FbRow :=
  (dims.bestMatch order leg window).flatMap fun bm =>
    (dims.rates.tariff.rows.filter fun t => t.1 = bm.rate.tariffId).flatMap fun t =>
      (dims.accountsOf bm.acct.baccId).flatMap fun ba =>
        (dims.fbLimits t.2.freeBillsecId).map fun limit =>
          { cdrId := bm.cdr.id
            billsec := matchedBillsec bm.acct.roundModeId bm.cdr.billusec bm.cdr.billsec
            startTs := bm.cdr.startTs
            baccId := bm.acct.baccId
            rateId := bm.rate.id
            tariffId := bm.rate.tariffId
            ratingModeId := bm.acct.ratingModeId
            tcId := bm.tcId
            pcardId := bm.pcardId
            fbid := t.2.freeBillsecId
            fbLimit := limit
            pstart := dateText (dims.pstart ba.2 bm.cdr.startTs) }

/-- `hist`: the seconds of a pool that the rating table holds.  The query leaves out the accounts
without a call on an allowance, for which `split` has no row. -/
def hist (rating : List RatingRow) (pool : ℕ × ℕ × String) : ℤ :=
  (rating.flatMap fun r =>
    ((dims.accountsOf r.baccId).filter fun ba =>
      r.callPrice < 0 && r.freeBillsecId ≠ 0 &&
        (r.baccId, r.freeBillsecId, dateText (dims.pstart ba.2 r.callTs)) = pool).map
      fun _ => r.callBillsec).sum

/-- `rated_batch`, as `SELECT * FROM rated_batch` reads it. -/
def rated (leg : Leg) (window : List ℕ) (rating : List RatingRow) : List RatedRow :=
  order.rated (ratedBatch dims.calcFunction (dims.hist rating)
    (dims.fb order leg (dims.windowCdrs window)))

end Dims

/-! ## The writes -/

/-- `safe_ts`. -/
def safeTs (ts : String) : String := if ts = "" then "1970-01-01 00:00:00" else ts

/-- The row that the `INSERT` writes. -/
def RatedRow.values (row : RatedRow) : RatingRow where
  callPrice := row.cprice
  callBillsec := row.billsec
  rateId := row.portion.call.rateId
  baccId := row.portion.call.baccId
  callId := row.portion.call.cdrId
  ratingModeId := row.portion.call.ratingModeId
  pcardId := row.portion.call.pcardId
  timeConditionId := row.portion.call.tcId
  callTs := safeTs row.portion.call.startTs
  freeBillsecId := row.portion.fbidOut

/-- Set the mark of a leg. -/
def CdrRow.setMark (row : CdrRow) (mark : ℤ) : Leg → CdrRow
  | .a => { row with legA := mark }
  | .b => { row with legB := mark }

/-- `UPDATE cdrs SET leg = v.rid FROM v WHERE cdrs.id = v.cid`: one of the values of a CDR. -/
def CdrRow.updateLeg (tie : ℕ → ℕ) (leg : Leg) (v : List (ℕ × ℕ)) (row : CdrRow) : CdrRow :=
  let rids := (v.filter fun value => value.1 = row.id).map Prod.snd
  match rids[tie row.id % rids.length]? with
  | none => row
  | some rid => row.setMark rid leg

/-- `UPDATE cdrs SET leg = -1 WHERE leg = 0 AND id IN (…)`. -/
def CdrRow.markUnmatched (leg : Leg) (ids : List ℕ) (row : CdrRow) : CdrRow :=
  if row.mark leg = 0 ∧ row.id ∈ ids then row.setMark (-1) leg else row

/-- The `id` lists of the `-1` statements, no more than `chunk` ids each; `rows`
bounds the passes. -/
def markChunks (chunk : ℕ) : ℕ → List ℕ → List (List ℕ)
  | 0, _ => []
  | rows + 1, ids =>
      if ids = [] then [] else ids.take chunk :: markChunks chunk rows (ids.drop chunk)

/-- The key of a balance: account, `start_date` and `end_date`. -/
abbrev AccountPeriod := ℕ × String × String

/-- The active balances of an account and period. -/
def BalanceRow.isOf (key : AccountPeriod) : BalanceRow → Bool :=
  BalanceRow.isActiveFor key.1 key.2.1 key.2.2

namespace Db

/-- `INSERT INTO rating`. -/
def insertRating (rows : List RatedRow) (db : Db) : Db :=
  { db with rating := db.rating.insertAll (rows.map RatedRow.values) }

/-- `v`: the `call_id` and `id` that the `INSERT` returns. -/
def returned (rows : List RatedRow) (db : Db) : List (ℕ × ℕ) :=
  (db.rating.newRows (rows.map RatedRow.values)).map fun row => (row.2.callId, row.1)

def updateLeg (tie : ℕ → ℕ) (leg : Leg) (v : List (ℕ × ℕ)) (db : Db) : Db :=
  { db with cdrs := db.cdrs.map (CdrRow.updateLeg tie leg v) }

def markUnmatched (leg : Leg) (ids : List ℕ) (db : Db) : Db :=
  { db with cdrs := db.cdrs.map (CdrRow.markUnmatched leg ids) }

/-- The upsert of `rt_duckdb_balance`. -/
def chargeBalance (key : AccountPeriod) (amt : ℚ) (db : Db) : Db :=
  if db.balance.rows.any fun row => row.2.isOf key then
    { db with
      balance := db.balance.update (fun _ row => row.isOf key) fun row =>
        { row with amount := row.amount + amt } }
  else
    { db with
      balance := db.balance.insert
        { baccId := key.1, startDate := key.2.1, endDate := key.2.2, active := true,
          amount := amt } }

/-- The upsert of `rt_duckdb_free_balance`. -/
def setFreeBalance (bal fbid : ℕ) (used : ℤ) (db : Db) : Db :=
  if db.freeBillsecBalance.rows.any fun row => row.2.balanceId = bal &&
    row.2.freeBillsecId = fbid then
    { db with
      freeBillsecBalance := db.freeBillsecBalance.update
        (fun _ row => row.balanceId = bal && row.freeBillsecId = fbid) fun row =>
          { row with freeBillsec := used } }
  else
    { db with
      freeBillsecBalance := db.freeBillsecBalance.insert
        { balanceId := bal, freeBillsecId := fbid, freeBillsec := used } }

end Db

namespace Dims

variable (dims : Dims) (order : BatchOrder)

/-- The balance that a call of the account is charged to. -/
def period (baccId : ℕ) (ts : String) : Option AccountPeriod :=
  (dims.accountsOf baccId).head?.bind fun ba =>
    (dims.card baccId (dims.castTs ts).castDate).map fun card =>
      (baccId, card.sqlPeriod ba.2.bday (dims.castTs ts).castDate)

/-- `per`: the paid rows that have a balance.  A CDR has one paid row, so the cards ranked for the
CDR are those of the row. -/
def per (rated : List RatedRow) : List (AccountPeriod × ℚ) :=
  (rated.filter fun rb => rb.portion.kind = .paid).filterMap fun rb =>
    (dims.period rb.portion.call.baccId rb.portion.call.startTs).map fun key => (key, rb.cprice)

/-- `bal_delta`. -/
def balDelta (rated : List RatedRow) : List (AccountPeriod × ℚ) :=
  ((dims.per rated).map Prod.fst).dedup.map fun key =>
    (key, (((dims.per rated).filter fun row => row.1 = key).map Prod.snd).sum)

/-- The accounts, allowances and periods of which `rated_batch` uses free seconds. -/
def freeUsers (rated : List RatedRow) : List (ℕ × ℕ × ℕ × ℕ × ℕ) :=
  ((rated.filter fun rb => rb.portion.kind = .free && rb.portion.fbidOut ≠ 0).flatMap fun rb =>
    (dims.accountsOf rb.portion.call.baccId).map fun ba =>
      (rb.portion.call.baccId, rb.portion.fbidOut,
        dims.pstart ba.2 rb.portion.call.startTs)).dedup

/-- The free seconds of an account and allowance from a date to the month after it. -/
def usedFrom (rating : List RatingRow) (baccId fbid : ℕ) (start : ℕ × ℕ × ℕ) : ℤ :=
  ((rating.filter fun r => r.callPrice < 0 && r.freeBillsecId = fbid && r.baccId = baccId &&
    !decide (DateLt (dims.castTs r.callTs).castDate start) &&
      decide (DateLt (dims.castTs r.callTs).castDate (addMonth start))).map
        RatingRow.callBillsec).sum

/-- `fbb_delta`, where the period has a balance. -/
def fbbDelta (db : Db) (rated : List RatedRow) : List (ℕ × ℕ × ℤ) :=
  (dims.freeUsers rated).filterMap fun (baccId, fbid, start) =>
    let balances := db.balance.rows.filter fun row =>
      row.2.isOf (baccId, dateText start, dateText (addMonth start))
    balances[order.freeBalance baccId % balances.length]?.map fun b =>
      (b.1, fbid, dims.usedFrom (db.rating.rows.map Prod.snd) baccId fbid start)

/-- `rt_duckdb_balance`. -/
def rtDuckdbBalance (rated : List RatedRow) (db : Db) : Db :=
  (dims.balDelta rated).foldl (fun db delta => db.chargeBalance delta.1 delta.2) db

/-- `rt_duckdb_free_balance`; the scanner reads what is committed. -/
def rtDuckdbFreeBalance (committed : Db) (rated : List RatedRow) (db : Db) : Db :=
  (dims.fbbDelta order committed rated).foldl
    (fun db delta => db.setFreeBalance delta.1 delta.2.1 delta.2.2) db

/-- The first transaction: the rows and the legs. -/
def post (leg : Leg) (rated : List RatedRow) (db : Db) : Db :=
  if rated = [] then db
  else (db.insertRating rated).updateLeg order.leg leg (db.returned rated)

/-- `um`: the window without the CDRs of `rated_batch`. -/
def unmatched (window : List ℕ) (rated : List RatedRow) : List ℕ :=
  window.filter fun id => id ∉ rated.map fun rb => rb.portion.call.cdrId

/-- The second transaction: the balances and the `-1` marks. -/
def settle (leg : Leg) (window : List ℕ) (rated : List RatedRow) (committed : Db) : Db :=
  let charged :=
    if rated = [] then committed
    else dims.rtDuckdbFreeBalance order committed rated (dims.rtDuckdbBalance rated committed)
  let um := unmatched window rated
  (markChunks 2000 um.length um).foldl (fun db ids => db.markUnmatched leg ids) charged

/-- `rt_duckdb_rate_batch` when every statement succeeds: the size of the window, the number of
rated rows and the database. -/
def rtDuckdbRateBatch (leg : Leg) (limit : ℕ) (db : Db) : ℕ × ℕ × Db :=
  let window := batchWindow leg limit db.cdrs
  if window = [] then (0, 0, db)
  else
    let rated := dims.rated order leg window (db.rating.rows.map Prod.snd)
    (window.length, rated.length, dims.settle order leg window rated (post order leg rated db))

end Dims

/-! ## The loop -/

/-- The settings that the loop of `RateEngine` reads; without a leg it rates both. -/
structure DuckdbConfig where
  leg : Option Leg
  batchLimit : ℤ

namespace DuckdbConfig

variable (cfg : DuckdbConfig)

/-- `batch_limit` between its bounds. -/
def limit : ℕ :=
  if cfg.batchLimit ≤ 0 then 5000
  else if 50000 < cfg.batchLimit then 50000
  else cfg.batchLimit.toNat

def legs : List Leg :=
  match cfg.leg with
  | none => [.a, .b]
  | some leg => [leg]

/-- The batch of a leg within a pass, after some CDRs of its windows. -/
def batch (dims : Dims) (order : Leg → BatchOrder) (pass : ℕ × Db) (leg : Leg) : ℕ × Db :=
  let batch := dims.rtDuckdbRateBatch (order leg) leg cfg.limit pass.2
  (pass.1 + batch.1, batch.2.2)

/-- One pass of the loop: the CDRs of its windows and the database. -/
def cycle (dims : Dims) (order : Leg → BatchOrder) (db : Db) : ℕ × Db :=
  cfg.legs.foldl (cfg.batch dims order) (0, db)

/-- The loop until its idle branch, when it gets there in the given number of passes; the dimension
tables are those of the pass. -/
def drain (dims : ℕ → Dims) (order : ℕ → Leg → BatchOrder) : ℕ → ℕ → Db → Option Db
  | 0, _, _ => none
  | passes + 1, pass, db =>
      match cfg.cycle (dims pass) (order pass) db with
      | (0, db) => some db
      | (_ + 1, db) => drain dims order passes (pass + 1) db

end DuckdbConfig

/-! ## What it settles -/

/-- What a batch does to a row of `cdrs`: a CDR of the window gets the id of a new rating row of its
own, or `-1` when it has none, and every other CDR keeps its marks. -/
structure CdrRow.Settled (leg : Leg) (window : List ℕ) (added : List (ℕ × RatingRow))
    (row row' : CdrRow) : Prop where
  id : row'.id = row.id
  other : ∀ leg' ≠ leg, row'.mark leg' = row.mark leg'
  outside : row.id ∉ window → row' = row
  marked : row.mark leg ≠ 0 → row'.mark leg ≠ 0
  rated : row.id ∈ window → row.mark leg = 0 → (∃ new ∈ added, new.2.callId = row.id) →
    ∃ new ∈ added, new.2.callId = row.id ∧ row'.mark leg = new.1
  unrated : row.id ∈ window → row.mark leg = 0 → (∀ new ∈ added, new.2.callId ≠ row.id) →
    row'.mark leg = -1

/-- A batch adds rating rows for CDRs of the window, no more than one free and one paid row each,
and settles the rows of `cdrs`. -/
structure SettlesWindow (leg : Leg) (window : List ℕ) (before after : Db)
    (added : List (ℕ × RatingRow)) : Prop where
  rating : after.rating.rows = before.rating.rows ++ added
  own : ∀ new ∈ added, new.2.callId ∈ window
  one : (added.map fun new => (new.2.callId, decide (new.2.freeBillsecId = 0))).Nodup
  cdrs : List.Forall₂ (CdrRow.Settled leg window added) before.cdrs after.cdrs

/-- The CDRs that a leg has not settled. -/
def Db.backlog (db : Db) (leg : Leg) : ℕ := db.cdrs.countP fun row => row.mark leg = 0

/-! ## One call for each CDR -/

section Match

variable {dims : Dims} {order : BatchOrder} {leg : Leg}

theorem mem_batchWindow {limit : ℕ} {cdrs : List CdrRow} {id : ℕ}
    (member : id ∈ batchWindow leg limit cdrs) : ∃ row ∈ cdrs, row.mark leg = 0 ∧ row.id = id := by
  have sorted := List.mem_of_mem_take member
  rw [List.mem_insertionSort, List.mem_map] at sorted
  obtain ⟨row, row_mem, own⟩ := sorted
  obtain ⟨row_mem, unmarked⟩ := List.mem_filter.mp row_mem
  exact ⟨row, row_mem, of_decide_eq_true unmarked, own⟩

theorem batchWindow_eq_nil_iff {limit : ℕ} {cdrs : List CdrRow} :
    batchWindow leg limit cdrs = [] ↔ limit = 0 ∨ ∀ row ∈ cdrs, row.mark leg ≠ 0 := by
  have unsorted :
      ((cdrs.filter fun row => row.mark leg = 0).map CdrRow.id).insertionSort (· ≤ ·) = [] ↔
      ∀ row ∈ cdrs, row.mark leg ≠ 0 := by
    rw [← List.length_eq_zero_iff, List.length_insertionSort, List.length_eq_zero_iff,
      List.map_eq_nil_iff, List.filter_eq_nil_iff]
    simp
  rw [batchWindow, List.take_eq_nil_iff, unsorted]

theorem mem_windowCdrs {window : List ℕ} {c : Cdr} (member : c ∈ dims.windowCdrs window) :
    c.id ∈ window ∧ c.startTs ≠ "" := by
  obtain ⟨id, id_mem, rfl⟩ := List.mem_map.mp member
  exact ⟨id_mem, dims.startTs_ne id⟩

theorem mem_matched {window : List Cdr} {m : MatchedRow}
    (member : m ∈ dims.matched order leg window) : m.cdr ∈ window := by
  simp only [Dims.matched, List.mem_flatMap, List.mem_map] at member
  obtain ⟨c, c_mem, a, -, rt, -, rfl⟩ := member
  exact c_mem

/-- `best_match` is a selection among the first rows of `matched`. -/
theorem mem_bestMatch {window : List Cdr} {bm : BestMatchRow}
    (member : bm ∈ dims.bestMatch order leg window) : bm.cdr ∈ window := by
  obtain ⟨m, m_mem, rfl⟩ := List.mem_map.mp member
  exact mem_matched (RankedRows.mem_of_mem_firsts (List.mem_of_mem_filter m_mem)).1

theorem bestMatch_nodup (window : List Cdr) :
    ((dims.bestMatch order leg window).map fun bm => bm.cdr.id).Nodup := by
  have first : ((RankedRows.firsts (fun m : MatchedRow => m.cdr.id)
      (fun m => toDual m.rate.prefixStr.length) order.matched
      (dims.matched order leg window)).map fun m => m.cdr.id).Nodup := RankedRows.keys_nodup_firsts
  rw [Dims.bestMatch, List.map_map]
  exact (List.filter_sublist.map _).nodup first

/-- The account of a CDR is one that the fallback order allows. -/
theorem acct_chooses (env : Env) {window : List ℕ} {c : Cdr} {a : AcctRow}
    (listed : c ∈ dims.windowCdrs window)
    (member : a ∈ dims.acct order leg (dims.windowCdrs window))
    (own : a.cdrId = c.id) :
    DuckdbChooses dims.accounts leg c.recType (rtCdrToRating env c) (some a.baccId) := by
  have same_rows (mode : RtMode) : dims.accounts.modeRows (rtCdrToRating env c) mode =
      dims.accounts.modeRows c.joined mode := by
    cases mode <;> rfl
  have same_cdr {other : Cdr} (other_listed : other ∈ dims.windowCdrs window)
      (same_id : other.id = c.id) : other = c := by
    obtain ⟨id, -, rfl⟩ := List.mem_map.mp other_listed
    obtain ⟨id', -, rfl⟩ := List.mem_map.mp listed
    obtain rfl : id = id' := same_id
    rfl
  obtain ⟨joined, least⟩ := RankedRows.mem_of_mem_firsts member
  simp only [Dims.acctAll, List.mem_flatMap, List.mem_map, List.mem_filter,
    decide_eq_true_eq] at joined least
  obtain ⟨m, ⟨m_mem, m_leg⟩, other, ⟨other_listed, other_type⟩, row, row_mem, rfl⟩ := joined
  obtain rfl := same_cdr other_listed own
  have ranked (mode : RtAcctMode) (row : RaccRow) :
      (mode.prio, row) ∈ acctAll dims.accounts leg other.recType (rtCdrToRating env other) ↔
        ∃ m' ∈ rtAcctModes, (m'.leg = leg ∧ m'.recType = other.recType) ∧
          row ∈ dims.accounts.modeRows other.joined m'.mode ∧ m'.prio = mode.prio := by
    simp [acctAll, same_rows, and_assoc]
  refine ⟨(m.prio, row), (ranked m row).mpr ⟨m, m_mem, ⟨m_leg, other_type.symm⟩, row_mem, rfl⟩, rfl,
    fun rival rival_mem => ?_⟩
  simp only [acctAll, same_rows, List.mem_flatMap, List.mem_map, List.mem_filter, Bool.and_eq_true,
    decide_eq_true_eq] at rival_mem
  obtain ⟨m', ⟨m'_mem, m'_leg, m'_type⟩, row', row'_mem, rfl⟩ := rival_mem
  exact least _ ⟨m', ⟨m'_mem, m'_leg⟩, other, ⟨other_listed, m'_type.symm⟩, row', row'_mem, rfl⟩ rfl

/-- The rate of a CDR is one that the ranking of its account's rates allows. -/
theorem bestMatch_ranked {window : List Cdr} {bm : BestMatchRow}
    (member : bm ∈ dims.bestMatch order leg window) :
    dims.rates.BestMatch bm.acct.bplanId bm.cdr.calledNumber (dims.castTs bm.cdr.startTs)
      (some (bm.rate.id, bm.rate.tariffId)) := by
  obtain ⟨m, m_mem, rfl⟩ := List.mem_map.mp member
  obtain ⟨first, passes⟩ := List.mem_filter.mp m_mem
  obtain ⟨m_mem, least⟩ := RankedRows.mem_of_mem_firsts first
  simp only [Dims.matched, List.mem_flatMap, List.mem_map] at m_mem least
  obtain ⟨c, c_mem, a, a_mem, rt, rt_mem, rfl⟩ := m_mem
  have ranked : dims.rates.RankedFirst a.bplanId c.calledNumber rt :=
    ⟨rt_mem, fun other other_mem =>
      least ⟨c, a, other⟩ ⟨c, c_mem, a, a_mem, other, other_mem, rfl⟩ rfl⟩
  refine .found ranked ?_
  rw [RateTables.tcPasses]
  rw [Dims.hasTc, Bool.not_not] at passes
  rcases Bool.or_eq_true_iff.mp passes with untimed | timed
  · rw [untimed, Bool.true_or]
  · have some_met : ((dims.rates.timeConds rt.tariffId).any fun row =>
        row.2.sqlMeets (dims.castTs c.startTs)) = true := by
      obtain ⟨tcId, found⟩ := Option.isSome_iff_exists.mp timed
      obtain ⟨row, row_first, -⟩ := Option.map_eq_some_iff.mp found
      exact List.any_eq_true.mpr
        ⟨row, List.mem_filter.mp (RankedRows.mem_of_first? row_first).1⟩
    rw [some_met, Bool.or_true]

theorem length_accountsOf (baccId : ℕ) : (dims.accountsOf baccId).length ≤ 1 :=
  KeyedRows.length_filter_le_one dims.accounts.billingAccount.keys_nodup baccId

theorem length_fbLimits (fbid : ℕ) : (dims.fbLimits fbid).length = 1 := by
  have one : (dims.freeBillsec.rows.filter fun f => f.1 = fbid).length ≤ 1 :=
    KeyedRows.length_filter_le_one dims.freeBillsec.keys_nodup fbid
  rw [Dims.fbLimits]
  split
  · rfl
  · rename_i none_found
    rw [List.length_map]
    have := List.length_pos_iff.mpr none_found
    omega

/-- The columns of a row of `fb` are those of a CDR of the window. -/
theorem mem_fb {window : List Cdr} {call : FbRow} (member : call ∈ dims.fb order leg window) :
    ∃ c ∈ window, call.cdrId = c.id ∧ call.startTs = c.startTs := by
  simp only [Dims.fb, List.mem_flatMap, List.mem_map] at member
  obtain ⟨bm, bm_mem, t, -, ba, -, limit, -, rfl⟩ := member
  exact ⟨bm.cdr, mem_bestMatch bm_mem, rfl, rfl⟩

/-- The joins behind `best_match` are with keys, so no CDR is multiplied. -/
theorem fb_nodup (window : List Cdr) : ((dims.fb order leg window).map FbRow.cdrId).Nodup := by
  refine KeyedRows.nodup_flatMap (bestMatch_nodup window) (fun bm _ call member => ?_)
    fun bm _ => ?_
  · simp only [List.mem_flatMap, List.mem_map] at member
    obtain ⟨t, -, ba, -, limit, -, rfl⟩ := member
    rfl
  · have tariffs : (dims.rates.tariff.rows.filter fun t => t.1 = bm.rate.tariffId).length ≤ 1 :=
      KeyedRows.length_filter_le_one dims.rates.tariff.keys_nodup bm.rate.tariffId
    have accounts : (dims.accountsOf bm.acct.baccId).length ≤ 1 := length_accountsOf _
    have limits (fbid : ℕ) : (dims.fbLimits fbid).length = 1 := length_fbLimits fbid
    simpa [List.length_flatMap, limits] using Nat.mul_le_mul tariffs accounts

end Match

/-! ## The rated rows -/

section Rated

variable {dims : Dims} {order : BatchOrder} {leg : Leg} {window : List ℕ} {rating : List RatingRow}

theorem mem_rated {rb : RatedRow} : rb ∈ dims.rated order leg window rating ↔
    rb ∈ ratedBatch dims.calcFunction (dims.hist rating)
      (dims.fb order leg (dims.windowCdrs window)) :=
  (order.rated_perm _).mem_iff

theorem portion_mem_of_mem_ratedBatch {calcFunction : ℕ → List CalcFunction}
    {hist : ℕ × ℕ × String → ℤ} {fb : List FbRow} {rb : RatedRow}
    (member : rb ∈ ratedBatch calcFunction hist fb) : rb.portion ∈ portions hist fb := by
  obtain ⟨pt, pt_mem, row_eq⟩ := List.mem_filterMap.mp member
  obtain ⟨last, -, rfl⟩ := Option.map_eq_some_iff.mp row_eq
  exact pt_mem

/-- A rated row is of a CDR of the window, and its allowance tells its kind. -/
theorem of_mem_rated {rb : RatedRow} (member : rb ∈ dims.rated order leg window rating) :
    rb.portion.call.cdrId ∈ window ∧ rb.portion.call.startTs ≠ "" ∧
      (rb.portion.kind = .paid ↔ rb.portion.fbidOut = 0) := by
  have pt_mem := portion_mem_of_mem_ratedBatch (mem_rated.mp member)
  obtain ⟨c, c_mem, id_eq, ts_eq⟩ := mem_fb (call_mem_of_mem_portions pt_mem)
  obtain ⟨id_mem, ts_ne⟩ := mem_windowCdrs c_mem
  refine ⟨id_eq ▸ id_mem, ts_eq ▸ ts_ne, ?_⟩
  obtain ⟨call, -, ⟨-, pt_eq⟩ | ⟨-, -, pt_eq⟩ | ⟨allowed, -, pt_eq⟩⟩ := mem_portions.mp pt_mem
  · simp [← pt_eq]
  · simp [← pt_eq]
  · simp [← pt_eq, allowed.1]

/-- A CDR has no more than one rated row of each kind. -/
theorem rated_nodup :
    ((dims.rated order leg window rating).map fun rb => rb.portion.key).Nodup := by
  have distinct : ((portions (dims.hist rating) (dims.fb order leg (dims.windowCdrs window))).map
      Portion.key).Nodup := portions_key_nodup (fb_nodup _)
  have kept (pts : List Portion) (walk : List PriceWalkRow) :
      (pts.filterMap fun pt => (finalRow walk pt.key).map fun row =>
        (⟨pt, row.bsec, pt.sgn * row.price⟩ : RatedRow)).map (fun rb => rb.portion.key) =
      (pts.filter fun pt => (finalRow walk pt.key).isSome).map Portion.key := by
    induction pts with
    | nil => rfl
    | cons pt rest induction => cases last : finalRow walk pt.key <;> simp [last, induction]
  refine (((order.rated_perm _).map _).nodup_iff).mpr ?_
  rw [ratedBatch, kept]
  exact (List.filter_sublist.map _).nodup distinct

end Rated

/-! ## The marks -/

namespace CdrRow

variable (row : CdrRow) (leg : Leg)

@[simp]
theorem id_setMark (mark : ℤ) : (row.setMark mark leg).id = row.id := by cases leg <;> rfl

@[simp]
theorem mark_setMark (mark : ℤ) : (row.setMark mark leg).mark leg = mark := by cases leg <;> rfl

theorem mark_setMark_of_ne (mark : ℤ) {leg' : Leg} (other : leg' ≠ leg) :
    (row.setMark mark leg).mark leg' = row.mark leg' := by
  cases leg <;> cases leg' <;> first | exact absurd rfl other | rfl

variable {row leg} {tie : ℕ → ℕ} {v : List (ℕ × ℕ)}

/-- A CDR without a value in `v` is not joined. -/
theorem updateLeg_of_absent (absent : ∀ value ∈ v, value.1 ≠ row.id) :
    row.updateLeg tie leg v = row := by
  have unjoined : (v.filter fun value => value.1 = row.id) = [] :=
    List.filter_eq_nil_iff.mpr fun value member => by simpa using absent value member
  simp only [updateLeg, unjoined]
  rfl

/-- A CDR with values in `v` gets one of them. -/
theorem updateLeg_of_joined (leg : Leg) (tie : ℕ → ℕ) (joined : ∃ value ∈ v, value.1 = row.id) :
    ∃ value ∈ v, value.1 = row.id ∧ row.updateLeg tie leg v = row.setMark value.2 leg := by
  obtain ⟨value, value_mem, own⟩ := joined
  have positive : 0 < ((v.filter fun value => value.1 = row.id).map Prod.snd).length := by
    rw [List.length_map]
    exact List.length_pos_of_mem (List.mem_filter.mpr ⟨value_mem, by simpa using own⟩)
  have taken := List.getElem?_eq_getElem (Nat.mod_lt (tie row.id) positive)
  obtain ⟨chosen, chosen_mem, rid_eq⟩ := List.mem_map.mp (List.mem_of_getElem? taken)
  obtain ⟨chosen_mem, chosen_own⟩ := List.mem_filter.mp chosen_mem
  refine ⟨chosen, chosen_mem, of_decide_eq_true chosen_own, ?_⟩
  simp only [updateLeg, taken, rid_eq]

/-- Marking some ids and then others marks all of them. -/
theorem markUnmatched_append (ids more : List ℕ) :
    (row.markUnmatched leg ids).markUnmatched leg more = row.markUnmatched leg (ids ++ more) := by
  by_cases unmarked : row.mark leg = 0
  · by_cases listed : row.id ∈ ids
    · simp [markUnmatched, unmarked, listed]
    · simp [markUnmatched, unmarked, listed]
  · simp [markUnmatched, unmarked]

end CdrRow

/-- The chunks are the ids, none left out at a border. -/
theorem flatten_markChunks {chunk : ℕ} (positive : 0 < chunk) {rows : ℕ} {ids : List ℕ}
    (enough : ids.length ≤ rows) : (markChunks chunk rows ids).flatten = ids := by
  induction rows generalizing ids with
  | zero =>
      obtain rfl : ids = [] := List.length_eq_zero_iff.mp (Nat.le_zero.mp enough)
      rfl
  | succ rows induction =>
      rw [markChunks]
      by_cases empty : ids = []
      · simp [empty]
      · have shorter : (ids.drop chunk).length ≤ rows := by
          have := List.length_pos_iff.mpr empty
          rw [List.length_drop]
          omega
        rw [if_neg empty, List.flatten_cons, induction shorter, List.take_append_drop]

theorem Db.markUnmatched_markUnmatched (db : Db) (leg : Leg) (ids more : List ℕ) :
    (db.markUnmatched leg ids).markUnmatched leg more = db.markUnmatched leg (ids ++ more) := by
  simp only [Db.markUnmatched, List.map_map]
  congr 1
  exact List.map_congr_left fun row _ => CdrRow.markUnmatched_append ids more

/-- The `-1` statements together mark the ids of all chunks. -/
theorem foldl_markUnmatched (leg : Leg) (chunks : List (List ℕ)) (db : Db) :
    chunks.foldl (fun db ids => db.markUnmatched leg ids) db =
      db.markUnmatched leg chunks.flatten := by
  induction chunks generalizing db with
  | nil =>
      have unlisted (row : CdrRow) : row.markUnmatched leg [] = row := by
        simp [CdrRow.markUnmatched]
      rw [List.foldl_nil, List.flatten_nil, Db.markUnmatched,
        List.map_congr_left fun row _ => unlisted row, List.map_id']
  | cons ids rest induction =>
      rw [List.foldl_cons, induction, Db.markUnmatched_markUnmatched, List.flatten_cons]

/-! ## The frame of the second transaction -/

/-- The state differs at most in the balances. -/
structure Db.SameCalls (db db' : Db) : Prop where
  cdrs : db'.cdrs = db.cdrs
  rating : db'.rating = db.rating

theorem Db.SameCalls.foldl {Delta : Type*} {upsert : Db → Delta → Db}
    (keeps : ∀ (db : Db) (delta : Delta), db.SameCalls (upsert db delta))
    (deltas : List Delta) (db : Db) :
    db.SameCalls (deltas.foldl upsert db) := by
  induction deltas generalizing db with
  | nil => exact ⟨rfl, rfl⟩
  | cons delta rest induction =>
      have first := keeps db delta
      have later := induction (upsert db delta)
      exact ⟨later.cdrs.trans first.cdrs, later.rating.trans first.rating⟩

theorem Db.chargeBalance_sameCalls (db : Db) (key : AccountPeriod) (amt : ℚ) :
    db.SameCalls (db.chargeBalance key amt) := by
  rw [chargeBalance]
  split <;> exact ⟨rfl, rfl⟩

theorem Db.setFreeBalance_sameCalls (db : Db) (bal fbid : ℕ) (used : ℤ) :
    db.SameCalls (db.setFreeBalance bal fbid used) := by
  rw [setFreeBalance]
  split <;> exact ⟨rfl, rfl⟩

section Settle

variable (dims : Dims) (order : BatchOrder) (leg : Leg) (window : List ℕ) (rated : List RatedRow)
  (db : Db)

theorem charged_sameCalls (committed : Db) :
    db.SameCalls
      (dims.rtDuckdbFreeBalance order committed rated (dims.rtDuckdbBalance rated db)) := by
  have charged : db.SameCalls (dims.rtDuckdbBalance rated db) := by
    rw [Dims.rtDuckdbBalance]
    refine Db.SameCalls.foldl (fun db delta => ?_) _ db
    exact db.chargeBalance_sameCalls delta.1 delta.2
  have counted (db : Db) : db.SameCalls (dims.rtDuckdbFreeBalance order committed rated db) := by
    rw [Dims.rtDuckdbFreeBalance]
    refine Db.SameCalls.foldl (fun db delta => ?_) _ db
    exact db.setFreeBalance_sameCalls delta.1 delta.2.1 delta.2.2
  have counted := counted (dims.rtDuckdbBalance rated db)
  exact ⟨counted.cdrs.trans charged.cdrs, counted.rating.trans charged.rating⟩

/-- The second transaction marks the unmatched CDRs of the window and writes no rating rows. -/
theorem settle_eq : (dims.settle order leg window rated db).rating = db.rating ∧
    (dims.settle order leg window rated db).cdrs =
      db.cdrs.map (CdrRow.markUnmatched leg (Dims.unmatched window rated)) := by
  have flat : (markChunks 2000 (Dims.unmatched window rated).length
      (Dims.unmatched window rated)).flatten = Dims.unmatched window rated :=
    flatten_markChunks (by decide) le_rfl
  simp only [Dims.settle, foldl_markUnmatched, flat]
  split
  · exact ⟨rfl, rfl⟩
  · have same := charged_sameCalls dims order rated db db
    exact ⟨same.rating, congrArg _ same.cdrs⟩

/-- The first transaction inserts the rated rows and joins the legs with the returned ids. -/
theorem post_eq : (Dims.post order leg rated db).rating.rows =
      db.rating.rows ++ db.rating.newRows (rated.map RatedRow.values) ∧
    (Dims.post order leg rated db).cdrs =
      db.cdrs.map (CdrRow.updateLeg order.leg leg (db.returned rated)) := by
  rw [Dims.post]
  by_cases none_rated : rated = []
  · have unjoined (row : CdrRow) : row.updateLeg order.leg leg (db.returned rated) = row :=
      CdrRow.updateLeg_of_absent (by simp [none_rated, Db.returned, SerialTable.newRows])
    rw [if_pos none_rated, List.map_congr_left fun row _ => unjoined row]
    simp [none_rated, SerialTable.newRows]
  · rw [if_neg none_rated]
    exact ⟨db.rating.rows_insertAll _, rfl⟩

end Settle

/-! ## The window is settled -/

section Window

variable (dims : Dims) (order : BatchOrder) (leg : Leg) (limit : ℕ) (db : Db)

/-- The rows that the batch adds. -/
def Dims.added : List (ℕ × RatingRow) :=
  db.rating.newRows ((dims.rated order leg (batchWindow leg limit db.cdrs)
    (db.rating.rows.map Prod.snd)).map RatedRow.values)

/-- The batch on a window that is not empty. -/
theorem rtDuckdbRateBatch_of_window (some_cdr : batchWindow leg limit db.cdrs ≠ []) :
    (dims.rtDuckdbRateBatch order leg limit db).1 = (batchWindow leg limit db.cdrs).length ∧
      (dims.rtDuckdbRateBatch order leg limit db).2.2.rating.rows =
        db.rating.rows ++ dims.added order leg limit db ∧
      (dims.rtDuckdbRateBatch order leg limit db).2.2.cdrs = db.cdrs.map fun row =>
        (row.updateLeg order.leg leg ((dims.added order leg limit db).map fun new =>
          (new.2.callId, new.1))).markUnmatched leg
            (Dims.unmatched (batchWindow leg limit db.cdrs)
              (dims.rated order leg (batchWindow leg limit db.cdrs)
                (db.rating.rows.map Prod.snd))) := by
  rw [Dims.rtDuckdbRateBatch]
  simp only [some_cdr, if_false]
  generalize rated_eq : dims.rated order leg (batchWindow leg limit db.cdrs)
    (db.rating.rows.map Prod.snd) = rated
  obtain ⟨settled_rating, settled_cdrs⟩ := settle_eq dims order leg
    (batchWindow leg limit db.cdrs) rated (Dims.post order leg rated db)
  obtain ⟨posted_rating, posted_cdrs⟩ := post_eq order leg rated db
  have added_eq : dims.added order leg limit db = db.rating.newRows
      (rated.map RatedRow.values) := by
    rw [Dims.added, rated_eq]
  refine ⟨trivial, ?_, ?_⟩
  · rw [settled_rating, posted_rating, added_eq]
  · rw [settled_cdrs, posted_cdrs, List.map_map, added_eq]
    rfl

variable {dims order leg limit db}

/-- An added row is the row of a rated row. -/
theorem values_mem_of_mem_added {new : ℕ × RatingRow}
    (member : new ∈ dims.added order leg limit db) :
    ∃ rb ∈ dims.rated order leg (batchWindow leg limit db.cdrs) (db.rating.rows.map Prod.snd),
      rb.values = new.2 := by
  have value_mem := List.mem_map_of_mem (f := Prod.snd) member
  rw [Dims.added, SerialTable.map_snd_newRows] at value_mem
  exact List.mem_map.mp value_mem

/-- A rated row has an added row. -/
theorem exists_added {rb : RatedRow} (member : rb ∈ dims.rated order leg
    (batchWindow leg limit db.cdrs) (db.rating.rows.map Prod.snd)) :
    ∃ new ∈ dims.added order leg limit db, new.2.callId = rb.portion.call.cdrId := by
  have value_mem : rb.values ∈ (dims.added order leg limit db).map Prod.snd := by
    rw [Dims.added, SerialTable.map_snd_newRows]
    exact List.mem_map_of_mem member
  obtain ⟨new, new_mem, value_eq⟩ := List.mem_map.mp value_mem
  exact ⟨new, new_mem, congrArg RatingRow.callId value_eq⟩

/-- What the two updates do to a row of `cdrs`. -/
theorem settled_row (row : CdrRow) :
    CdrRow.Settled leg (batchWindow leg limit db.cdrs) (dims.added order leg limit db) row
      ((row.updateLeg order.leg leg ((dims.added order leg limit db).map fun new =>
        (new.2.callId, new.1))).markUnmatched leg
          (Dims.unmatched (batchWindow leg limit db.cdrs)
            (dims.rated order leg (batchWindow leg limit db.cdrs)
              (db.rating.rows.map Prod.snd)))) := by
  generalize rated_eq : dims.rated order leg (batchWindow leg limit db.cdrs)
    (db.rating.rows.map Prod.snd) = rated
  have added_iff : (∃ new ∈ dims.added order leg limit db, new.2.callId = row.id) ↔
      row.id ∈ rated.map fun rb => rb.portion.call.cdrId := by
    constructor
    · rintro ⟨new, new_mem, own⟩
      obtain ⟨rb, rb_mem, value_eq⟩ := values_mem_of_mem_added new_mem
      refine List.mem_map.mpr ⟨rb, rated_eq ▸ rb_mem, ?_⟩
      rw [← own, ← value_eq]
      rfl
    · intro member
      obtain ⟨rb, rb_mem, own⟩ := List.mem_map.mp member
      obtain ⟨new, new_mem, call_eq⟩ := exists_added (rated_eq ▸ rb_mem)
      exact ⟨new, new_mem, call_eq.trans own⟩
  by_cases has_row : ∃ new ∈ dims.added order leg limit db, new.2.callId = row.id
  · -- the returned id is positive, so the `-1` statement passes the CDR over
    obtain ⟨new, new_mem, own⟩ := has_row
    obtain ⟨value, value_mem, value_own, updated⟩ :=
      CdrRow.updateLeg_of_joined leg order.leg (show ∃ value ∈
        (dims.added order leg limit db).map fun new => (new.2.callId, new.1), value.1 = row.id from
          ⟨_, List.mem_map_of_mem new_mem, own⟩)
    obtain ⟨chosen, chosen_mem, rfl⟩ := List.mem_map.mp value_mem
    have positive : 0 < chosen.1 := SerialTable.key_pos_of_mem_newRows chosen_mem
    have passed_over : (row.setMark chosen.1 leg).markUnmatched leg
        (Dims.unmatched (batchWindow leg limit db.cdrs) rated) = row.setMark chosen.1 leg := by
      rw [CdrRow.markUnmatched, CdrRow.mark_setMark, if_neg]
      omega
    have in_window : row.id ∈ batchWindow leg limit db.cdrs := by
      obtain ⟨rb, rb_mem, value_eq⟩ := values_mem_of_mem_added new_mem
      rw [← own, ← value_eq]
      exact (of_mem_rated rb_mem).1
    rw [updated, passed_over]
    exact {
      id := row.id_setMark leg _
      other := fun leg' other => row.mark_setMark_of_ne leg _ other
      outside := fun outside => absurd in_window outside
      marked := fun _ => by
        rw [CdrRow.mark_setMark]
        omega
      rated := fun _ _ _ => ⟨chosen, chosen_mem, value_own, row.mark_setMark leg _⟩
      unrated := fun _ _ none_added => absurd own (none_added new new_mem) }
  · have absent : ∀ value ∈ (dims.added order leg limit db).map fun new => (new.2.callId, new.1),
        value.1 ≠ row.id := by
      intro value value_mem own
      obtain ⟨new, new_mem, rfl⟩ := List.mem_map.mp value_mem
      exact has_row ⟨new, new_mem, own⟩
    rw [CdrRow.updateLeg_of_absent absent]
    have unrated := added_iff.not.mp has_row
    by_cases marks : row.mark leg = 0 ∧ row.id ∈ batchWindow leg limit db.cdrs
    · have listed : row.id ∈ Dims.unmatched (batchWindow leg limit db.cdrs) rated :=
        List.mem_filter.mpr ⟨marks.2, decide_eq_true unrated⟩
      rw [CdrRow.markUnmatched, if_pos ⟨marks.1, listed⟩]
      exact {
        id := row.id_setMark leg _
        other := fun leg' other => row.mark_setMark_of_ne leg _ other
        outside := fun outside => absurd marks.2 outside
        marked := fun marked => absurd marks.1 marked
        rated := fun _ _ added => absurd added has_row
        unrated := fun _ _ _ => row.mark_setMark leg _ }
    · have unlisted : ¬ (row.mark leg = 0 ∧
          row.id ∈ Dims.unmatched (batchWindow leg limit db.cdrs) rated) :=
        fun listed => marks ⟨listed.1, List.mem_of_mem_filter listed.2⟩
      rw [CdrRow.markUnmatched, if_neg unlisted]
      exact {
        id := rfl
        other := fun _ _ => rfl
        outside := fun _ => rfl
        marked := fun marked => marked
        rated := fun _ _ added => absurd added has_row
        unrated := fun inside unmarked _ => absurd ⟨unmarked, inside⟩ marks }

/-- A batch on a window that is not empty settles it. -/
theorem settlesWindow_of_window (some_cdr : batchWindow leg limit db.cdrs ≠ []) :
    SettlesWindow leg (batchWindow leg limit db.cdrs) db
      (dims.rtDuckdbRateBatch order leg limit db).2.2 (dims.added order leg limit db) := by
  obtain ⟨-, rating_eq, cdrs_eq⟩ := rtDuckdbRateBatch_of_window dims order leg limit db some_cdr
  refine ⟨rating_eq, fun new member => ?_, ?_, ?_⟩
  · obtain ⟨rb, rb_mem, value_eq⟩ := values_mem_of_mem_added member
    rw [← value_eq]
    exact (of_mem_rated rb_mem).1
  · -- the key of a rated row is told by its CDR and its allowance
    have keys : ((dims.added order leg limit db).map fun new =>
        (new.2.callId, decide (new.2.freeBillsecId = 0))) =
        ((dims.rated order leg (batchWindow leg limit db.cdrs)
          (db.rating.rows.map Prod.snd)).map fun rb => rb.portion.key).map fun key =>
            (key.1, decide (key.2 = .paid)) := by
      have rows := db.rating.map_snd_newRows ((dims.rated order leg (batchWindow leg limit db.cdrs)
        (db.rating.rows.map Prod.snd)).map RatedRow.values)
      have mapped := congrArg (List.map fun row : RatingRow =>
        (row.callId, decide (row.freeBillsecId = 0))) rows
      rw [List.map_map, List.map_map] at mapped
      rw [List.map_map]
      refine mapped.trans (List.map_congr_left fun rb rb_mem => ?_)
      exact Prod.ext rfl (decide_eq_decide.mpr (of_mem_rated rb_mem).2.2.symm)
    rw [keys]
    refine rated_nodup.map fun key key' same => ?_
    obtain ⟨id_eq, paid_eq⟩ := Prod.mk.inj same
    rw [decide_eq_decide] at paid_eq
    refine Prod.ext id_eq ?_
    cases kind : key.2 <;> cases kind' : key'.2 <;> simp [kind, kind'] at paid_eq ⊢
  · rw [cdrs_eq, List.forall₂_map_right_iff, List.forall₂_same]
    intro row row_mem
    exact settled_row row

/-- Whatever the database and the limit, the batch settles its window. -/
theorem exists_settlesWindow (dims : Dims) (order : BatchOrder) (leg : Leg) (limit : ℕ) (db : Db) :
    ∃ added, SettlesWindow leg (batchWindow leg limit db.cdrs) db
      (dims.rtDuckdbRateBatch order leg limit db).2.2 added := by
  by_cases empty : batchWindow leg limit db.cdrs = []
  · have unchanged : (dims.rtDuckdbRateBatch order leg limit db).2.2 = db := by
      simp [Dims.rtDuckdbRateBatch, empty]
    refine ⟨[], by rw [unchanged, List.append_nil], by simp, by simp, ?_⟩
    rw [unchanged, List.forall₂_same, empty]
    exact fun row _ => {
      id := rfl
      other := fun _ _ => rfl
      outside := fun _ => rfl
      marked := fun marked => marked
      rated := fun inside => absurd inside List.not_mem_nil
      unrated := fun inside => absurd inside List.not_mem_nil }
  · exact ⟨_, settlesWindow_of_window empty⟩

end Window

/-! ## The backlog drains -/

/-- The CDRs that a leg has not settled, both legs together. -/
def Db.pending (db : Db) : ℕ := db.backlog .a + db.backlog .b

section Backlog

variable {leg : Leg} {window : List ℕ} {before after : Db} {added : List (ℕ × RatingRow)}

/-- A CDR that is unsettled after a batch was so before it, outside the window. -/
theorem CdrRow.Settled.of_unmarked {row row' : CdrRow} (settled : row.Settled leg window added row')
    (positive : ∀ new ∈ added, 0 < new.1) (unmarked : row'.mark leg = 0) :
    row.mark leg = 0 ∧ row.id ∉ window := by
  have was_unmarked : row.mark leg = 0 := not_not.mp fun marked => settled.marked marked unmarked
  refine ⟨was_unmarked, fun inside => ?_⟩
  by_cases has_row : ∃ new ∈ added, new.2.callId = row.id
  · obtain ⟨new, new_mem, -, mark_eq⟩ := settled.rated inside was_unmarked has_row
    have := positive new new_mem
    omega
  · have none_added : ∀ new ∈ added, new.2.callId ≠ row.id :=
      fun new new_mem own => has_row ⟨new, new_mem, own⟩
    have := settled.unrated inside was_unmarked none_added
    omega

/-- The backlog of the leg loses the CDRs of the window. -/
theorem countP_of_settled {rows rows' : List CdrRow} (positive : ∀ new ∈ added, 0 < new.1)
    (settled : List.Forall₂ (CdrRow.Settled leg window added) rows rows') :
    rows'.countP (fun row => row.mark leg = 0) ≤ rows.countP (fun row => row.mark leg = 0) ∧
      ((∃ row ∈ rows, row.mark leg = 0 ∧ row.id ∈ window) →
        rows'.countP (fun row => row.mark leg = 0) < rows.countP fun row => row.mark leg = 0) := by
  induction settled with
  | nil => simp
  | @cons row row' rest rest' first _ induction =>
      obtain ⟨rest_le, rest_lt⟩ := induction
      have unmarked := first.of_unmarked positive
      simp only [List.countP_cons, decide_eq_true_eq, List.exists_mem_cons_iff]
      by_cases still : row'.mark leg = 0
      · obtain ⟨was, outside⟩ := unmarked still
        simp only [still, was, outside, if_true, and_false, false_or]
        exact ⟨by omega, fun later => by have := rest_lt later; omega⟩
      · by_cases was : row.mark leg = 0
        · simp only [still, was, if_true, if_false]
          exact ⟨by omega, fun _ => by omega⟩
        · simp only [still, was, if_false, false_and, false_or]
          exact ⟨by omega, fun later => by have := rest_lt later; omega⟩

/-- The other leg keeps its backlog. -/
theorem backlog_of_ne {leg' : Leg} (other : leg' ≠ leg)
    (settled : SettlesWindow leg window before after added) :
    after.backlog leg' = before.backlog leg' := by
  have same := settled.cdrs
  rw [Db.backlog, Db.backlog]
  generalize before.cdrs = rows, after.cdrs = rows' at same
  induction same with
  | nil => rfl
  | cons first _ induction =>
      rw [List.countP_cons, List.countP_cons, induction, first.other leg' other]

/-- A batch either finds an empty window and changes nothing, or settles a CDR. -/
theorem rtDuckdbRateBatch_progress (dims : Dims) (order : BatchOrder) (leg : Leg) (limit : ℕ)
    (db : Db) :
    batchWindow leg limit db.cdrs = [] ∧ (dims.rtDuckdbRateBatch order leg limit db).1 = 0 ∧
        (dims.rtDuckdbRateBatch order leg limit db).2.2 = db ∨
      0 < (dims.rtDuckdbRateBatch order leg limit db).1 ∧
        (dims.rtDuckdbRateBatch order leg limit db).2.2.pending < db.pending := by
  by_cases empty : batchWindow leg limit db.cdrs = []
  · exact .inl (by simp [Dims.rtDuckdbRateBatch, empty])
  · have settles : SettlesWindow leg (batchWindow leg limit db.cdrs) db
        (dims.rtDuckdbRateBatch order leg limit db).2.2 (dims.added order leg limit db) :=
      settlesWindow_of_window empty
    have size := (rtDuckdbRateBatch_of_window dims order leg limit db empty).1
    generalize dims.rtDuckdbRateBatch order leg limit db = batch at settles size
    refine .inr ⟨size ▸ List.length_pos_iff.mpr empty, ?_⟩
    have positive : ∀ new ∈ dims.added order leg limit db, 0 < new.1 :=
      fun new member => SerialTable.key_pos_of_mem_newRows member
    obtain ⟨id, id_mem⟩ := List.exists_mem_of_ne_nil _ empty
    obtain ⟨row, row_mem, unmarked, rfl⟩ := mem_batchWindow id_mem
    have fewer : batch.2.2.backlog leg < db.backlog leg :=
      (countP_of_settled positive settles.cdrs).2 ⟨row, row_mem, unmarked, id_mem⟩
    cases leg with
    | a =>
        have same : batch.2.2.backlog .b = db.backlog .b := backlog_of_ne (by decide) settles
        rw [Db.pending, Db.pending]
        omega
    | b =>
        have same : batch.2.2.backlog .a = db.backlog .a := backlog_of_ne (by decide) settles
        rw [Db.pending, Db.pending]
        omega

end Backlog

namespace DuckdbConfig

variable (cfg : DuckdbConfig)

theorem limit_pos : 0 < cfg.limit := by
  rw [limit]
  split
  · decide
  split
  · decide
  · omega

/-- The batches of some legs either find empty windows and change nothing, or settle a CDR. -/
theorem foldl_progress (dims : Dims) (order : Leg → BatchOrder) (legs : List Leg) (pass : ℕ × Db) :
    (∀ leg ∈ legs, batchWindow leg cfg.limit pass.2.cdrs = []) ∧
        legs.foldl (cfg.batch dims order) pass = pass ∨
      pass.1 < (legs.foldl (cfg.batch dims order) pass).1 ∧
        (legs.foldl (cfg.batch dims order) pass).2.pending < pass.2.pending := by
  induction legs generalizing pass with
  | nil => exact .inl ⟨by simp, rfl⟩
  | cons leg rest induction =>
      have later := induction (cfg.batch dims order pass leg)
      rw [List.foldl_cons]
      rcases rtDuckdbRateBatch_progress dims (order leg) leg cfg.limit pass.2 with
        ⟨empty, no_cdr, same⟩ | ⟨some_cdr, fewer⟩
      · have unchanged : cfg.batch dims order pass leg = pass :=
          Prod.ext (by simp [batch, no_cdr]) same
        rw [unchanged] at later ⊢
        exact later.imp_left
          (And.imp_left fun rest_empty => List.forall_mem_cons.mpr ⟨empty, rest_empty⟩)
      · have counted : pass.1 < (cfg.batch dims order pass leg).1 :=
          Nat.lt_add_of_pos_right some_cdr
        have settled : (cfg.batch dims order pass leg).2.pending < pass.2.pending := fewer
        rcases later with ⟨-, rest_eq⟩ | ⟨more, rest_fewer⟩
        · rw [rest_eq]
          exact .inr ⟨counted, settled⟩
        · exact .inr ⟨counted.trans more, rest_fewer.trans settled⟩

/-- The loop gets to its idle branch, and every leg that it rates is settled then. -/
theorem drain_ends (dims : ℕ → Dims) (order : ℕ → Leg → BatchOrder) {passes : ℕ} (pass : ℕ)
    {db : Db} (enough : db.pending < passes) :
    ∃ after, cfg.drain dims order passes pass db = some after ∧
      ∀ leg ∈ cfg.legs, ∀ row ∈ after.cdrs, row.mark leg ≠ 0 := by
  induction passes generalizing pass db with
  | zero => exact absurd enough (Nat.not_lt_zero _)
  | succ passes induction =>
      have progress := cfg.foldl_progress (dims pass) (order pass) cfg.legs (0, db)
      rw [drain]
      rcases cycle_eq : cfg.cycle (dims pass) (order pass) db with ⟨processed, next⟩
      rw [cycle] at cycle_eq
      rw [cycle_eq] at progress
      rcases progress with ⟨empty, same⟩ | ⟨some_cdr, fewer⟩
      · obtain ⟨rfl, rfl⟩ := Prod.mk.inj same
        refine ⟨next, rfl, fun leg leg_mem => ?_⟩
        exact (batchWindow_eq_nil_iff.mp (empty leg leg_mem)).resolve_left cfg.limit_pos.ne'
      · obtain ⟨processed, rfl⟩ := Nat.exists_eq_add_one_of_ne_zero some_cdr.ne'
        have left : next.pending < passes := by
          simp only at fewer
          omega
        exact induction (pass + 1) left

end DuckdbConfig

/-- A batch settles exactly its window, whatever the database and the limit, and the drain
loop gets to its idle branch in no more passes than there are unsettled CDRs and one, with
none of them left. -/
theorem batches_settle_and_drain :
    (∀ (dims : Dims) (order : BatchOrder) (leg : Leg) (limit : ℕ) (db : Db), ∃ added,
      SettlesWindow leg (batchWindow leg limit db.cdrs) db
        (dims.rtDuckdbRateBatch order leg limit db).2.2 added) ∧
    ∀ (cfg : DuckdbConfig) (dims : ℕ → Dims) (order : ℕ → Leg → BatchOrder) (db : Db),
      ∃ after, cfg.drain dims order (db.pending + 1) 0 db = some after ∧
        ∀ leg ∈ cfg.legs, ∀ row ∈ after.cdrs, row.mark leg ≠ 0 :=
  ⟨exists_settlesWindow, fun cfg dims order db =>
    cfg.drain_ends dims order 0 (Nat.lt_succ_self db.pending)⟩

end RateEngine
