import RateEngine.TimeCond

/-!
# The queries of rating

The statements of `rt_data_q.c` and `free_billsec.c` on the SQL path, and the search for rate and
tariff.  A query that finds no row, or more rows than it expects, returns success and leaves the
record as it was; callers see only the fields.
-/

namespace RateEngine

/-! ## Balance -/

/-- The condition of `rt_data_q_bal_sql`. -/
def BalanceRow.isActiveFor (baccId : ℕ) (start stop : String) (row : BalanceRow) : Bool :=
  row.baccId = baccId && row.startDate = start && row.endDate = stop && row.active

/-- `rt_data_q_bal_count` with flag `'t'`. -/
def rtDataQBalCount (env : Env) (db : Db) (rtp : Racc) : ℕ :=
  match env.select .balCount
    (db.balance.select fun row => row.baccId = rtp.bacc.id && row.active) with
  | none => 0
  | some rows => rows.length

/-- `rt_data_q_bal_sql`: the balance is taken when there is exactly one active row. -/
def rtDataQBal (env : Env) (db : Db) (rtp : Racc) (start stop : String) : Racc :=
  match env.select .bal (db.balance.select (BalanceRow.isActiveFor rtp.bacc.id start stop)) with
  | some [(id, row)] => { rtp with bal := { id, amount := row.amount } }
  | _ => rtp

/-- `rt_data_q_bal_add_sql`. -/
def rtDataQBalAdd (env : Env) (db : Db) (rtp : Racc) (start stop : String) : Db :=
  let balance :=
    if 0 < rtp.bal.id then
      db.balance.update (fun id _ => id = rtp.bal.id) fun row =>
        { row with amount := rtp.bal.amount }
    else
      db.balance.insert
        { baccId := rtp.bacc.id, startDate := start, endDate := stop, active := true,
          amount := rtp.bal.amount }
  env.exec .balAdd db { db with balance }

/-- `rt_balance_exec`: add the price of the call to the balance that the record carries. -/
def rtBalanceExec (env : Env) (db : Db) (rtp : Racc) (start stop : String) : Racc × Db :=
  let rtp := if 0 < rtp.bal.id then rtp else rtDataQBal env db rtp start stop
  let rtp := { rtp with bal := { rtp.bal with amount := rtp.bal.amount + rtp.pre.cprice } }
  (rtp, rtDataQBalAdd env db rtp start stop)

/-! ## Payment cards -/

/-- `rt_data_q_pcard_set`. -/
def rtDataQPcardSet (env : Env) (db : Db) (cardId : ℕ) (status : PcardStatus) : Db :=
  let pcard := db.pcard.map fun row =>
    if row.card.id = cardId then { row with card := { row.card with status } } else row
  env.exec .pcardSet db { db with pcard }

/-! ## Rating rows -/

/-- The rows that `rt_data_q_rating_add_sql` takes for a call that is already rated. -/
def RatingRow.isOf (callId baccId rateId : ℕ) (row : RatingRow) : Bool :=
  row.callId = callId && row.baccId = baccId && row.rateId = rateId

/-- The row that `rt_data_q_rating_add_sql` inserts.  The source reads the card's id without asking
whether there is a card; where it would crash, the row says `0`. -/
def Racc.ratingRow (rtp : Racc) : RatingRow where
  callPrice := rtp.pre.cprice
  callBillsec := rtp.pre.billsec
  rateId := rtp.pre.rateId
  baccId := rtp.bacc.id
  callId := rtp.pre.cdrId
  ratingModeId := rtp.pre.ratingModeId
  pcardId := match rtp.bacc.pcardPtr with
    | none => 0
    | some card => card.id
  timeConditionId := rtp.pre.tcId
  callTs := rtp.pre.timestamp
  freeBillsecId := rtp.pre.freeBillsecId

/-- `rt_data_q_rating_add_sql`: insert the row unless the call is already rated. -/
def rtDataQRatingAdd (env : Env) (db : Db) (rtp : Racc) : Racc × Db :=
  match env.select .ratingDup
      (db.rating.select (RatingRow.isOf rtp.pre.cdrId rtp.bacc.id rtp.pre.rateId)) with
  | some (_ :: _) => ({ rtp with pre := { rtp.pre with ratingId := 0 } }, db)
  | _ =>
      if env.lost .ratingAdd then (rtp, db)
      else
        ({ rtp with pre := { rtp.pre with ratingId := db.rating.next } },
          { db with rating := db.rating.insert rtp.ratingRow })

/-- `rt_rating_save`. -/
def rtRatingSave (env : Env) (db : Db) (rtp : Racc) : Racc × Db :=
  if 0 < rtp.pre.cdrId then rtDataQRatingAdd env db rtp else (rtp, db)

/-- `cdr_update_cdr`. -/
def cdrUpdateCdr (env : Env) (db : Db) (ratingId : ℤ) (cdrId : ℕ) (leg : Leg) : Db :=
  if 0 < cdrId then
    let cdrs := db.cdrs.map fun row =>
      if row.id = cdrId then
        match leg with
        | .a => { row with legA := ratingId }
        | .b => { row with legB := ratingId }
      else row
    env.exec .updateCdr db { db with cdrs }
  else db

/-! ## Free seconds -/

/-- The rows that `free_billsec_balance_v2` sums: the free calls of the account in the period. -/
def RatingRow.isFreeIn (env : Env) (baccId : ℕ) (start stop : String) (freeBillsecId : ℕ)
    (row : RatingRow) : Bool :=
  row.baccId = baccId && env.tsLe start row.callTs && env.tsLe row.callTs stop &&
    decide (row.callPrice < 0) && row.freeBillsecId = freeBillsecId

/-- `free_billsec_balance_v2`: the free seconds of the account in the period. -/
def freeBillsecBalanceV2 (env : Env) (db : Db) (rtp : Racc) (start stop : String) : Racc :=
  match env.select .freeBillsecUsed
      (db.rating.select (RatingRow.isFreeIn env rtp.bacc.id start stop rtp.pre.freeBillsecId)) with
  | none => rtp
  | some rows =>
      { rtp with pre := { rtp.pre with
          freeBillsec := (rows.map fun row => row.2.callBillsec).sum } }

/-- The counter rows of a balance and an allowance. -/
def FreeBillsecBalanceRow.isOf (balanceId freeBillsecId : ℕ) (row : FreeBillsecBalanceRow) : Bool :=
  row.balanceId = balanceId && row.freeBillsecId = freeBillsecId

/-- The counter rows that the record asks for. -/
def Db.counters (db : Db) (pre : Rating) : List (ℕ × FreeBillsecBalanceRow) :=
  db.freeBillsecBalance.select (FreeBillsecBalanceRow.isOf pre.balId pre.freeBillsecId)

/-- `f_free_billsec_bal_query_2`: the sum of the counters. -/
def fFreeBillsecBalQuery2 (env : Env) (db : Db) (pre : Rating) : Rating :=
  match env.select .freeBalSum (db.counters pre) with
  | none => pre
  | some rows => { pre with freeBillsecSum := (rows.map fun row => row.2.freeBillsec).sum }

/-- `f_free_bal_id_query`: the counter's id, when there is exactly one. -/
def fFreeBalIdQuery (env : Env) (db : Db) (pre : Rating) : Rating :=
  match env.select .freeBalId (db.counters pre) with
  | some [(id, _)] => { pre with freeId := id }
  | _ => pre

/-- `create_free_billsec_balance`. -/
def createFreeBillsecBalance (env : Env) (db : Db) (pre : Rating) : Rating × Db :=
  let freeBillsecBalance := db.freeBillsecBalance.insert
    { balanceId := pre.balId, freeBillsecId := pre.freeBillsecId, freeBillsec := pre.freeBillsec }
  let db := env.exec .freeBalAdd db { db with freeBillsecBalance }
  (fFreeBalIdQuery env db pre, db)

/-- `update_free_billsec_balance`. -/
def updateFreeBillsecBalance (env : Env) (db : Db) (pre : Rating) : Db :=
  if 0 < pre.balId ∧ 0 < pre.tariffId then
    let freeBillsecBalance := db.freeBillsecBalance.update
      (fun _ row => row.isOf pre.balId pre.freeBillsecId) fun row =>
        { row with freeBillsec := pre.freeBillsec }
    env.exec .freeBalUpdate db { db with freeBillsecBalance }
  else db

/-- `free_billsec_exec`: recompute the used seconds and store them in the counter. -/
def freeBillsecExec (env : Env) (db : Db) (rtp : Racc) (start stop : String) : Racc × Db :=
  let rtp := freeBillsecBalanceV2 env db rtp start stop
  let pre := fFreeBalIdQuery env db rtp.pre
  let (pre, db) :=
    if 0 < pre.freeId then (pre, updateFreeBillsecBalance env db pre)
    else createFreeBillsecBalance env db pre
  ({ rtp with pre := fFreeBillsecBalQuery2 env db pre }, db)

/-- `free_billsec_sms_balance`: the number of free messages of the account in the period. -/
def freeBillsecSmsBalance (env : Env) (db : Db) (rtp : Racc) (start stop : String) : Racc :=
  match env.select .freeBillsecUsed
      (db.rating.select (RatingRow.isFreeIn env rtp.bacc.id start stop rtp.pre.freeBillsecId)) with
  | none => rtp
  | some rows => { rtp with pre := { rtp.pre with freeBillsec := rows.length } }

/-! ## Rate and tariff -/

/-- `rt_data_q_chk_rate_periods`. -/
def rtDataQChkRatePeriods (start stop : ℕ) (ts : ℤ) : Bool :=
  if start = 0 then true
  else if ts < start then false
  else if stop = 0 then true
  else ¬ stop < ts

/-- `rt_chk_bplan_periods`. -/
def rtChkBplanPeriods (bplan : Bplan) (ts : ℤ) : Bplan :=
  if bplan.bplanStartPeriod ≠ 0 then
    if bplan.bplanStartPeriod ≤ ts then
      if bplan.bplanEndPeriod ≠ 0 then
        if ts ≤ bplan.bplanEndPeriod then bplan else { bplan with id := 0 }
      else bplan
    else { bplan with id := 0 }
  else bplan

/-- `f_free_billsec_query`. -/
def fFreeBillsecQuery (env : Env) (pre : Rating) : Rating :=
  match env.freeBillsec pre.tariffId with
  | some [limit] => { pre with freeBillsecLimit := limit }
  | _ => pre

/-- `rt_chk_tr_opt`: clear the tariff when none of its time conditions is met, then read its free
seconds. -/
def rtChkTrOpt (env : Env) (pre : Rating) : Rating :=
  let pre :=
    if fTimeCondQueryId env pre ≠ 0 then
      match tcTsCmp env (fTimeCondQueryV2 env pre) pre with
      | (true, pre) => pre
      | (false, pre) => { pre with tariffId := 0 }
    else pre
  fFreeBillsecQuery env pre

/-- `rt_data_q_tariff_sql`. -/
def rtDataQTariff (env : Env) (rtp : Racc) : Racc :=
  if rtp.pre.tariffId = 0 then rtp
  else
    match env.calcFunction rtp.pre.tariffId with
    | none | some [] => rtp
    | some tr => { rtp with bplan := { rtp.bplan with calcFuncs := some tr } }

/-- `rt_data_q_prefix_sql` from one rate of the list on. -/
def rtDataQPrefix (env : Env) : List Rate → Racc → Racc
  | [], rtp => rtp
  | rt :: rest, rtp =>
      if rt.tariffId = 0 then rtp
      else if ¬ rtDataQChkRatePeriods rt.startPeriod rt.endPeriod rtp.pre.ts then
        rtDataQPrefix env rest rtp
      else if rt.prefixStr = "&" ∨ rt.prefixStr.toList.isPrefixOf rtp.pre.cld.toList then
        let pre := rtChkTrOpt env
          { rtp.pre with
            tariffId := rt.tariffId
            rateId := rt.id
            prefixId := rt.prefixId
            freeBillsecId := rt.freeBillsecId }
        let rtp := { rtp with pre }
        if pre.tariffId ≠ 0 then rtDataQTariff env rtp else rtDataQPrefix env rest rtp
      else rtDataQPrefix env rest rtp

/-- `rt_data_q_rate`: load the rates of the plan, then search the rate of the called number. -/
def rtDataQRate (env : Env) (rtp : Racc) : Racc :=
  let ratesPtr := env.rates rtp.bplan.id
  let rtp := { rtp with bplan := { rtp.bplan with ratesPtr, calcFuncs := none } }
  match ratesPtr with
  | none => rtp
  | some rates => rtDataQPrefix env rates rtp

end RateEngine
