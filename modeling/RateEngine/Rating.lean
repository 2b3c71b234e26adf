import RateEngine.AccountFallback
import RateEngine.CalcFunctions
import RateEngine.Prerating

/-!
# Rating a call

`rt_exec` loads what the call needs, prices it, saves a rating row, marks the leg of the CDR and
updates the balance and the free seconds.  A call that crosses the end of its allowance goes through
`rt_double_rating`.  `rt_main` is the entry of the workers: one CDR, one leg.
-/

namespace RateEngine

open BlockTariff (ceilDiv)

/-! ## The seconds that are priced -/

/-- `round_billsec`: modes 1 and 2 round the microseconds up and down. -/
def roundBillsec (roundModeId : ℕ) (billusec : ℤ) : ℤ :=
  match roundModeId with
  | 1 => ceilDiv billusec 1000000
  | 2 => billusec / 1000000
  | _ => 0

def Racc.withBillsec (rtp : Racc) (billsec : ℤ) : Racc :=
  { rtp with pre := { rtp.pre with billsec } }

def Racc.withRatingId (rtp : Racc) (ratingId : ℤ) : Racc :=
  { rtp with pre := { rtp.pre with ratingId } }

/-- `billsec_temp` of `rt_exec`: rounding replaces the seconds unless it gives zero. -/
def Racc.rounded (rtp : Racc) : Racc :=
  let billsecTemp :=
    if rtp.bacc.roundModeId ≠ 0 then roundBillsec rtp.bacc.roundModeId rtp.pre.billusec else 0
  if billsecTemp ≠ 0 then rtp.withBillsec billsecTemp else rtp

/-! ## `rt_double_rating` -/

/-- `free_sec` of `rt_double_rating`: the seconds of the allowance that are left. -/
def Racc.freeSec (rtp : Racc) : ℤ := rtp.pre.freeBillsecLimit - rtp.pre.freeBillsecSum

/-- `rt_double_rating` from the label `no_free_billsec` on: the record is saved whether or not the
allowance asks for another split. -/
def rtDoubleRatingPaid (env : Env) (db : Db) (rtp : Racc) : ℤ × Racc × Db :=
  match calcCpriceGroup rtp with
  | (ret, rtp) =>
      if ret = -1 then (-1, rtp, db)
      else
        match rtRatingSave env db rtp with
        | (rtp, db) => (0, rtp, db)

/-- The balance and the free seconds between the two parts of `rt_double_rating`. -/
def rtDoubleRatingCharge (env : Env) (db : Db) (rtp : Racc) : Racc × Db :=
  match rtp.bacc.pcardPtr with
  | none => (rtp, db)
  | some card =>
      if card.start ≠ "" ∧ card.stop ≠ "" then
        match rtBalanceExec env db rtp card.start card.stop with
        | (rtp, db) =>
            if rtp.pre.freeBillsecLimit ≠ 0 then freeBillsecExec env db rtp card.start card.stop
            else (rtp, db)
      else (rtp, db)

/-- `rt_double_rating`. -/
def rtDoubleRating (env : Env) (db : Db) (rtp : Racc) : ℤ × Racc × Db :=
  let oldBillsec := rtp.pre.billsec
  if 0 < rtp.freeSec then
    let noFreeSec := rtp.pre.billsec - rtp.freeSec
    match calcCpriceGroup (rtp.withBillsec rtp.freeSec) with
    | (ret, rtp) =>
        if ret = 0 then
          match rtRatingSave env db rtp with
          | (rtp, db) =>
              match rtDoubleRatingCharge env db (rtp.withBillsec noFreeSec) with
              | (rtp, db) => rtDoubleRatingPaid env db rtp
        else if ret = 1 then rtDoubleRatingPaid env db (rtp.withBillsec oldBillsec)
        else (-1, rtp, db)
  else rtDoubleRatingPaid env db rtp

/-! ## `rt_exec` -/

/-- `rt_exec` up to pricing: plan, rate, tariff, balance, used seconds and the seconds to price. -/
def rtExecLoad (env : Env) (db : Db) (rtp : Racc) : Racc × Db :=
  match rtRateSearching env db
      { rtp with bplan := rtChkBplanPeriods rtp.bplan rtp.pre.ts } with
  | (rtp, db) =>
      if rtp.bplan.calcFuncs = none then (rtp, db)
      else
        let rtp := rtp.rounded
        match rtp.rtm, rtp.bacc.pcardPtr with
        | .sms, some card =>
            if 0 < rtp.pre.freeBillsecId then
              (freeBillsecSmsBalance env db rtp card.start card.stop, db)
            else (rtp, db)
        | _, _ => (rtp, db)

/-- `rt_exec` marks a call whose double rating failed. -/
def afterDoubleRating : ℤ × Racc × Db → Racc × Db
  | (ret, rtp, db) => if ret = -1 then (rtp.withRatingId (-1), db) else (rtp, db)

/-- The `switch` of `rt_exec`: price the call and save its row. -/
def rtExecPrice (env : Env) (db : Db) (rtp : Racc) : Racc × Db :=
  match rtp.bplan.calcFuncs with
  | none => (rtp.withRatingId (-1), db)
  | some _ =>
      match calcCpriceGroup rtp with
      | (ret, rtp) =>
          if ret = 0 then rtRatingSave env db rtp
          else if ret = 1 then afterDoubleRating (rtDoubleRating env db rtp)
          else (rtp.withRatingId (-1), db)

/-- The end of `rt_exec`: mark the leg, then charge the card of a call that got a row. -/
def rtExecSettle (env : Env) (db : Db) (rtp : Racc) (leg : Leg) : Racc × Db :=
  if rtp.pre.ratingId = 0 then (rtp, cdrUpdateCdr env db (-1) rtp.pre.cdrId leg)
  else
    let db := cdrUpdateCdr env db rtp.pre.ratingId rtp.pre.cdrId leg
    match rtp.bacc.pcardPtr with
    | none => (rtp, db)
    | some card =>
        if 0 < rtp.pre.ratingId then
          match rtBalanceExec env db rtp card.start card.stop with
          | (rtp, db) =>
              if rtp.pre.freeBillsecLimit ≠ 0 ∧ rtp.pre.ratingModeId < RtMode.sms.id then
                freeBillsecExec env db rtp card.start card.stop
              else (rtp, db)
        else (rtp, db)

/-- `rt_exec`. -/
def rtExec (env : Env) (db : Db) (rtp : Racc) (leg : Leg) : Racc × Db :=
  match rtExecLoad env db rtp with
  | (rtp, db) =>
      match rtExecPrice env db rtp with
      | (rtp, db) => rtExecSettle env db rtp leg

/-! ## `rt_main` -/

/-- The record that `rt_main` hands to `rt_exec`. -/
def rtMainRecord (env : Env) (leg : Leg) (recType : CdrRecType) (pre : Rating) : Option Racc :=
  (rtMainRacc env leg recType pre).map fun rtp =>
    if rtp.bacc.id ≠ 0 then pcardManager env rtp else rtp

/-- `rt_main`. -/
def rtMain (env : Env) (db : Db) (leg : Leg) (recType : CdrRecType) (pre : Rating) : Db :=
  match rtMainRecord env leg recType pre with
  | none => db
  | some rtp => (rtExec env db rtp leg).2

/-- One turn of the worker loop: a leg of a CDR, rated while no statement fails.  The provisioning
that the turn sees is its own. -/
structure Job where
  env : Env
  reliable : env.Reliable
  leg : Leg
  cdr : Cdr

/-- The record of the turn, when an account lookup was made. -/
def Job.record (job : Job) : Option Racc :=
  rtMainRecord job.env job.leg job.cdr.recType (rtCdrToRating job.env job.cdr)

/-- The body of the loop of `rt_worker_func`. -/
def Job.rate (db : Db) (job : Job) : Db :=
  rtMain job.env db job.leg job.cdr.recType (rtCdrToRating job.env job.cdr)

/-- A record as the loop builds it: nothing rated, no balance read. -/
structure Racc.Fresh (rtp : Racc) : Prop where
  bal : rtp.bal = {}
  ratingId : rtp.pre.ratingId = 0
  balId : rtp.pre.balId = 0
  freeId : rtp.pre.freeId = 0

/-- The record of a call has no balance, and its call is the one that was asked for. -/
theorem rtMainRecord_frame {env : Env} {leg : Leg} {recType : CdrRecType}
    {pre : Rating} {rtp : Racc}
    (record : rtMainRecord env leg recType pre = some rtp) :
    rtp.bal = {} ∧ ∃ mode, rtp.pre = pre.withMode mode := by
  obtain ⟨looked_up, lookup, rfl⟩ := Option.map_eq_some_iff.mp record
  rw [rtMainRacc_eq] at lookup
  obtain ⟨mode, -, found⟩ := Option.bind_eq_some_iff.mp lookup
  obtain ⟨bal_eq, -, pre_eq⟩ := fresh_of_rtDataQRacc found
  split
  · exact ⟨bal_eq, mode, pre_eq⟩
  · exact ⟨bal_eq, mode, pre_eq⟩

/-- The record of a turn has no balance, and its call is the CDR. -/
theorem Job.record_frame {job : Job} {rtp : Racc} (record : job.record = some rtp) :
    rtp.bal = {} ∧ ∃ mode, rtp.pre = (rtCdrToRating job.env job.cdr).withMode mode :=
  rtMainRecord_frame record

theorem Job.fresh_of_record {job : Job} {rtp : Racc} (record : job.record = some rtp) :
    rtp.Fresh := by
  obtain ⟨bal_eq, mode, pre_eq⟩ := Job.record_frame record
  constructor
  · exact bal_eq
  all_goals rw [pre_eq]; rfl

/-! ## A tariff with free seconds -/

/-- Two accounts, numbers 100 and 200, with debit cards and one rate for every number at one unit of
money a second; the tariff has `limit` free seconds. -/
def freeSecondsEnv (limit : ℤ) : Env :=
  { bareEnv with
    racc := fun _ pre => some [⟨if pre.clg = "100" then 1 else 2, 1, 0, 0, 0, 0, 1, 0, 0⟩]
    pcard := fun baccId =>
      some [⟨baccId, 100, "2024-01-01", "2025-01-01", .active, .debitCard, 1⟩]
    rates := fun _ => some [⟨1, 1, "&", 1, 0, 0, 1⟩]
    calcFunction := fun _ => some [⟨1, 1, 1, 0⟩]
    freeBillsec := fun _ => some [limit] }

/-- A call of `billsec` seconds from a number, on leg a. -/
def freeSecondsCall (limit : ℤ) (id : ℕ) (clg : String) (billsec : ℤ) : Job where
  env := freeSecondsEnv limit
  reliable _ := rfl
  leg := .a
  cdr :=
    { id, cdrServerId := 1, recType := .voipA, callingNumber := clg, calledNumber := "300", billsec
      billusec := billsec * 1000000, startTs := "2024-03-04 10:00:00", startEpoch := 1709546400
      accountCode := "", srcContext := "", dstContext := "", srcTgroup := "", dstTgroup := ""
      clgNadi := 0, cldNadi := 0 }

/-- The record with which a call from number 100 is rated. -/
def freeSecondsRecord (id : ℕ) (billsec : ℤ) : Racc where
  rtm := .clg
  bacc :=
    { id := 1, billingDay := 1
      pcardPtr := some ⟨1, 100, "2024-01-01", "2025-01-01", .active, .debitCard, 1⟩ }
  bplan := { id := 1 }
  pre :=
    { cdrServerId := 1, clg := "100", cld := "300", timestamp := "2024-03-04 10:00:00"
      epoch := 1709546400, billsec, billusec := billsec * 1000000, dow := 1, ts := 1709546400
      cdrId := id, ratingModeId := RtMode.clg.id }

end RateEngine
