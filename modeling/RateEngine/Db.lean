import RateEngine.Lib.SerialTable
import RateEngine.RtData

/-!
# The database and the environment of a request

The tables that rating writes are a state; what it only reads is an environment.  A read of the
provisioning tables is the answer of the shared cache or, on a miss, of the statement: a list of
rows, or `none` when the statement gave no result.  Variables that the code reads without having
set them are parameters too.
-/

namespace RateEngine

/-! ## Tables that rating writes -/

/-- A row of `pcard`. -/
structure PcardRow where
  baccId : ℕ
  card : Pcard
deriving DecidableEq, Repr

/-- A row of `balance`. -/
structure BalanceRow where
  baccId : ℕ
  startDate : String
  endDate : String
  active : Bool
  amount : ℚ
deriving DecidableEq, Repr

/-- A row of `rating`. -/
structure RatingRow where
  callPrice : ℚ
  callBillsec : ℤ
  rateId : ℕ
  baccId : ℕ
  callId : ℕ
  ratingModeId : ℕ
  pcardId : ℕ
  timeConditionId : ℕ
  callTs : String
  freeBillsecId : ℕ
deriving DecidableEq, Repr

/-- A row of `free_billsec_balance`. -/
structure FreeBillsecBalanceRow where
  balanceId : ℕ
  freeBillsecId : ℕ
  freeBillsec : ℤ
deriving DecidableEq, Repr

/-- The rating marks of a row of `cdrs`. -/
structure CdrRow where
  id : ℕ
  legA : ℤ
  legB : ℤ
deriving DecidableEq, Repr

/-- The tables that rating writes. -/
structure Db where
  pcard : List PcardRow := []
  balance : SerialTable BalanceRow := .empty
  rating : SerialTable RatingRow := .empty
  freeBillsecBalance : SerialTable FreeBillsecBalanceRow := .empty
  cdrs : List CdrRow := []
deriving DecidableEq

/-! ## The environment -/

/-- `struct tm`, with the full year and the month from `1`. -/
structure Tm where
  year : ℤ
  mon : ℤ
  mday : ℤ
  hour : ℤ
  min : ℤ
  sec : ℤ
  wday : ℤ
deriving DecidableEq, Repr

/-- A row of the account query; `clgNadi` and `cldNadi` are selected in the trunk group modes. -/
structure RaccRow where
  baccId : ℕ
  bplanId : ℕ
  clgNadi : ℤ
  cldNadi : ℤ
  startPeriod : ℕ
  endPeriod : ℕ
  billingDay : ℕ
  roundModeId : ℕ
  dayOfPayment : ℕ
deriving DecidableEq, Repr

/-- `time_cond`: one time condition of a tariff. -/
structure TimeCond where
  id : ℕ
  tariffId : ℕ
  hours : String
  dweek : String
  tcDate : String
deriving DecidableEq, Repr

/-- The statements on the tables that rating writes. -/
inductive Stmt where
  | balCount
  | pcardSet
  | bal
  | balAdd
  | ratingDup
  | ratingAdd
  | freeBillsecUsed
  | freeBalId
  | freeBalAdd
  | freeBalUpdate
  | freeBalSum
  | updateCdr
deriving DecidableEq, Repr

/-- The values found in variables and cells that the code reads without having set them. -/
structure Unset where
  /-- `id` of `f_time_cond_query_id`. -/
  tcId : ℤ := 0
  /-- `week_days[-1].dnum` of `tc_ts_cmp`. -/
  dnum : ℤ := 0
  /-- `y`, `m` and `d` of `check_date_valid`. -/
  year : ℤ := 0
  mon : ℤ := 0
  day : ℤ := 0
  /-- `daysinmonth[m-1]` of `check_date_valid` outside the table. -/
  daysinmonth : ℤ → ℤ := fun _ => 0

/-- What a request reads besides the tables it writes. -/
structure Env where
  localtime : ℤ → Tm
  /-- `mktime` of a timestamp, `0` when it has another format. -/
  convertTsToEpoch : String → ℤ
  /-- `<=` of the database on timestamps. -/
  tsLe : String → String → Bool
  /-- `rt_eng.bal_num`. -/
  balNum : ℤ
  /-- The configured billing day. -/
  billingDay : ℤ
  callMaxsecLimit : ℕ
  kLimitMin : ℚ
  racc : RtMode → Rating → Option (List RaccRow)
  /-- The active cards of an account, in the order of the query. -/
  pcard : ℕ → Option (List Pcard)
  rates : ℕ → Option (List Rate)
  timeConditionId : ℕ → Option (List ℤ)
  timeConds : ℕ → Option (List TimeCond)
  freeBillsec : ℕ → Option (List ℤ)
  calcFunction : ℕ → Option (List CalcFunction)
  /-- The statements that give no result or have no effect. -/
  lost : Stmt → Bool
  unset : Unset := {}

/-- The rows that a statement returns. -/
def Env.select {α : Type*} (env : Env) (stmt : Stmt) (rows : List α) : Option (List α) :=
  if env.lost stmt then none else some rows

/-- The effect of a statement that writes. -/
def Env.exec (env : Env) (stmt : Stmt) (db db' : Db) : Db :=
  if env.lost stmt then db else db'

/-- No statement fails. -/
def Env.Reliable (env : Env) : Prop := ∀ stmt, env.lost stmt = false

@[simp]
theorem Env.Reliable.select {env : Env} (reliable : env.Reliable) {α : Type*} (stmt : Stmt)
    (rows : List α) : env.select stmt rows = some rows := by
  simp [Env.select, reliable stmt]

@[simp]
theorem Env.Reliable.exec {env : Env} (reliable : env.Reliable) (stmt : Stmt) (db db' : Db) :
    env.exec stmt db db' = db' := by
  simp [Env.exec, reliable stmt]

/-- A reliable environment in which nothing is provisioned. -/
def bareEnv : Env where
  localtime _ := { year := 2024, mon := 3, mday := 4, hour := 10, min := 0, sec := 0, wday := 1 }
  convertTsToEpoch _ := 1709546400
  tsLe start stop := start ≤ stop
  balNum := 2
  billingDay := 1
  callMaxsecLimit := 7200
  kLimitMin := 0
  racc _ _ := none
  pcard _ := none
  rates _ := none
  timeConditionId _ := none
  timeConds _ := none
  freeBillsec _ := none
  calcFunction _ := none
  lost _ := false

end RateEngine
