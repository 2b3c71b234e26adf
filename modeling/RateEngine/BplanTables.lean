import Mathlib.Data.List.Sort
import Mathlib.Data.Rat.Defs
import RateEngine.Lib.Committed
import RateEngine.Lib.NamedTable

/-!
# The tables of bill plans

The command line tool provisions bill plans, prefixes, tariffs, rates and calc functions.  This file
models the tables of the schema with their serial keys and unique columns and the statements of
`re7/db.py` on them.  There are no foreign keys: a row may refer to a row that is not there.
-/

namespace RateEngine.ReCli

/-! ## Columns -/

/-- A value of a column `character varying(n)`. -/
def Varchar (n : ℕ) (value : String) : Prop := value.length ≤ n ∧ '\x00' ∉ value.toList

/-- A value of a column `integer`. -/
def Int4 (value : ℤ) : Prop := -2 ^ 31 ≤ value ∧ value < 2 ^ 31

instance (n : ℕ) (value : String) : Decidable (Varchar n value) :=
  inferInstanceAs (Decidable (_ ∧ _))

instance (value : ℤ) : Decidable (Int4 value) := inferInstanceAs (Decidable (_ ∧ _))

/-! ## Rows -/

/-- `bill_plan`. -/
structure BillPlan where
  name : String
  billPlanTypeId : ℕ
  startPeriod : ℤ
  endPeriod : ℤ
  name_fits : Varchar 128 name

/-- `prefix`. -/
structure Prefix where
  prefixStr : String
  comm : Option String
  prefixStr_fits : Varchar 32 prefixStr

/-- `tariff`. -/
structure Tariff where
  name : String
  tempId : ℕ
  startPeriod : ℤ
  endPeriod : ℤ
  freeBillsecId : ℤ
  name_fits : Varchar 64 name
  freeBillsecId_fits : Int4 freeBillsecId

/-- `rate`. -/
structure Rate where
  billPlanId : ℕ
  tariffId : ℕ
  prefixId : ℕ

/-- `calc_function`. -/
structure CalcFunction where
  tariffId : ℕ
  pos : ℤ
  deltaTime : ℤ
  fee : ℚ
  iterations : Option ℤ
  pos_fits : Int4 pos
  deltaTime_fits : Int4 deltaTime
  iterations_fits : ∀ n ∈ iterations, Int4 n

/-- `bill_plan_tree`. -/
structure BillPlanTree where
  billPlanId : ℕ
  rootBplanId : ℕ

/-- The tables; `bill_plan_type` holds names, `free_billsec` seconds. -/
structure Database where
  billPlan : NamedTable BillPlan.name
  prefixes : NamedTable Prefix.prefixStr
  tariff : NamedTable Tariff.name
  rate : SerialTable Rate
  calcFunction : SerialTable CalcFunction
  billPlanTree : SerialTable BillPlanTree
  billPlanType : NamedTable (id : String → String)
  freeBillsec : SerialTable ℤ

/-- The tables of the schema with their start values. -/
def Database.schema : Database where
  billPlan := .empty _
  prefixes := .empty _
  tariff := .empty _
  rate := .empty
  calcFunction := .empty
  billPlanTree := .empty
  billPlanType :=
    { rows := [(1, "prepaid"), (2, "postpaid")]
      next := 3
      next_pos := by decide
      key_pos := by decide
      key_lt := by decide
      keys_nodup := by decide
      names_nodup := by decide }
  freeBillsec :=
    { rows := [(1, 24000), (2, 60000), (3, 300000), (4, 10)]
      next := 5
      next_pos := by decide
      key_pos := by decide
      key_lt := by decide
      keys_nodup := by decide }

/-- What makes an import fail: no plans in the input, a plan without a name, an unknown plan type, a
rate before any plan, a fee that is no number, or a statement that the database refuses. -/
inductive ImportError where
  | noPlans
  | missingName
  | unknownType (name : String)
  | rateBeforePlan
  | invalidNumber
  | refused
deriving DecidableEq

/-- A run on the tables. -/
abbrev Import (α : Type) : Type := Committed ImportError Database α

/-! ## Lookups -/

namespace Database

variable (db : Database)

/-- `get_bill_plan_id`. -/
def getBillPlanId (billPlan : String) : Option ℕ := db.billPlan.keyOf billPlan

/-- `get_bill_plans_v2`. -/
def getBillPlansV2 (bid : ℕ) : List (ℕ × String) :=
  (db.billPlan.rows.filter fun row => row.1 = bid).map fun row => (row.1, row.2.name)

/-- `get_bill_plans_tree`. -/
def getBillPlansTree (treeId : ℕ) : List (ℕ × String) :=
  let children := db.billPlanTree.rows.filter fun row => row.2.rootBplanId = treeId
  let plans := children.filterMap fun row =>
    (db.billPlan.get? row.2.billPlanId).map fun plan => (row.2.billPlanId, plan.name)
  plans.insertionSort fun plan plan' => plan.1 ≤ plan'.1

/-- A row of `get_rate_data`. -/
structure RateData where
  tariffId : ℕ
  tariff : String
  prefixId : ℕ
  prefixStr : String
deriving DecidableEq

/-- A rate with its tariff and its prefix. -/
def rateData (row : Rate) : Option RateData :=
  (db.tariff.get? row.tariffId).bind fun tariff =>
    (db.prefixes.get? row.prefixId).map fun pre =>
      { tariffId := row.tariffId, tariff := tariff.name, prefixId := row.prefixId,
        prefixStr := pre.prefixStr }

/-- The rates of a plan with their tariffs and prefixes. -/
def planRates (billPlanId : ℕ) : List RateData :=
  (db.rate.rows.filter fun row => row.2.billPlanId = billPlanId).filterMap fun row =>
    db.rateData row.2

/-- `get_rate_data`. -/
def getRateData (billPlanId : ℕ) : List RateData :=
  (db.planRates billPlanId).insertionSort fun rate rate' => rate.tariffId ≤ rate'.tariffId

/-- The seconds of a `free_billsec_id`. -/
def freeSeconds (freeBillsecId : ℤ) : Option ℤ :=
  (db.freeBillsec.rows.find? fun row => (row.1 : ℤ) = freeBillsecId).map Prod.snd

/-- `get_free_billsec_v2`. -/
def getFreeBillsecV2 (tariffId : ℕ) : Option (ℤ × ℤ) :=
  (db.tariff.get? tariffId).bind fun tariff =>
    (db.freeSeconds tariff.freeBillsecId).map fun seconds => (tariff.freeBillsecId, seconds)

/-- The calc functions of a tariff. -/
def tariffCalcs (tariffId : ℕ) : List CalcFunction :=
  (db.calcFunction.rows.filter fun row => row.2.tariffId = tariffId).map Prod.snd

/-- `get_calc_functions_v2`. -/
def getCalcFunctionsV2 (tariffId : ℕ) : List CalcFunction :=
  if tariffId = 0 then []
  else (db.tariffCalcs tariffId).insertionSort fun row row' => row.pos ≤ row'.pos

/-- `get_bill_plan_type_id`. -/
def getBillPlanTypeId (billPlanType : String) : Option ℕ := db.billPlanType.keyOf billPlanType

/-- `get_prefix_id`. -/
def getPrefixId (prefixStr : String) : Option ℕ := db.prefixes.keyOf prefixStr

/-- The tariffs of a name that rates refer to: the first query of `get_tariff_id`. -/
def ratedTariffs (tariff : String) : List ℕ :=
  db.rate.rows.flatMap fun rt =>
    (db.tariff.rows.filter fun tr => tr.2.name = tariff ∧ rt.2.tariffId = tr.1).map fun _ =>
      rt.2.tariffId

/-- `get_tariff_id`: a tariff of the name that some rate refers to, or one staged for the plan. -/
def getTariffId (billPlanId : ℕ) (tariff : String) : Option ℕ :=
  match (db.ratedTariffs tariff).head? with
  | some rid => some rid
  | none =>
      (db.tariff.rows.find? fun tr => tr.2.name = tariff ∧ tr.2.tempId = billPlanId).map Prod.fst

/-- `get_rate_id`. -/
def getRateId (billPlanId prefixId tariffId : ℕ) : Option ℕ :=
  (db.rate.rows.find? fun row => row.2.tariffId = tariffId ∧ row.2.billPlanId = billPlanId ∧
    row.2.prefixId = prefixId).map Prod.fst

/-- `get_calc_id`. -/
def getCalcId (tariffId : ℕ) (pos : ℤ) : Option ℕ :=
  (db.calcFunction.rows.find? fun row => row.2.tariffId = tariffId ∧ row.2.pos = pos).map Prod.fst

end Database

/-! ## Inserts -/

/-- `insert_bill_plan`. -/
def insertBillPlan (billPlan : String) (billPlanTypeId : ℕ) (startPeriod endPeriod : ℤ) :
    Import ℕ :=
  .statement .refused fun db =>
    if accepted : Varchar 128 billPlan ∧ Int4 startPeriod ∧ Int4 endPeriod ∧
        billPlan ∉ db.billPlan.rows.map fun row => row.2.name then
      some (db.billPlan.next, { db with
        billPlan := db.billPlan.insertNew
          { name := billPlan, billPlanTypeId, startPeriod, endPeriod, name_fits := accepted.1 }
          accepted.2.2.2 })
    else none

/-- `insert_prefix`: an empty description is left out. -/
def insertPrefix (prefixStr : String) (desc : Option String) : Import ℕ :=
  .statement .refused fun db =>
    if accepted : Varchar 32 prefixStr ∧ (∀ text ∈ desc, '\x00' ∉ text.toList) ∧
        prefixStr ∉ db.prefixes.rows.map fun row => row.2.prefixStr then
      some (db.prefixes.next, { db with
        prefixes := db.prefixes.insertNew
          { prefixStr, comm := desc.filter fun text => text ≠ "", prefixStr_fits := accepted.1 }
          accepted.2.2 })
    else none

/-- `insert_tariff`. -/
def insertTariff (billPlanId : ℕ) (tariff : String) (start stop freeBillsecId : ℤ) : Import ℕ :=
  .statement .refused fun db =>
    if accepted : Varchar 64 tariff ∧ Int4 start ∧ Int4 stop ∧ Int4 freeBillsecId ∧
        tariff ∉ db.tariff.rows.map fun row => row.2.name then
      some (db.tariff.next, { db with
        tariff := db.tariff.insertNew
          { name := tariff, tempId := billPlanId, startPeriod := start, endPeriod := stop,
            freeBillsecId, name_fits := accepted.1, freeBillsecId_fits := accepted.2.2.2.1 }
          accepted.2.2.2.2 })
    else none

/-- `insert_rate`. -/
def insertRate (billPlanId prefixId tariffId : ℕ) : Import ℕ :=
  .statement .refused fun db =>
    some (db.rate.next, { db with rate := db.rate.insert { billPlanId, tariffId, prefixId } })

/-- `insert_calc_func`: no iterations and zero iterations are both left out. -/
def insertCalcFunc (tariffId : ℕ) (pos : ℤ) (fee : Option ℚ) (deltaTime iterations : Option ℤ) :
    Import Unit :=
  .statement .refused fun db =>
    match fee, deltaTime with
    | some fee, some deltaTime =>
        if accepted : Int4 pos ∧ Int4 deltaTime ∧ (∀ n ∈ iterations, Int4 n) then
          some ((), { db with
            calcFunction := db.calcFunction.insert
              { tariffId, pos, deltaTime, fee, iterations := iterations.filter fun n => n ≠ 0,
                pos_fits := accepted.1, deltaTime_fits := accepted.2.1,
                iterations_fits := fun n member =>
                  accepted.2.2 n (Option.mem_filter_iff.mp member).1 } })
        else none
    | _, _ => none

end RateEngine.ReCli
