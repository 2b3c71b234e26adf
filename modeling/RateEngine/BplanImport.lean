import RateEngine.BplanDump

/-!
# Importing bill plans

`import_model` reads a structured model and `import_settings` the rows of a CSV file.  Both
provision plans, prefixes, tariffs, rates and calc functions by looking a row up and inserting it if
it is not there; every statement is committed by itself, so an error keeps the rows before it.
-/

namespace RateEngine.ReCli

open Committed

/-! ## Provisioning -/

/-- The identifier that a lookup finds, or else the one that an insert gives. -/
def getOrInsert (get : Database → Option ℕ) (insert : Import ℕ) : Import ℕ := do
  match ← query get with
  | some id => return id
  | none => insert

/-- Get or create a prefix. -/
def provisionPrefix (prefixStr : String) (desc : Option String) : Import ℕ :=
  getOrInsert (·.getPrefixId prefixStr) (insertPrefix prefixStr desc)

/-- Get or create a tariff. -/
def provisionTariff (billPlanId : ℕ) (tariff : String) (start stop freeId : ℤ) : Import ℕ :=
  getOrInsert (·.getTariffId billPlanId tariff) (insertTariff billPlanId tariff start stop freeId)

/-- Add a rate unless the plan has it. -/
def provisionRate (billPlanId prefixId tariffId : ℕ) : Import Unit := do
  let _ ← getOrInsert (·.getRateId billPlanId prefixId tariffId)
    (insertRate billPlanId prefixId tariffId)

/-- Add a calc function unless the tariff has one at its position. -/
def provisionFunction (tariffId : ℕ) (pos : ℤ) (fee : Except ImportError (Option ℚ))
    (deltaTime iterations : Option ℤ) : Import Unit := do
  match ← query (·.getCalcId tariffId pos) with
  | some _ => return ()
  | none =>
      let fee ← ofExcept fee
      insertCalcFunc tariffId pos fee deltaTime iterations

/-! ## `import_model` -/

section Model

variable {φ : Type} (codec : FeeCodec φ)

/-- `_fee`. -/
def feeOf : Option φ → Except ImportError (Option ℚ)
  | none => .ok none
  | some value =>
      match codec.fee value with
      | some fee => .ok (some fee)
      | none => .error .invalidNumber

/-- The body of the loop over `calc_functions`. -/
def importFunction (tariffId : ℕ) (row : ModelFunction φ) : Import Unit :=
  provisionFunction tariffId row.pos (feeOf codec row.fee) row.deltaTime row.iterations

/-- The body of the loop over `rates`. -/
def importRate (billPlanId : ℕ) (rate : ModelRate φ) : Import Unit := do
  let freeId := rate.freeBillsec.elim 0 ModelFree.id
  let prefixId ← provisionPrefix rate.prefixStr none
  let tariffId ← provisionTariff billPlanId rate.tariff 0 0 freeId
  provisionRate billPlanId prefixId tariffId
  rate.calcFunctions.forM (importFunction codec tariffId)

/-- Get or create a plan of the type `postpaid`. -/
def provisionPostpaid (name : String) : Import ℕ :=
  getOrInsert (·.getBillPlanId name) do
    match ← query (·.getBillPlanTypeId "postpaid") with
    | none => raise (.unknownType "postpaid")
    | some typeId => insertBillPlan name typeId 0 0

/-- The name of a plan: its own, or that of the model; an empty name counts as none. -/
def planName (billPlan : Option String) (plan : ModelPlan φ) : Option String :=
  (plan.name.filter fun name => name ≠ "").or (billPlan.filter fun name => name ≠ "")

/-- The body of the loop over `plans`. -/
def importPlan (billPlan : Option String) (plan : ModelPlan φ) : Import Unit :=
  match planName billPlan plan with
  | none => raise .missingName
  | some name => do
      let billPlanId ← provisionPostpaid name
      plan.rates.forM (importRate codec billPlanId)

/-- `import_model`. -/
def importModel (model : BplanModel φ) : Import Unit :=
  if model.plans.isEmpty then raise .noPlans else model.plans.forM (importPlan codec model.billPlan)

end Model

/-! ## `import_settings` -/

/-- What Python makes of texts: `str.strip`, `int` and `Decimal`. -/
structure PyText where
  strip : String → String
  int? : String → Option ℤ
  decimal? : String → Option ℚ

section Settings

variable (py : PyText)

/-- `_get`. -/
def field (row : List String) (idx : ℕ) : String := row.getD idx ""

/-- `_strip_quotes`. -/
def stripQuotes (value : String) : String :=
  let chars := (py.strip value).toList.dropWhile (· = '"')
  String.ofList (chars.reverse.dropWhile (· = '"')).reverse

/-- `_int`. -/
def intField (value : String) : ℤ :=
  if py.strip value = "" then 0 else (py.int? (py.strip value)).getD 0

/-- `_num`. -/
def numField (value : String) : Except ImportError (Option ℚ) :=
  if py.strip value = "" then .ok none
  else
    match py.decimal? (py.strip value) with
    | some d => .ok (some d)
    | none => .error .invalidNumber

/-- `ImportState`. -/
structure ImportState where
  billPlanId : Option ℕ := none
  tariffId : Option ℕ := none

/-- The name of a bill plan row. -/
def rowPlan (row : List String) : String := stripQuotes py (field row 1)

/-- `_mode_bill_plan`. -/
def modeBillPlan (state : ImportState) (row : List String) : Import ImportState := do
  let quoted := stripQuotes py (field row 2)
  let billPlanType := if quoted = "" then "postpaid" else quoted
  match ← query (·.getBillPlanTypeId billPlanType) with
  | none => raise (.unknownType billPlanType)
  | some typeId =>
      let billPlanId ← getOrInsert (·.getBillPlanId (rowPlan py row))
        (insertBillPlan (rowPlan py row) typeId (intField py (field row 3))
          (intField py (field row 4)))
      return { state with billPlanId := some billPlanId }

/-- The number prefix of a rate row. -/
def rowPrefix (row : List String) : String := py.strip (field row 1)

/-- The tariff of a rate row. -/
def rowTariff (row : List String) : String := stripQuotes py (field row 3)

/-- The free seconds of a rate row. -/
def rowFree (row : List String) : ℤ := intField py (field row 4)

/-- Add a rate unless the plan has it or an identifier counts as none. -/
def provisionGivenRate (billPlanId prefixId tariffId : ℕ) : Import Unit :=
  if billPlanId ≠ 0 ∧ prefixId ≠ 0 ∧ tariffId ≠ 0 then
    provisionRate billPlanId prefixId tariffId
  else return ()

/-- `_mode_prefix_tariff_rate`. -/
def modePrefixTariffRate (state : ImportState) (row : List String) : Import ImportState :=
  match state.billPlanId with
  | none => raise .rateBeforePlan
  | some billPlanId => do
      let prefixId ← provisionPrefix (rowPrefix py row) (some (stripQuotes py (field row 2)))
      let tariffId ← provisionTariff billPlanId (rowTariff py row) (intField py (field row 6)) 0
        (rowFree py row)
      provisionGivenRate billPlanId prefixId tariffId
      return { state with tariffId := some tariffId }

/-- The iterations of a calc function row. -/
def rowIterations (row : List String) : Option ℤ :=
  if py.strip (field row 4) = "" then none else some (intField py (py.strip (field row 4)))

/-- `_mode_calc_function`; the fee is read before the position is looked up. -/
def modeCalcFunction (state : ImportState) (row : List String) : Import Unit :=
  match state.tariffId with
  | none => return ()
  | some tariffId => do
      let fee ← ofExcept (numField py (field row 2))
      provisionFunction tariffId (intField py (field row 1)) (.ok fee)
        (some (intField py (field row 3))) (rowIterations py row)

/-- A row of a file without the modes `3`, `4` and `5`. -/
def importRow (state : ImportState) (row : List String) : Import ImportState :=
  match row with
  | [] => return state
  | mode :: _ =>
      if py.strip mode = "1" then modeBillPlan py state row
      else if py.strip mode = "2" then modePrefixTariffRate py state row
      else if py.strip mode = "*" then do
        modeCalcFunction py state row
        return state
      else return state

/-- A CSV file of the modes `1`, `2` and `*`; rows of no mode are comments. -/
structure SettingsFile where
  rows : List (List String)
  modes : ∀ row ∈ rows, ∀ mode ∈ row.head?, py.strip mode ∉ ["3", "4", "5"]

/-- `import_settings`. -/
def importSettings (file : SettingsFile py) : Import ImportState :=
  file.rows.foldlM (importRow py) {}

end Settings

end RateEngine.ReCli
