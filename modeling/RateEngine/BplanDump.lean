import Mathlib.Algebra.Field.Rat
import Mathlib.Algebra.Order.Group.Unbundled.Abs
import Mathlib.Algebra.Order.Ring.Int
import RateEngine.BplanTables
import RateEngine.Lib.ShortestDecimal

/-!
# Dumping a bill plan

`collect_bplan` gathers the rates of a plan, or of the plans below the root of a tree, with their
tariffs, free seconds and calc functions.  A dump writes the model as JSON and an import reads it
back, so decimals pass through doubles.
-/

namespace RateEngine.ReCli

/-! ## Models -/

/-- The `free_billsec` of a rate: the identifier and the seconds. -/
structure ModelFree where
  id : ℤ
  value : ℤ
deriving DecidableEq

/-- An element of `calc_functions`; fees are decimals in a dump and JSON values in an import. -/
structure ModelFunction (φ : Type) where
  pos : ℤ
  deltaTime : Option ℤ
  fee : Option φ
  iterations : Option ℤ
deriving DecidableEq

/-- An element of `rates`. -/
structure ModelRate (φ : Type) where
  prefixId : Option ℕ := none
  prefixStr : String
  tariffId : Option ℕ := none
  tariff : String
  freeBillsec : Option ModelFree
  calcFunctions : List (ModelFunction φ)
deriving DecidableEq

/-- An element of `plans`. -/
structure ModelPlan (φ : Type) where
  id : Option ℕ := none
  name : Option String
  rates : List (ModelRate φ)
deriving DecidableEq

/-- A bill plan model. -/
structure BplanModel (φ : Type) where
  billPlan : Option String
  plans : List (ModelPlan φ)
deriving DecidableEq

section Map

variable {φ ψ : Type} (f : φ → ψ)

/-- Convert the fee of a calc function. -/
def ModelFunction.map (row : ModelFunction φ) : ModelFunction ψ :=
  { row with fee := row.fee.map f }

/-- Convert the fees of a rate. -/
def ModelRate.map (rate : ModelRate φ) : ModelRate ψ :=
  { rate with calcFunctions := rate.calcFunctions.map (ModelFunction.map f) }

/-- Convert the fees of a plan. -/
def ModelPlan.map (plan : ModelPlan φ) : ModelPlan ψ :=
  { plan with rates := plan.rates.map (ModelRate.map f) }

/-- Convert the fees of a model. -/
def BplanModel.map (model : BplanModel φ) : BplanModel ψ :=
  { model with plans := model.plans.map (ModelPlan.map f) }

end Map

/-! ## `collect_bplan` -/

/-- A calc function as `collect_bplan` gives it. -/
def collectFunction (row : CalcFunction) : ModelFunction ℚ where
  pos := row.pos
  deltaTime := some row.deltaTime
  fee := some row.fee
  iterations := row.iterations

variable (db : Database)

/-- A rate as `collect_bplan` gives it. -/
def collectRate (rate : Database.RateData) : ModelRate ℚ where
  prefixId := some rate.prefixId
  prefixStr := rate.prefixStr
  tariffId := some rate.tariffId
  tariff := rate.tariff
  freeBillsec := (db.getFreeBillsecV2 rate.tariffId).map fun free => ⟨free.1, free.2⟩
  calcFunctions := (db.getCalcFunctionsV2 rate.tariffId).map collectFunction

/-- A plan as `collect_bplan` gives it. -/
def collectPlan (bp : ℕ × String) : ModelPlan ℚ where
  id := some bp.1
  name := some bp.2
  rates := (db.getRateData bp.1).map (collectRate db)

/-- The plans of a dump: those below a root, or the plan itself. -/
def planRows (bid : ℕ) : List (ℕ × String) :=
  match db.getBillPlansTree bid with
  | [] => db.getBillPlansV2 bid
  | plans => plans

/-- `collect_bplan`. -/
def collectBplan (bplan : String) : Option (BplanModel ℚ) :=
  (db.getBillPlanId bplan).map fun bid =>
    { billPlan := some bplan
      plans := ((planRows db bid).filter fun bp => bp.1 ≠ 0).map (collectPlan db) }

/-! ## Fees in JSON -/

/-- A decimal of at most fifteen significant digits, zero or of the size of a normal double. -/
def FifteenDigits (d : ℚ) : Prop :=
  BinaryFloat.Decimal 15 d ∧ (d = 0 ∨ 2 ^ (-1022 : ℤ) ≤ |d| ∧ |d| < 2 ^ 1024 - 2 ^ 970)

/-- The values that JSON has for fees: `_plain` gives the double of a decimal, and `_fee` reads the
decimal of a value, if its text is one.  Fifteen digits survive the way there and back. -/
structure FeeCodec (φ : Type) where
  plain : ℚ → φ
  fee : φ → Option ℚ
  fee_plain : ∀ d, FifteenDigits d → fee (plain d) = some d

/-- `_plain` of a model. -/
def plain {φ : Type} (codec : FeeCodec φ) : BplanModel ℚ → BplanModel φ :=
  BplanModel.map codec.plain

/-- Fees that stay decimals. -/
def FeeCodec.decimals : FeeCodec ℚ := ⟨id, some, fun _ _ => rfl⟩

/-- `float` of a decimal; there is no value for an infinity. -/
def toDouble (d : ℚ) : Option ℚ :=
  let x := BinaryFloat.nearest 53 (-1074) d
  if |x| < 2 ^ 1024 then some x else none

/-- `Decimal(str(x))`. -/
def doubleText (x : ℚ) : ℚ := BinaryFloat.shortest 53 (-1074) 17 x

theorem map_doubleText_toDouble {d : ℚ} (digits : FifteenDigits d) :
    (toDouble d).map doubleText = some d := by
  obtain ⟨decimal, rfl | ⟨lower, upper⟩⟩ := digits
  · simp [toDouble, doubleText]
  have finite : |BinaryFloat.nearest 53 (-1074) d| < 2 ^ (1024 : ℤ) := by
    refine BinaryFloat.abs_nearest_lt (by norm_num) ?_
    have half : (1024 : ℤ) - (53 : ℕ) - 1 = 970 := by norm_num
    rw [half]
    exact_mod_cast upper
  have read : toDouble d = some (BinaryFloat.nearest 53 (-1074) d) :=
    if_pos (by exact_mod_cast finite)
  have normal : BinaryFloat.leastNormal 53 (-1074) ≤ |d| := lower
  rw [read, Option.map_some, doubleText]
  exact congrArg some (BinaryFloat.shortest_nearest (by norm_num) (by norm_num) (by norm_num)
    decimal normal)

/-- Fees as doubles. -/
def FeeCodec.doubles : FeeCodec (Option ℚ) where
  plain := toDouble
  fee x := x.map doubleText
  fee_plain _ := map_doubleText_toDouble

end RateEngine.ReCli
