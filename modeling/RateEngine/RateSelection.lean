import RateEngine.AccountFallback
import RateEngine.RateChoice
import RateEngine.TimeCondParity

/-!
# Rate selection in both rating engines

The classic search goes through the rates of a plan and filters each of them: period, prefix, time
conditions.  The batch engine joins the rates whose prefix is `LIKE` the start of the called number,
ranks them by length and then filters the one that it ranked first.  This file says when the two
select the same rate.
-/

namespace RateEngine

/-! ## The batch engine -/

/-- `text LIKE pattern`. -/
def sqlLike : List Char → List Char → Bool
  | [], text => text.isEmpty
  | '%' :: pattern, text => text.tails.any (sqlLike pattern)
  | '_' :: pattern, _ :: text => sqlLike pattern text
  | c :: pattern, d :: text => c = d && sqlLike pattern text
  | _ :: _, [] => false

namespace RateTables

/-- `COALESCE(tree.bill_plan_id, bplan_id)` over the plan joined with its tree from the left. -/
def coalescedPlans (tables : RateTables) (bplanId : ℕ) : List ℕ :=
  match tables.tree bplanId with
  | [] => [bplanId]
  | rows => rows.map BillPlanTreeRow.billPlanId

/-- The rates that `matched` joins to a CDR. -/
def matched (tables : RateTables) (bplanId : ℕ) (cld : String) : List Rate :=
  ((tables.coalescedPlans bplanId).flatMap tables.planRates).filter fun rt =>
    sqlLike (rt.prefixStr.toList ++ ['%']) cld.toList

/-- `rn = 1` of `matched`: a longest prefix; `ROW_NUMBER` orders ties in any way. -/
def RankedFirst (tables : RateTables) (bplanId : ℕ) (cld : String) (rt : Rate) : Prop :=
  rt ∈ tables.matched bplanId cld ∧
    ∀ other ∈ tables.matched bplanId cld, other.prefixStr.length ≤ rt.prefixStr.length

/-- `has_tc = FALSE OR tc_match_id IS NOT NULL` of `best_match`. -/
def tcPasses (tables : RateTables) (tariffId : ℕ) (tm : Tm) : Bool :=
  (tables.timeCondition.select fun tc => tc.tariffId = tariffId).isEmpty ||
    (tables.timeConds tariffId).any fun row => row.2.sqlMeets tm

/-- `best_match` for a CDR gives the rate and the tariff, or no row. -/
inductive BestMatch (tables : RateTables) (bplanId : ℕ) (cld : String) (tm : Tm) :
    Option (ℕ × ℕ) → Prop
  | unmatched (none_matched : tables.matched bplanId cld = []) :
      BestMatch tables bplanId cld tm none
  | filtered {rt : Rate} (first : tables.RankedFirst bplanId cld rt)
      (fails : tables.tcPasses rt.tariffId tm = false) : BestMatch tables bplanId cld tm none
  | found {rt : Rate} (first : tables.RankedFirst bplanId cld rt)
      (passes : tables.tcPasses rt.tariffId tm = true) :
      BestMatch tables bplanId cld tm (some (rt.id, rt.tariffId))

end RateTables

/-- Both engines join the same rates. -/
theorem RateTables.coalescedPlans_rates (tables : RateTables) (bplanId : ℕ) :
    (tables.coalescedPlans bplanId).flatMap tables.planRates = tables.rates bplanId := by
  rw [coalescedPlans, rates]
  cases tables.tree bplanId with
  | nil => simp
  | cons row rest => simp [List.flatMap_map]

/-! ## The classic engine -/

/-- The record of a CDR after the account lookup found its plan. -/
def planRecord (env : Env) (mode : RtMode) (bplan : Bplan) (cdr : Cdr) : Racc where
  rtm := mode
  bplan := bplan
  pre := (rtCdrToRating env cdr).withMode mode

/-- The rate and the tariff that `rt_exec` searches for a CDR: plan periods, then the prefix search
with its period and time-condition checks. -/
def classicMatch (env : Env) (mode : RtMode) (bplan : Bplan) (cdr : Cdr) : Option (ℕ × ℕ) :=
  let rtp := planRecord env mode bplan cdr
  (rtDataQRate env { rtp with bplan := rtChkBplanPeriods rtp.bplan rtp.pre.ts }).pre.choice.map
    fun choice => (choice.rateId, choice.tariffId)

/-- The rates that the classic search goes through: those of the plan while it is in force, else
those of plan `0`. -/
def classicRates (env : Env) (bplan : Bplan) (cdr : Cdr) : List Rate :=
  env.ratesOf (rtChkBplanPeriods bplan cdr.startEpoch).id

/-- The start of a CDR. -/
def Cdr.start (env : Env) (cdr : Cdr) : Tm := env.localtime (env.convertTsToEpoch cdr.startTs)

/-- The choice of one rate for a CDR. -/
def Rate.choiceFor (env : Env) (cdr : Cdr) (rt : Rate) : Option RateChoice :=
  rt.choice env cdr.startEpoch cdr.calledNumber (env.convertTsToEpoch cdr.startTs)
    (cdr.start env).wday

/-- A rate passes the checks of the classic search: its tariff is in force, its prefix is `&` or
starts the called number, and its time conditions are met. -/
def Rate.Accepted (env : Env) (cdr : Cdr) (rt : Rate) : Prop :=
  rt.matches cdr.startEpoch cdr.calledNumber = true ∧
    (tcOutcome env rt.tariffId (env.convertTsToEpoch cdr.startTs)
      (cdr.start env).wday).isSome = true

/-! ## When both select the same rate -/

/-- The parity claim at one plan and CDR: whatever row the ranking of `best_match` takes among the
longest prefixes, the classic search selects its rate and tariff, and none when there is none. -/
def SelectsAlike (env : Env) (tables : RateTables) (mode : RtMode) (bplan : Bplan) (cdr : Cdr) :
    Prop :=
  ∀ selected, tables.BestMatch bplan.id cdr.calledNumber (cdr.start env) selected →
    classicMatch env mode bplan cdr = selected

/-- The classic search accepts no rate. -/
def NoneAccepted (env : Env) (bplan : Bplan) (cdr : Cdr) : Prop :=
  ∀ rt ∈ classicRates env bplan cdr, ¬ rt.Accepted env cdr

/-- The classic search goes through the rate, accepts it, and accepts none of the rates before. -/
def FirstAccepted (env : Env) (bplan : Bplan) (cdr : Cdr) (rt : Rate) : Prop :=
  ∃ before after, classicRates env bplan cdr = before ++ rt :: after ∧ rt.Accepted env cdr ∧
    ∀ earlier ∈ before, ¬ earlier.Accepted env cdr

section Selection

variable {env : Env} {tables : RateTables} {bplan : Bplan} {cdr : Cdr}

theorem Rate.choiceFor_eq_some_iff {rt : Rate} {choice : RateChoice} :
    rt.choiceFor env cdr = some choice ↔
      rt.matches cdr.startEpoch cdr.calledNumber = true ∧
        ∃ tcId, tcOutcome env rt.tariffId (env.convertTsToEpoch cdr.startTs)
          (cdr.start env).wday = some tcId ∧
            { rateId := rt.id, tariffId := rt.tariffId, tcId } = choice := by
  rw [choiceFor, Rate.choice]
  split
  next matched => simp only [matched, true_and, Option.map_eq_some_iff]
  next unmatched => simp [unmatched]

theorem Rate.choiceFor_eq_none_iff {rt : Rate} :
    rt.choiceFor env cdr = none ↔ ¬ rt.Accepted env cdr := by
  rw [Option.eq_none_iff_forall_ne_some]
  constructor
  · rintro none_chosen ⟨matched, outcome⟩
    obtain ⟨tcId, outcome⟩ := Option.isSome_iff_exists.mp outcome
    exact none_chosen _ (choiceFor_eq_some_iff.mpr ⟨matched, tcId, outcome, rfl⟩)
  · intro refused choice chosen
    obtain ⟨matched, tcId, outcome, -⟩ := choiceFor_eq_some_iff.mp chosen
    exact refused ⟨matched, Option.isSome_iff_exists.mpr ⟨tcId, outcome⟩⟩

variable (serves : env.Serves tables)
include serves

/-- The classic search as a choice among the rates that it goes through. -/
theorem classicMatch_eq (mode : RtMode) :
    classicMatch env mode bplan cdr =
      ((classicRates env bplan cdr).findSome? (Rate.choiceFor env cdr)).map
        fun choice => (choice.rateId, choice.tariffId) := by
  have searched := rtDataQRate_choice serves
    (show ({ planRecord env mode bplan cdr with
      bplan := rtChkBplanPeriods bplan cdr.startEpoch } : Racc).pre.tariffId = 0 from rfl) rfl
  rw [classicMatch]
  exact congrArg _ searched

theorem classicMatch_eq_none_iff (mode : RtMode) :
    classicMatch env mode bplan cdr = none ↔ NoneAccepted env bplan cdr := by
  rw [classicMatch_eq serves, Option.map_eq_none_iff, List.findSome?_eq_none_iff, NoneAccepted]
  simp only [Rate.choiceFor_eq_none_iff]

/-- The classic search selects a rate of the plan exactly when it is the first one accepted. -/
theorem classicMatch_eq_some_iff (mode : RtMode) {rt : Rate} (member : rt ∈ tables.rates bplan.id) :
    classicMatch env mode bplan cdr = some (rt.id, rt.tariffId) ↔
      FirstAccepted env bplan cdr rt := by
  rw [classicMatch_eq serves, Option.map_eq_some_iff]
  constructor
  · rintro ⟨choice, found, same⟩
    obtain ⟨before, chosen, after, split, chosen_eq, none_before⟩ :=
      List.findSome?_eq_some_iff.mp found
    obtain ⟨matched, tcId, outcome, rfl⟩ := Rate.choiceFor_eq_some_iff.mp chosen_eq
    have chosen_mem : chosen ∈ classicRates env bplan cdr := by
      rw [split]
      exact List.mem_append_right before List.mem_cons_self
    obtain rfl : chosen = rt := RateTables.rate_eq (serves.mem_ratesOf.mp chosen_mem) member
      (Prod.mk.inj same).1
    exact ⟨before, after, split, ⟨matched, Option.isSome_iff_exists.mpr ⟨tcId, outcome⟩⟩,
      fun earlier earlier_mem => Rate.choiceFor_eq_none_iff.mp (none_before earlier earlier_mem)⟩
  · rintro ⟨before, after, split, ⟨matched, outcome⟩, none_before⟩
    obtain ⟨tcId, outcome⟩ := Option.isSome_iff_exists.mp outcome
    refine ⟨{ rateId := rt.id, tariffId := rt.tariffId, tcId }, ?_, rfl⟩
    refine List.findSome?_eq_some_iff.mpr ⟨before, rt, after, split,
      Rate.choiceFor_eq_some_iff.mpr ⟨matched, tcId, outcome, rfl⟩, fun earlier earlier_mem => ?_⟩
    exact Rate.choiceFor_eq_none_iff.mpr (none_before earlier earlier_mem)

end Selection

/-! ## Two plans -/

/-- A plan with one rate, for every number on working days. -/
def catchAllRates : RateTables where
  rate := SerialTable.empty.insert { billPlanId := 1, tariffId := 1, prefixId := 1 }
  prefixes := SerialTable.empty.insert "&"
  tariff := SerialTable.empty.insert {}
  timeCondition := SerialTable.empty.insert { tariffId := 1, timeConditionId := 1 }
  timeConditionDeff := SerialTable.empty.insert { hours := "", daysWeek := "mon-fri", tcDate := "" }

/-- A plan with a rate for numbers that start with 2 and one for numbers that start with 20. -/
def twoPrefixRates : RateTables where
  rate := (SerialTable.empty.insert { billPlanId := 1, tariffId := 1, prefixId := 1 }).insert
    { billPlanId := 1, tariffId := 2, prefixId := 2 }
  prefixes := (SerialTable.empty.insert "2").insert "20"
  tariff := (SerialTable.empty.insert {}).insert {}

end RateEngine
