import Mathlib.Data.List.Sort
import RateEngine.Lib.RankedRows
import RateEngine.Prerating

/-!
# The rate of a call

The provisioning tables behind the rate search and the statements on them.  Over these tables
`rt_data_q_prefix_sql` is a choice: the first rate of the list that is in force, matches the called
number and has a time condition that is met, or has none to meet.
-/

namespace RateEngine

/-! ## Tables -/

/-- A row of `rate`. -/
structure RateRow where
  billPlanId : ℕ
  tariffId : ℕ
  prefixId : ℕ
deriving DecidableEq, Repr

/-- A row of `tariff`. -/
structure TariffRow where
  startPeriod : ℕ := 0
  endPeriod : ℕ := 0
  freeBillsecId : ℕ := 0
deriving DecidableEq, Repr

/-- A row of `bill_plan_tree`. -/
structure BillPlanTreeRow where
  billPlanId : ℕ
  rootBplanId : ℕ
deriving DecidableEq, Repr

/-- A row of `time_condition`. -/
structure TimeConditionRow where
  tariffId : ℕ
  timeConditionId : ℕ
  prior : ℤ := 40
deriving DecidableEq, Repr

/-- A row of `time_condition_deff`. -/
structure TimeConditionDeffRow where
  hours : String
  daysWeek : String
  tcDate : String
deriving DecidableEq, Repr

/-- The tables of the rate search. -/
structure RateTables where
  rate : SerialTable RateRow
  prefixes : SerialTable String
  tariff : SerialTable TariffRow
  billPlanTree : List BillPlanTreeRow := []
  timeCondition : SerialTable TimeConditionRow := .empty
  timeConditionDeff : SerialTable TimeConditionDeffRow := .empty

/-- `rate_t` of a row of the rates query. -/
def joinedRate (row : ℕ × RateRow) (pr : ℕ × String) (tr : ℕ × TariffRow) : Rate where
  id := row.1
  prefixId := pr.1
  prefixStr := pr.2
  tariffId := tr.1
  startPeriod := tr.2.startPeriod
  endPeriod := tr.2.endPeriod
  freeBillsecId := tr.2.freeBillsecId

namespace RateTables

/-- The rates of one plan: `rate` joined with `prefix` and `tariff`. -/
def planRates (tables : RateTables) (bplanId : ℕ) : List Rate :=
  (tables.rate.select fun rt => rt.billPlanId = bplanId).flatMap fun rt =>
    (tables.prefixes.rows.filter fun pr => pr.1 = rt.2.prefixId).flatMap fun pr =>
      (tables.tariff.rows.filter fun tr => tr.1 = rt.2.tariffId).map (joinedRate rt pr)

/-- The rows of the plan tree under a root; `rt_data_q_bplan_tree_num` counts them. -/
def tree (tables : RateTables) (bplanId : ℕ) : List BillPlanTreeRow :=
  tables.billPlanTree.filter fun tree => tree.rootBplanId = bplanId

/-- The statements of `rt_data_q_rate_sql`: the plan alone, or the plans of its tree. -/
def rates (tables : RateTables) (bplanId : ℕ) : List Rate :=
  if (tables.tree bplanId).length = 0 then tables.planRates bplanId
  else (tables.tree bplanId).flatMap fun tree => tables.planRates tree.billPlanId

/-- The statement of `f_time_cond_query_id`. -/
def timeConditionIds (tables : RateTables) (tariffId : ℕ) : List ℕ :=
  (tables.timeCondition.select fun tc => tc.tariffId = tariffId).map Prod.fst

/-- The statement of `f_time_cond_query_v2`, each row with its `prior`. -/
def timeConds (tables : RateTables) (tariffId : ℕ) : List (ℤ × TimeCond) :=
  (tables.timeCondition.select fun tc => tc.tariffId = tariffId).flatMap fun tc =>
    (tables.timeConditionDeff.rows.filter fun df => df.1 = tc.2.timeConditionId).map fun df =>
      (tc.2.prior,
        { id := df.1
          tariffId := tc.2.tariffId
          hours := df.2.hours
          dweek := df.2.daysWeek
          tcDate := df.2.tcDate })

end RateTables

/-- The rate search reads the tables; a statement without rows may give no result.  The rates come
in the order that the collation of the database gives `order by prefix desc`, and rows of one
`prior` in any order. -/
structure Env.Serves (env : Env) (tables : RateTables) : Prop where
  rates : ∀ bplanId, ((env.rates bplanId).getD []).Perm (tables.rates bplanId)
  timeConditionId : ∀ tariffId, ((env.timeConditionId tariffId).getD []).Perm
    ((tables.timeConditionIds tariffId).map Nat.cast)
  timeConds : ∀ tariffId, ∃ rows : List (ℤ × TimeCond),
    (env.timeConds tariffId).getD [] = rows.map Prod.snd ∧
      rows.Perm (tables.timeConds tariffId) ∧ rows.Pairwise fun row row' => row'.1 ≤ row.1

/-- The environment in which the rate search reads the tables, with prefixes and rows of one `prior`
in the order of their text and their insertion. -/
def Env.withRates (env : Env) (tables : RateTables) : Env :=
  { env with
    rates := fun bplanId => some
      ((tables.rates bplanId).insertionSort fun rt rt' => rt'.prefixStr ≤ rt.prefixStr)
    timeConditionId := fun tariffId => some ((tables.timeConditionIds tariffId).map Nat.cast)
    timeConds := fun tariffId => some
      (((tables.timeConds tariffId).insertionSort fun row row' => row'.1 ≤ row.1).map Prod.snd) }

theorem Env.withRates_serves (env : Env) (tables : RateTables) :
    (env.withRates tables).Serves tables where
  rates bplanId := List.perm_insertionSort _ _
  timeConditionId tariffId := .refl _
  timeConds tariffId := by
    refine ⟨_, rfl, List.perm_insertionSort _ _, ?_⟩
    exact RankedRows.pairwise_insertionSort (· ≥ ·) Prod.fst _

section Rows

variable {tables : RateTables}

theorem RateTables.mem_planRates {bplanId : ℕ} {rt : Rate}
    (member : rt ∈ tables.planRates bplanId) :
    ∃ row ∈ tables.rate.rows, ∃ pr ∈ tables.prefixes.rows, ∃ tr ∈ tables.tariff.rows,
      pr.1 = row.2.prefixId ∧ tr.1 = row.2.tariffId ∧ joinedRate row pr tr = rt := by
  simp only [planRates, SerialTable.select, List.mem_flatMap, List.mem_map, List.mem_filter,
    decide_eq_true_eq] at member
  obtain ⟨row, ⟨row_mem, -⟩, pr, ⟨pr_mem, pr_id⟩, tr, ⟨tr_mem, tr_id⟩, same⟩ := member
  exact ⟨row, row_mem, pr, pr_mem, tr, tr_mem, pr_id, tr_id, same⟩

theorem RateTables.mem_rates {bplanId : ℕ} {rt : Rate} (member : rt ∈ tables.rates bplanId) :
    ∃ plan, rt ∈ tables.planRates plan := by
  rw [rates] at member
  split at member
  · exact ⟨bplanId, member⟩
  · obtain ⟨tree, -, member⟩ := List.mem_flatMap.mp member
    exact ⟨tree.billPlanId, member⟩

/-- The id of a rate tells its row. -/
theorem RateTables.rate_eq {bplanId bplanId' : ℕ} {rt rt' : Rate}
    (member : rt ∈ tables.rates bplanId) (member' : rt' ∈ tables.rates bplanId')
    (same : rt.id = rt'.id) : rt = rt' := by
  obtain ⟨plan, member⟩ := mem_rates member
  obtain ⟨plan', member'⟩ := mem_rates member'
  obtain ⟨row, row_mem, pr, pr_mem, tr, tr_mem, pr_id, tr_id, rfl⟩ := mem_planRates member
  obtain ⟨row', row_mem', pr', pr_mem', tr', tr_mem', pr_id', tr_id', rfl⟩ := mem_planRates member'
  obtain rfl : row = row' :=
    List.inj_on_of_nodup_map tables.rate.keys_nodup row_mem row_mem' same
  obtain rfl : pr = pr' := List.inj_on_of_nodup_map tables.prefixes.keys_nodup pr_mem pr_mem'
    (pr_id.trans pr_id'.symm)
  obtain rfl : tr = tr' := List.inj_on_of_nodup_map tables.tariff.keys_nodup tr_mem tr_mem'
    (tr_id.trans tr_id'.symm)
  rfl

theorem RateTables.tariffId_ne {bplanId : ℕ} {rt : Rate} (member : rt ∈ tables.rates bplanId) :
    rt.tariffId ≠ 0 := by
  obtain ⟨plan, member⟩ := mem_rates member
  obtain ⟨-, -, -, -, tr, tr_mem, -, -, rfl⟩ := mem_planRates member
  exact (tables.tariff.key_pos tr tr_mem).ne'

theorem RateTables.mem_timeConds {tariffId : ℕ} {row : ℤ × TimeCond}
    (member : row ∈ tables.timeConds tariffId) :
    row.2.id ≠ 0 ∧ row.2.tariffId = tariffId := by
  simp only [timeConds, SerialTable.select, List.mem_flatMap, List.mem_map, List.mem_filter,
    decide_eq_true_eq] at member
  obtain ⟨tc, ⟨-, same⟩, df, ⟨df_mem, -⟩, rfl⟩ := member
  exact ⟨(tables.timeConditionDeff.key_pos df df_mem).ne', same⟩

end Rows

/-! ## The search as a choice -/

/-- The rate, the tariff and the time condition of a call; no time condition is `0`. -/
structure RateChoice where
  rateId : ℕ
  tariffId : ℕ
  tcId : ℕ
deriving DecidableEq, Repr

/-- The choice that a record holds. -/
def Rating.choice (pre : Rating) : Option RateChoice :=
  if pre.tariffId = 0 then none
  else some { rateId := pre.rateId, tariffId := pre.tariffId, tcId := pre.tcId }

/-- A rate whose tariff is in force and whose prefix matches the called number. -/
def Rate.matches (rt : Rate) (ts : ℤ) (cld : String) : Bool :=
  rtDataQChkRatePeriods rt.startPeriod rt.endPeriod ts &&
    (rt.prefixStr = "&" || rt.prefixStr.toList.isPrefixOf cld.toList)

/-- The time condition with which a tariff applies at a time: `0` when it has none to meet, `none`
when it has none that is met. -/
def tcOutcome (env : Env) (tariffId : ℕ) (epoch dow : ℤ) : Option ℕ :=
  if fTimeCondQueryId env { tariffId } = 0 then some 0
  else
    ((fTimeCondQueryV2 env { tariffId }).find? fun tc =>
      tc.meets env.unset (env.localtime epoch) dow).map TimeCond.id

/-- The choice of one rate. -/
def Rate.choice (env : Env) (ts : ℤ) (cld : String) (epoch dow : ℤ) (rt : Rate) :
    Option RateChoice :=
  if rt.matches ts cld then
    (tcOutcome env rt.tariffId epoch dow).map fun tcId =>
      { rateId := rt.id, tariffId := rt.tariffId, tcId }
  else none

/-- The choice among the rates of a list. -/
def chooseRate (env : Env) (ts : ℤ) (cld : String) (epoch dow : ℤ) (rates : List Rate) :
    Option RateChoice := rates.findSome? (Rate.choice env ts cld epoch dow)

/-- `tc_ts_cmp` finds the first condition that is met. -/
theorem tcTsCmp_eq_find (env : Env) (pre : Rating) {tcs : List TimeCond}
    (ids : ∀ tc ∈ tcs, tc.id ≠ 0) :
    tcTsCmp env tcs pre =
      match tcs.find? fun tc => tc.meets env.unset (env.localtime pre.epoch) pre.dow with
      | none => (false, pre)
      | some tc => (true, { pre with tcId := tc.id, tariffId := tc.tariffId }) := by
  induction tcs with
  | nil => rfl
  | cons tc rest ih =>
      rw [List.forall_mem_cons] at ids
      rw [tcTsCmp, if_neg ids.1, List.find?_cons]
      by_cases met : tc.meets env.unset (env.localtime pre.epoch) pre.dow = true
      · simp [met]
      · simp [met, ih ids.2]

/-- The time conditions that the search reads for a tariff are rows of that tariff. -/
def Env.KeyedTimeConds (env : Env) : Prop :=
  ∀ tariffId, ∀ tc ∈ (env.timeConds tariffId).getD [], tc.id ≠ 0 ∧ tc.tariffId = tariffId

theorem Env.KeyedTimeConds.of_mem {env : Env} (keyed : env.KeyedTimeConds) {pre : Rating}
    {tc : TimeCond} (member : tc ∈ fTimeCondQueryV2 env pre) :
    tc.id ≠ 0 ∧ tc.tariffId = pre.tariffId := by
  rw [fTimeCondQueryV2] at member
  split at member
  · cases member
  · exact keyed pre.tariffId tc member

/-- `f_free_billsec_query` writes the free seconds alone. -/
theorem fFreeBillsecQuery_eq (env : Env) (pre : Rating) :
    ∃ freeBillsecLimit, fFreeBillsecQuery env pre = { pre with freeBillsecLimit } := by
  simp only [fFreeBillsecQuery]
  split
  · exact ⟨_, rfl⟩
  · exact ⟨pre.freeBillsecLimit, rfl⟩

/-- `rt_chk_tr_opt` stores the outcome of the time conditions. -/
theorem rtChkTrOpt_eq {env : Env} (keyed : env.KeyedTimeConds) (pre : Rating) :
    ∃ freeBillsecLimit tcId, rtChkTrOpt env pre =
        { pre with
          freeBillsecLimit
          tcId
          tariffId :=
            if (tcOutcome env pre.tariffId pre.epoch pre.dow).isSome then pre.tariffId else 0 } ∧
      (pre.tcId = 0 → tcId = (tcOutcome env pre.tariffId pre.epoch pre.dow).getD 0) := by
  have queried := fFreeBillsecQuery_eq env
  have same_id : fTimeCondQueryId env { tariffId := pre.tariffId } = fTimeCondQueryId env pre := rfl
  have same_rows : fTimeCondQueryV2 env { tariffId := pre.tariffId } = fTimeCondQueryV2 env pre :=
    rfl
  simp only [rtChkTrOpt, tcOutcome, same_id, same_rows]
  by_cases has_tc : fTimeCondQueryId env pre = 0
  · obtain ⟨limit, limit_eq⟩ := queried pre
    refine ⟨limit, pre.tcId, ?_, fun no_tc => by simp [has_tc, no_tc]⟩
    simpa only [has_tc, ne_eq, not_true, if_false, if_true, Option.isSome_some] using limit_eq
  simp only [has_tc, ne_eq, not_false_eq_true, if_true, if_false]
  rw [tcTsCmp_eq_find env pre fun tc member => (keyed.of_mem member).1]
  cases found : (fTimeCondQueryV2 env pre).find? fun tc =>
      tc.meets env.unset (env.localtime pre.epoch) pre.dow with
  | none =>
      obtain ⟨limit, limit_eq⟩ := queried { pre with tariffId := 0 }
      refine ⟨limit, pre.tcId, ?_, fun no_tc => no_tc⟩
      simpa only [Option.map_none, Option.isSome_none, Bool.false_eq_true, if_false] using limit_eq
  | some tc =>
      have own := (keyed.of_mem (List.mem_of_find?_eq_some found)).2
      obtain ⟨limit, limit_eq⟩ := queried { pre with tcId := tc.id, tariffId := tc.tariffId }
      refine ⟨limit, tc.id, ?_, fun _ => rfl⟩
      simpa only [Option.map_some, Option.isSome_some, if_true, own] using limit_eq

section Search

variable {env : Env} {tables : RateTables} (serves : env.Serves tables)
include serves

theorem Env.Serves.keyedTimeConds : env.KeyedTimeConds := by
  intro tariffId tc member
  obtain ⟨rows, served, perm, -⟩ := serves.timeConds tariffId
  rw [served, List.mem_map] at member
  obtain ⟨row, row_mem, rfl⟩ := member
  exact RateTables.mem_timeConds (perm.mem_iff.mp row_mem)

/-- `rt_data_q_prefix_sql` leaves the choice among the rates in the record. -/
theorem rtDataQPrefix_choice {rates : List Rate} (tariffs : ∀ rt ∈ rates, rt.tariffId ≠ 0)
    {rtp : Racc} (no_tariff : rtp.pre.tariffId = 0) (no_tc : rtp.pre.tcId = 0) :
    (rtDataQPrefix env rates rtp).pre.choice =
      chooseRate env rtp.pre.ts rtp.pre.cld rtp.pre.epoch rtp.pre.dow rates := by
  induction rates generalizing rtp with
  | nil => simp [rtDataQPrefix, Rating.choice, no_tariff, chooseRate]
  | cons rt rest ih =>
      rw [List.forall_mem_cons] at tariffs
      have skip : rt.matches rtp.pre.ts rtp.pre.cld = false →
          (rtDataQPrefix env rest rtp).pre.choice =
            chooseRate env rtp.pre.ts rtp.pre.cld rtp.pre.epoch rtp.pre.dow (rt :: rest) := by
        intro no_match
        rw [ih tariffs.2 no_tariff no_tc]
        simp [chooseRate, Rate.choice, no_match]
      simp only [rtDataQPrefix, tariffs.1, if_false]
      split
      next out_of_force =>
        refine skip ?_
        simp only [Bool.not_eq_true] at out_of_force
        rw [Rate.matches, out_of_force, Bool.false_and]
      next in_force =>
      split
      swap
      next other_number =>
        obtain ⟨not_all, no_match⟩ := not_or.mp other_number
        refine skip ?_
        simp only [Rate.matches, not_all, Bool.eq_false_iff.mpr no_match, decide_false,
          Bool.or_false, Bool.and_false]
      next same_number =>
      have matched : rt.matches rtp.pre.ts rtp.pre.cld = true := by
        simpa [Rate.matches, not_not.mp in_force] using same_number
      obtain ⟨limit, tcId, checked, tcId_eq⟩ := rtChkTrOpt_eq serves.keyedTimeConds
        { rtp.pre with
          tariffId := rt.tariffId
          rateId := rt.id
          prefixId := rt.prefixId
          freeBillsecId := rt.freeBillsecId }
      rw [checked]
      obtain rfl := tcId_eq no_tc
      cases outcome : tcOutcome env rt.tariffId rtp.pre.epoch rtp.pre.dow with
      | none =>
          simp only [Option.isSome_none, Option.getD_none, Bool.false_eq_true, if_false, ne_eq,
            not_true]
          rw [ih tariffs.2 rfl rfl]
          simp [chooseRate, Rate.choice, matched, outcome]
      | some tcId =>
          simp only [Option.isSome_some, Option.getD_some, if_true, ne_eq, tariffs.1,
            not_false_eq_true, (rtDataQTariff_frame env _).2.2.1]
          simp [Rating.choice, tariffs.1, chooseRate, Rate.choice, matched, outcome]

/-- The rates that the search reads for a plan. -/
def Env.ratesOf (env : Env) (bplanId : ℕ) : List Rate := (env.rates bplanId).getD []

theorem Env.Serves.mem_ratesOf {bplanId : ℕ} {rt : Rate} :
    rt ∈ env.ratesOf bplanId ↔ rt ∈ tables.rates bplanId :=
  (serves.rates bplanId).mem_iff

/-- `rt_data_q_rate` searches the rates of the plan. -/
theorem rtDataQRate_choice {rtp : Racc} (no_tariff : rtp.pre.tariffId = 0)
    (no_tc : rtp.pre.tcId = 0) :
    (rtDataQRate env rtp).pre.choice =
      chooseRate env rtp.pre.ts rtp.pre.cld rtp.pre.epoch rtp.pre.dow
        (env.ratesOf rtp.bplan.id) := by
  have tariffs : ∀ rt ∈ env.ratesOf rtp.bplan.id, rt.tariffId ≠ 0 := fun rt member =>
    RateTables.tariffId_ne (serves.mem_ratesOf.mp member)
  revert tariffs
  simp only [rtDataQRate, Env.ratesOf]
  cases env.rates rtp.bplan.id with
  | none => simp [Rating.choice, no_tariff, chooseRate]
  | some rates => exact fun tariffs => rtDataQPrefix_choice serves tariffs no_tariff no_tc

/-- Pre-rating leaves the choice of the rate search. -/
theorem rtRateSearching_choice (db : Db) {rtp : Racc} (no_tariff : rtp.pre.tariffId = 0)
    (no_tc : rtp.pre.tcId = 0) :
    (rtRateSearching env db rtp).1.pre.choice =
      chooseRate env rtp.pre.ts rtp.pre.cld rtp.pre.epoch rtp.pre.dow
        (env.ratesOf rtp.bplan.id) := by
  rw [← rtDataQRate_choice serves no_tariff no_tc]
  simp only [rtRateSearching]
  split
  · rename_i card _ _
    rcases rtPreratingProcess_cases env db (rtDataQRate env rtp) card with ⟨db', refused⟩ | loaded
    · rw [refused]
    · obtain ⟨freeBillsec, freeBillsecSum, pre_eq⟩ :=
        rtPreratingLoad_pre env db (rtDataQRate env rtp) card
      rw [loaded, pre_eq]
      rfl
  · rfl

end Search

end RateEngine
