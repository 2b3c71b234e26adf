import RateEngine.Lib.EachStep
import RateEngine.RateChoice
import RateEngine.RtCache

/-!
# The options of a tariff

`rt_chk_tr_opt` keeps in the shared cache whether a tariff has time conditions and how many free
seconds it gives, and asks the database on a miss.  The flag that it keeps is the id of the time
condition when the tariff has exactly one, and a variable that was never set otherwise.  This file
says when a run of calls restricts every tariff by its time conditions.
-/

namespace RateEngine

/-! ## The code -/

/-- The time conditions in `rt_chk_tr_opt`, when the flag says that there are some. -/
def chkTimeConds (env : Env) (hasTc : ℤ) (pre : Rating) : Rating :=
  if hasTc ≠ 0 then
    match tcTsCmp env (fTimeCondQueryV2 env pre) pre with
    | (true, pre) => pre
    | (false, pre) => { pre with tariffId := 0 }
  else pre

section Code

variable (env : Env) (clock : ℕ → ℤ) (cache : Option RtCache) (pre : Rating)

/-- `rt_cache_tc_get`, with a cache. -/
def tcLook : Option ℤ := cache.bind fun cache => RtCache.tcGet (clock 0) cache.tcs pre.tariffId

/-- `rt_cache_fbs_get`, with a cache. -/
def fbsLook : Option ℤ := cache.bind fun cache => RtCache.fbsGet (clock 2) cache.fbs pre.tariffId

/-- `has_tc` where `rt_chk_tr_opt` tests it. -/
def hasTc : ℤ := (tcLook clock cache pre).getD (fTimeCondQueryId env pre)

/-- The first half of `rt_chk_tr_opt`: the time conditions. -/
def rtChkTrOptTc : Rating × Option RtCache :=
  match tcLook clock cache pre with
  | some hasTc => (chkTimeConds env hasTc pre, cache)
  | none =>
      let hasTc := fTimeCondQueryId env pre
      let cache := cache.map fun cache =>
        { cache with tcs := RtCache.tcPut (clock 1) cache.tcs pre.tariffId hasTc }
      (chkTimeConds env hasTc pre, cache)

/-- The second half of `rt_chk_tr_opt`: the free seconds. -/
def rtChkTrOptFbs : Rating × Option RtCache :=
  match fbsLook clock cache pre with
  | some limit => ({ pre with freeBillsecLimit := limit }, cache)
  | none =>
      let pre := fFreeBillsecQuery env pre
      let cache := cache.map fun cache =>
        { cache with fbs := RtCache.fbsPut (clock 3) cache.fbs pre.tariffId pre.freeBillsecLimit }
      (pre, cache)

/-- `rt_chk_tr_opt`; `clock` gives the readings of the clock in the call. -/
def rtChkTrOptCached : Rating × Option RtCache :=
  let (pre, cache) := rtChkTrOptTc env clock cache pre
  rtChkTrOptFbs env clock cache pre

/-- Without a cache this is `rt_chk_tr_opt` of the rate search. -/
theorem rtChkTrOptCached_none :
    rtChkTrOptCached env clock none pre = (rtChkTrOpt env pre, none) := rfl

theorem rtChkTrOptCached_eq : rtChkTrOptCached env clock cache pre =
    rtChkTrOptFbs env clock (rtChkTrOptTc env clock cache pre).2
      (rtChkTrOptTc env clock cache pre).1 := rfl

theorem rtChkTrOptTc_pre : (rtChkTrOptTc env clock cache pre).1 =
    chkTimeConds env (hasTc env clock cache pre) pre := by
  rw [rtChkTrOptTc, hasTc]
  cases tcLook clock cache pre <;> rfl

/-- The second half reads and writes the free seconds alone. -/
theorem rtChkTrOptFbs_pre : ∃ freeBillsecLimit,
    (rtChkTrOptFbs env clock cache pre).1 = { pre with freeBillsecLimit } := by
  rw [rtChkTrOptFbs]
  split
  · exact ⟨_, rfl⟩
  · exact fFreeBillsecQuery_eq env pre

theorem rtChkTrOptCached_tariffId : (rtChkTrOptCached env clock cache pre).1.tariffId =
    (chkTimeConds env (hasTc env clock cache pre) pre).tariffId := by
  obtain ⟨limit, same⟩ := rtChkTrOptFbs_pre env clock (rtChkTrOptTc env clock cache pre).2
    (rtChkTrOptTc env clock cache pre).1
  rw [rtChkTrOptCached_eq, same, rtChkTrOptTc_pre]

/-- The second half leaves the flags alone. -/
theorem rtChkTrOptFbs_tcs :
    (rtChkTrOptFbs env clock cache pre).2.map RtCache.tcs = cache.map RtCache.tcs := by
  rw [rtChkTrOptFbs]
  cases fbsLook clock cache pre with
  | none => cases cache <;> rfl
  | some limit => rfl

/-- A flag that is asked for is put, and nothing is put otherwise. -/
theorem rtChkTrOptCached_tcs : (rtChkTrOptCached env clock cache pre).2.map RtCache.tcs =
    cache.map fun cache =>
      if tcLook clock (some cache) pre = none then
        RtCache.tcPut (clock 1) cache.tcs pre.tariffId (fTimeCondQueryId env pre)
      else cache.tcs := by
  rw [rtChkTrOptCached_eq, rtChkTrOptFbs_tcs, rtChkTrOptTc]
  cases cache with
  | none => rfl
  | some cache =>
      rw [Option.map_some]
      cases looked : tcLook clock (some cache) pre with
      | none => rw [if_pos rfl]; rfl
      | some flag => rw [if_neg nofun]; rfl

end Code

/-! ## Time conditions -/

/-- A call of `rt_chk_tr_opt` for a tariff, over tables that stay as they are. -/
structure TariffCheck (tables : RateTables) where
  env : Env
  serves : env.Serves tables
  clock : ℕ → ℤ
  pre : Rating
  tariff_ne : pre.tariffId ≠ 0

namespace TariffCheck

variable {tables : RateTables} (check : TariffCheck tables) (cache : Option RtCache)

/-- `rt_chk_tr_opt`. -/
def run : Rating × Option RtCache := rtChkTrOptCached check.env check.clock cache check.pre

/-- The tariff has rows in `time_condition`. -/
def HasRows : Prop := tables.timeConditionIds check.pre.tariffId ≠ []

instance : Decidable check.HasRows := inferInstanceAs (Decidable (_ ≠ _))

/-- A time condition of the tariff matches the call. -/
def Matched : Prop :=
  ∃ row ∈ tables.timeConds check.pre.tariffId,
    row.2.meets check.env.unset (check.env.localtime check.pre.epoch) check.pre.dow = true

/-- The time conditions are evaluated when the tariff has some, and then the tariff is cleared when
none of them matches. -/
structure Restricted : Prop where
  evaluated : hasTc check.env check.clock cache check.pre ≠ 0 ↔ check.HasRows
  cleared : (check.run cache).1.tariffId = 0 ↔ check.HasRows ∧ ¬ check.Matched

/-- The cache has no fresh flag of the tariff. -/
def Asks : Prop := tcLook check.clock cache check.pre = none

/-- The tariff has one row, or the variable of `f_time_cond_query_id` happens to
hold what is right. -/
def FlagSet : Prop :=
  (tables.timeConditionIds check.pre.tariffId).length = 1 ∨
    (check.env.unset.tcId ≠ 0 ↔ check.HasRows)

/-- The flag of the statement is right exactly then. -/
theorem queryId_iff :
    (fTimeCondQueryId check.env check.pre ≠ 0 ↔ check.HasRows) ↔ check.FlagSet := by
  have served := check.serves.timeConditionId check.pre.tariffId
  have same_length := served.length_eq
  rw [List.length_map] at same_length
  rw [fTimeCondQueryId, if_neg check.tariff_ne, FlagSet]
  split
  · rename_i id answered
    rw [answered, Option.getD_some] at served same_length
    have one : (tables.timeConditionIds check.pre.tariffId).length = 1 := same_length.symm
    refine iff_of_true (iff_of_true ?_ ?_) (.inl one)
    · obtain ⟨key, member, rfl⟩ := List.mem_map.mp (served.mem_iff.mp List.mem_cons_self)
      obtain ⟨row, row_mem, rfl⟩ := List.mem_map.mp member
      have positive := tables.timeCondition.key_pos row (List.mem_of_mem_filter row_mem)
      exact_mod_cast positive.ne'
    · exact List.ne_nil_of_length_pos (by omega)
  · rename_i other
    have not_one : (tables.timeConditionIds check.pre.tariffId).length ≠ 1 := by
      intro one
      rw [one] at same_length
      obtain ⟨id, only⟩ := List.length_eq_one_iff.mp same_length
      cases answered : check.env.timeConditionId check.pre.tariffId with
      | none => simp [answered] at only
      | some ids => exact other id (by rw [answered, ← only, answered, Option.getD_some])
    simp only [not_one, false_or]

/-- With the right flag the tariff is cleared when it should be. -/
theorem cleared_of_flag {flag : ℤ} (right : flag ≠ 0 ↔ check.HasRows) :
    (chkTimeConds check.env flag check.pre).tariffId = 0 ↔ check.HasRows ∧ ¬ check.Matched := by
  rw [chkTimeConds]
  by_cases rows : check.HasRows
  · have keyed := check.serves.keyedTimeConds
    obtain ⟨served, answered, perm, -⟩ := check.serves.timeConds check.pre.tariffId
    rw [if_pos (right.mpr rows),
      tcTsCmp_eq_find check.env check.pre fun tc member => (keyed.of_mem member).1]
    cases found : (fTimeCondQueryV2 check.env check.pre).find? fun tc =>
        tc.meets check.env.unset (check.env.localtime check.pre.epoch) check.pre.dow with
    | none =>
        refine iff_of_true rfl ⟨rows, ?_⟩
        rintro ⟨row, member, met⟩
        rw [fTimeCondQueryV2, if_neg check.tariff_ne, answered, List.find?_eq_none] at found
        exact found row.2 (List.mem_map_of_mem (perm.mem_iff.mpr member)) met
    | some tc =>
        have member := List.mem_of_find?_eq_some found
        have met := List.find?_some found
        refine iff_of_false ?_ fun cleared => cleared.2 ?_
        · exact fun cleared => check.tariff_ne ((keyed.of_mem member).2.symm.trans cleared)
        · rw [fTimeCondQueryV2, if_neg check.tariff_ne, answered] at member
          obtain ⟨row, row_mem, rfl⟩ := List.mem_map.mp member
          exact ⟨row, perm.mem_iff.mp row_mem, met⟩
  · rw [if_neg fun set => rows (right.mp set)]
    exact iff_of_false check.tariff_ne fun cleared => rows cleared.1

theorem restricted_iff_flag : check.Restricted cache ↔
    (hasTc check.env check.clock cache check.pre ≠ 0 ↔ check.HasRows) := by
  refine ⟨Restricted.evaluated, fun right => ⟨right, ?_⟩⟩
  rw [run, rtChkTrOptCached_tariffId]
  exact check.cleared_of_flag right

end TariffCheck

/-- A cache that is on or off. -/
def newCache (cached : Bool) : Option RtCache := if cached then some {} else none

theorem forall_mem_newCache {holds : RtCache → Prop} (empty : holds {}) (cached : Bool) :
    ∀ cache ∈ newCache cached, holds cache := by
  intro cache member
  cases cached with
  | false => cases member
  | true => exact Option.some.inj member ▸ empty

/-- Every flag in the cache says whether its tariff has rows. -/
def OwnFlags (tables : RateTables) (cache : Option RtCache) : Prop :=
  ∀ own ∈ cache, own.tcs.Every rtCacheHashInt fun tariffId flag =>
    (flag ≠ 0 ↔ tables.timeConditionIds tariffId ≠ [])

section Run

variable {tables : RateTables} {check : TariffCheck tables} {cache : Option RtCache}

/-- With right flags in the cache a call goes wrong where it asks and gets a wrong flag. -/
theorem OwnFlags.restricted_iff (own : OwnFlags tables cache) :
    check.Restricted cache ↔ (check.Asks cache → check.FlagSet) := by
  rw [check.restricted_iff_flag, hasTc, TariffCheck.Asks]
  cases looked : tcLook check.clock cache check.pre with
  | none => simpa using check.queryId_iff
  | some flag =>
      obtain ⟨given, cache_eq, found⟩ := Option.bind_eq_some_iff.mp looked
      exact iff_of_true ((own given cache_eq).get found) nofun

/-- A call that restricts its tariff leaves right flags. -/
theorem OwnFlags.run (own : OwnFlags tables cache) (restricted : check.Restricted cache) :
    OwnFlags tables (check.run cache).2 := by
  intro after after_eq
  have tcs := rtChkTrOptCached_tcs check.env check.clock cache check.pre
  rw [← TariffCheck.run, after_eq] at tcs
  cases cache with
  | none => cases tcs
  | some given =>
      have kept := own given rfl
      rw [Option.map_some, Option.map_some] at tcs
      rw [Option.some.inj tcs]
      split
      · rename_i asks
        have right := (check.restricted_iff_flag _).mp restricted
        rw [hasTc, asks, Option.getD_none] at right
        exact kept.put right
      · exact kept

end Run

/-- In a run over unchanged tables, with the cache on or off, every tariff is restricted by its time
conditions exactly when every call that finds no fresh flag gets a right one: when the tariff has
one row, or the unset variable happens to be right. -/
theorem eachStep_restricted_iff (tables : RateTables) (cached : Bool)
    (checks : List (TariffCheck tables)) :
    EachStep (fun cache check => (check.run cache).2) (fun cache check => check.Restricted cache)
        (newCache cached) checks ↔
      EachStep (fun cache check => (check.run cache).2)
        (fun cache check => check.Asks cache → check.FlagSet) (newCache cached) checks := by
  have start : OwnFlags tables (newCache cached) := forall_mem_newCache .empty cached
  exact EachStep.congr (OwnFlags tables) (fun own => own.restricted_iff)
    (fun own restricted => own.run restricted) start

/-- Tariff 1 is for Saturdays and for Sundays. -/
def twoDays : RateTables where
  rate := .empty
  prefixes := .empty
  tariff := .empty
  timeCondition := (SerialTable.empty.insert ⟨1, 1, 40⟩).insert ⟨1, 2, 40⟩
  timeConditionDeff := (SerialTable.empty.insert ⟨"", "sat-sat", ""⟩).insert ⟨"", "sun-sun", ""⟩

/-- A call on a Monday, with zero in the unset variable. -/
def mondayCheck : TariffCheck twoDays where
  env := bareEnv.withRates twoDays
  serves := bareEnv.withRates_serves twoDays
  clock := fun _ => 0
  pre := { tariffId := 1, dow := 1 }
  tariff_ne := by decide

/-- The conditions are not evaluated although the tariff has two. -/
theorem twoDays_unrestricted :
    ¬ EachStep (fun cache check => (check.run cache).2) (fun cache check => check.Restricted cache)
      (newCache true) [mondayCheck] := by
  intro each
  have restricted := each [] mondayCheck [] rfl
  have rows : mondayCheck.HasRows := by decide
  exact restricted.evaluated.mpr rows rfl

end RateEngine
