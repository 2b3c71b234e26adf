import RateEngine.CallTable
import RateEngine.Lib.KeyedRows
import RateEngine.RateChoice
import RateEngine.Rating

/-!
# The rate of a call, online and offline

`rt_maxsec` authorises a call and `rt_main` prices its CDR later.  Both run the same search of the
same plan, on records that they fill apart: `cc_maxsec_pre` leaves the start of the call out of
`epoch` and `dow`, so the online search judges time conditions at the epoch.  This file says when
the two searches choose alike.
-/

namespace RateEngine

/-! ## The CDR of a call -/

/-- `convert_epoch_to_ts`. -/
def convertEpochToTs (env : Env) (tt : ℤ) : String :=
  (env.localtime tt).date ++ " " ++ (env.localtime tt).time

/-- The CDR that `cc_server_add_cdr` inserts, under the id that `get_cdr_id` finds;
`cc_server_thread` has written `timestamp` from `ts`. -/
def ccServerAddCdr (env : Env) (pre : Rating) (max : CcMax) (term : CcTerm) (id : ℕ) : Cdr where
  id := id
  cdrServerId := pre.cdrServerId
  recType := .voipA
  callingNumber := max.clg
  calledNumber := max.cld
  billsec := term.billsec
  billusec := 0
  startTs := convertEpochToTs env pre.ts
  startEpoch := pre.ts
  accountCode := ""
  srcContext := ""
  dstContext := ""
  srcTgroup := ""
  dstTgroup := ""
  clgNadi := 0
  cldNadi := 0

/-! ## What the search leaves alone -/

section Frames

variable (env : Env)

theorem rtChkTrOpt_pre (pre : Rating) :
    ∃ tcId tariffId freeBillsecLimit,
      rtChkTrOpt env pre = { pre with tcId, tariffId, freeBillsecLimit } := by
  have queried := fFreeBillsecQuery_eq env
  have compared := tcTsCmp_eq env (fTimeCondQueryV2 env pre) pre
  simp only [rtChkTrOpt]
  split
  · revert compared
    rcases tcTsCmp env (fTimeCondQueryV2 env pre) pre with ⟨met, checked⟩
    intro compared
    cases met with
    | true =>
        obtain ⟨limit, queried⟩ := queried checked
        simp only at compared
        rw [queried, compared]
        exact ⟨_, _, limit, rfl⟩
    | false =>
        obtain ⟨limit, queried⟩ := queried { checked with tariffId := 0 }
        simp only at compared
        rw [queried, compared]
        exact ⟨_, 0, limit, rfl⟩
  · obtain ⟨limit, queried⟩ := queried pre
    exact ⟨pre.tcId, pre.tariffId, limit, queried⟩

/-- The search writes what it chooses and nothing else of the record. -/
theorem rtDataQPrefix_pre (rates : List Rate) (rtp : Racc) :
    ∃ rateId tariffId prefixId tcId freeBillsecId freeBillsecLimit,
      (rtDataQPrefix env rates rtp).pre =
        { rtp.pre with rateId, tariffId, prefixId, tcId, freeBillsecId, freeBillsecLimit } := by
  induction rates generalizing rtp with
  | nil => exact ⟨_, _, _, _, _, _, rfl⟩
  | cons rate rest ih =>
      simp only [rtDataQPrefix]
      split
      · exact ⟨_, _, _, _, _, _, rfl⟩
      split
      · exact ih rtp
      split
      · obtain ⟨tcId, tariffId, limit, checked⟩ := rtChkTrOpt_pre env
          { rtp.pre with
            tariffId := rate.tariffId
            rateId := rate.id
            prefixId := rate.prefixId
            freeBillsecId := rate.freeBillsecId }
        rw [checked]
        split
        · rw [(rtDataQTariff_frame env _).2.2.1]
          exact ⟨_, _, _, _, _, _, rfl⟩
        · obtain ⟨_, _, _, _, _, _, searched⟩ := ih { rtp with pre :=
            { rtp.pre with
              tariffId
              rateId := rate.id
              prefixId := rate.prefixId
              freeBillsecId := rate.freeBillsecId
              tcId
              freeBillsecLimit := limit } }
          rw [searched]
          exact ⟨_, _, _, _, _, _, rfl⟩
      · exact ih rtp

/-- The rate search keeps the server and the time of the request, and the CDR. -/
theorem rtRateSearching_request (db : Db) (rtp : Racc) :
    (rtRateSearching env db rtp).1.pre.cdrServerId = rtp.pre.cdrServerId ∧
      (rtRateSearching env db rtp).1.pre.ts = rtp.pre.ts ∧
        (rtRateSearching env db rtp).1.pre.cdrId = rtp.pre.cdrId := by
  have searched : (rtDataQRate env rtp).pre.cdrServerId = rtp.pre.cdrServerId ∧
      (rtDataQRate env rtp).pre.ts = rtp.pre.ts ∧
        (rtDataQRate env rtp).pre.cdrId = rtp.pre.cdrId := by
    simp only [rtDataQRate]
    split
    · exact ⟨rfl, rfl, rfl⟩
    · rename_i rates _
      obtain ⟨_, _, _, _, _, _, searched⟩ := rtDataQPrefix_pre env rates { rtp with bplan :=
        { rtp.bplan with ratesPtr := env.rates rtp.bplan.id, calcFuncs := none } }
      rw [searched]
      exact ⟨rfl, rfl, rfl⟩
  simp only [rtRateSearching]
  split
  · rename_i card _ _
    rcases rtPreratingProcess_cases env db (rtDataQRate env rtp) card with ⟨db', refused⟩ | loaded
    · rw [refused]
      exact searched
    · obtain ⟨_, _, pre_eq⟩ := rtPreratingLoad_pre env db (rtDataQRate env rtp) card
      rw [loaded, pre_eq]
      exact searched
  · exact searched

/-- Everything after the search changes the limit and the seconds of the record only. -/
theorem rtMaxsec_pre (db : Db) (sim : ℤ) {pre : Rating} {rtp : Racc} {card : Pcard}
    (found : rtMaxsecAccount env pre = .ok (rtp, card)) :
    ∃ limit maxsec, (rtMaxsec env db pre sim).1 =
      { (rtRateSearching env db rtp).1.pre with limit, maxsec } := by
  simp only [rtMaxsec, found, rtMaxsecGrant]
  generalize (rtRateSearching env db rtp).1 = searched
  cases searched.bplan.calcFuncs with
  | none => exact ⟨_, _, rfl⟩
  | some tr =>
      rcases rtMaxsecLimit env.kLimitMin card searched.bal.amount sim with ⟨_ | code, limit⟩
      · have seconds (rtp : Racc) :
            ∃ maxsec, (calcMaxsec env.callMaxsecLimit rtp).pre = { rtp.pre with maxsec } := by
          simp only [calcMaxsec]
          split <;> exact ⟨_, rfl⟩
        obtain ⟨maxsec, pre_eq⟩ := seconds { searched with pre := { searched.pre with limit } }
        simp only
        split <;> rename_i grant <;> split at grant
        · obtain rfl := (Prod.mk.inj (Except.error.inj grant)).2
          rw [pre_eq]
          exact ⟨limit, _, rfl⟩
        · cases grant
        · cases grant
        · obtain rfl := Except.ok.inj grant
          exact ⟨limit, maxsec, pre_eq⟩
      · exact ⟨_, _, rfl⟩

end Frames

/-! ## Both lookups find the plan -/

/-- The lookup of a calling number. -/
def clgLookup (env : Env) (pre : Rating) : Racc :=
  (rtDataQRaccSql env { rtm := .clg, pre := pre.withMode .clg }).2

theorem rtRaccVoipAvA_eq (env : Env) (pre : Rating) :
    rtRaccVoipAvA env pre = some (clgLookup env pre) := by
  have found : rtDataQRacc env .clg pre = some (clgLookup env pre) := by
    simp [rtDataQRacc, clgLookup, rtDataQRaccSql_code]
  rw [rtRaccVoipAvA, found]

theorem clgLookup_pre (env : Env) (pre : Rating) : (clgLookup env pre).pre = pre.withMode .clg := by
  simp only [clgLookup, rtDataQRaccSql]
  split
  · rfl
  · exact (foldl_load_frame _ _).2.2

/-- The plan of a calling number depends on the number and the server. -/
theorem clgLookup_bplan (tables : AccountTables) (env env' : Env) {pre pre' : Rating}
    (clg : pre.clg = pre'.clg) (server : pre.cdrServerId = pre'.cdrServerId) :
    (clgLookup (env.withAccounts tables) pre).bplan =
      (clgLookup (env'.withAccounts tables) pre').bplan := by
  have loaded (rows : List RaccRow) (rtp rtp' : Racc) (mode : rtp.rtm = .clg)
      (mode' : rtp'.rtm = .clg) (same : rtp.bplan = rtp'.bplan) :
      (rows.foldl (fun rtp row => rtp.load (raccColumns (rtp.rtm.nadi rtp.pre) row)) rtp).bplan =
        (rows.foldl (fun rtp row => rtp.load (raccColumns (rtp.rtm.nadi rtp.pre) row))
          rtp').bplan := by
    induction rows generalizing rtp rtp' with
    | nil => exact same
    | cons row rest ih =>
        refine ih _ _ mode mode' ?_
        simp only [Racc.load, mode, mode', RtMode.nadi, same]
  have rows : tables.statement .clg (pre.withMode .clg) =
      tables.statement .clg (pre'.withMode .clg) := by
    simp only [AccountTables.statement, RtMode.nadi, RtMode.cond, Rating.withMode, clg, server,
      if_true]
  simp only [clgLookup, rtDataQRaccSql, Env.withAccounts, rows]
  split
  · rfl
  · exact loaded _ _ _ rfl rfl rfl

/-- The record with which `rt_maxsec` starts the search. -/
theorem rtMaxsecAccount_ok {env : Env} {pre : Rating} {rtp : Racc} {card : Pcard}
    (found : rtMaxsecAccount env pre = .ok (rtp, card)) :
    rtp.pre = pre.withMode .clg ∧
      rtp.bplan = rtChkBplanPeriods (clgLookup env pre).bplan pre.ts := by
  have pre_eq := clgLookup_pre env pre
  simp only [rtMaxsecAccount, rtRaccVoipAvA_eq] at found
  split at found
  · cases found
  split at found
  · cases found
  split at found
  · cases found
  · simp only [Except.ok.injEq, Prod.mk.injEq] at found
    obtain ⟨rfl, rfl⟩ := found
    refine ⟨pre_eq, ?_⟩
    simp only [pcardManager, pre_eq]
    rfl

/-! ## The two choices -/

/-- The rate, tariff and time condition that `rt_maxsec` leaves in the record of a request. -/
def onlineChoice (env : Env) (db : Db) (server : ℕ) (max : CcMax) (sim : ℤ) : Option RateChoice :=
  (rtMaxsec env db (ccMaxsecPre server max) sim).1.choice

/-- The rate, tariff and time condition with which `rt_main` prices a CDR. -/
def offlineChoice (env : Env) (db : Db) (cdr : Cdr) : Option RateChoice :=
  (rtMainRecord env .a cdr.recType (rtCdrToRating env cdr)).bind fun rtp =>
    (rtExecLoad env db rtp).1.pre.choice

section Choices

variable {env : Env} {tables : RateTables} (serves : env.Serves tables)
include serves

theorem onlineChoice_eq {server : ℕ} {max : CcMax} {rtp : Racc} {card : Pcard} (db : Db) (sim : ℤ)
    (found : rtMaxsecAccount env (ccMaxsecPre server max) = .ok (rtp, card)) :
    onlineChoice env db server max sim =
      chooseRate env max.ts max.cld 0 0 (env.ratesOf rtp.bplan.id) := by
  obtain ⟨limit, maxsec, stored⟩ := rtMaxsec_pre env db sim found
  have pre_eq := (rtMaxsecAccount_ok found).1
  have searched := rtRateSearching_choice serves db
    (show rtp.pre.tariffId = 0 by rw [pre_eq]; rfl) (show rtp.pre.tcId = 0 by rw [pre_eq]; rfl)
  rw [pre_eq] at searched
  rw [onlineChoice, stored]
  exact searched

/-- Rounding and the free messages leave the choice of the search. -/
theorem rtExecLoad_choice (db : Db) {rtp : Racc} (no_tariff : rtp.pre.tariffId = 0)
    (no_tc : rtp.pre.tcId = 0) :
    (rtExecLoad env db rtp).1.pre.choice =
      chooseRate env rtp.pre.ts rtp.pre.cld rtp.pre.epoch rtp.pre.dow
        (env.ratesOf (rtChkBplanPeriods rtp.bplan rtp.pre.ts).id) := by
  have searched : (rtRateSearching env db
      { rtp with bplan := rtChkBplanPeriods rtp.bplan rtp.pre.ts }).1.pre.choice =
        chooseRate env rtp.pre.ts rtp.pre.cld rtp.pre.epoch rtp.pre.dow
          (env.ratesOf (rtChkBplanPeriods rtp.bplan rtp.pre.ts).id) :=
    rtRateSearching_choice serves db no_tariff no_tc
  have rounded (rtp : Racc) : rtp.rounded.pre.choice = rtp.pre.choice := by
    simp only [Racc.rounded]
    split <;> split <;> rfl
  rw [← searched]
  simp only [rtExecLoad]
  rcases rtRateSearching env db { rtp with bplan := rtChkBplanPeriods rtp.bplan rtp.pre.ts } with
    ⟨searched, db'⟩
  simp only
  split
  · rfl
  split
  · split
    · simp only [freeBillsecSmsBalance]
      split <;> exact rounded searched
    · exact rounded searched
  · exact rounded searched

theorem offlineChoice_eq (db : Db) {cdr : Cdr} (voip : cdr.recType = .voipA) :
    offlineChoice env db cdr =
      chooseRate env cdr.startEpoch cdr.calledNumber (env.convertTsToEpoch cdr.startTs)
        (env.localtime (env.convertTsToEpoch cdr.startTs)).wday
        (env.ratesOf (rtChkBplanPeriods (clgLookup env (rtCdrToRating env cdr)).bplan
          cdr.startEpoch).id) := by
  have pre_eq := clgLookup_pre env (rtCdrToRating env cdr)
  have record : ∃ rtp, rtMainRecord env .a cdr.recType (rtCdrToRating env cdr) = some rtp ∧
      rtp.pre = (rtCdrToRating env cdr).withMode .clg ∧
        rtp.bplan = (clgLookup env (rtCdrToRating env cdr)).bplan := by
    simp only [rtMainRecord, voip, rtMainRacc, rtRaccVoipAvA_eq, Option.map_some]
    refine ⟨_, rfl, ?_⟩
    split
    · exact ⟨pre_eq, rfl⟩
    · exact ⟨pre_eq, rfl⟩
  obtain ⟨rtp, found, pre_eq, bplan_eq⟩ := record
  have loaded := rtExecLoad_choice serves db
    (show rtp.pre.tariffId = 0 by rw [pre_eq]; rfl) (show rtp.pre.tcId = 0 by rw [pre_eq]; rfl)
  rw [pre_eq, bplan_eq] at loaded
  rw [offlineChoice, found, Option.bind_some]
  exact loaded

end Choices

/-! ## Agreement -/

/-- The agreement claim at one request: when `rt_maxsec` gets as far as the search, `rt_main`
chooses the same rate, tariff and time condition for the CDR of the call. -/
def OnlineOfflineAgree (env offline : Env) (db db' : Db) (server : ℕ) (max : CcMax) (sim : ℤ)
    (term : CcTerm) (id : ℕ) : Prop :=
  ∀ rtp card, rtMaxsecAccount env (ccMaxsecPre server max) = .ok (rtp, card) →
    onlineChoice env db server max sim =
      offlineChoice offline db'
        (ccServerAddCdr env (rtMaxsec env db (ccMaxsecPre server max) sim).1 max term id)

/-- Every rate that the online search reaches has the same time-condition outcome at a time as at
the epoch on day `0`. -/
def OutcomesAgree (env offline : Env) (max : CcMax) (rates : List Rate) (epoch : ℤ) : Prop :=
  ∀ before rt after, rates = before ++ rt :: after →
    (∀ earlier ∈ before, earlier.choice env max.ts max.cld 0 0 = none) →
      rt.matches max.ts max.cld = true →
        tcOutcome env rt.tariffId 0 0 =
          tcOutcome offline rt.tariffId epoch (offline.localtime epoch).wday

theorem Rate.choice_eq_iff {env env' : Env} {ts epoch dow epoch' dow' : ℤ} {cld : String}
    (rt : Rate) : rt.choice env ts cld epoch dow = rt.choice env' ts cld epoch' dow' ↔
      (rt.matches ts cld = true →
        tcOutcome env rt.tariffId epoch dow = tcOutcome env' rt.tariffId epoch' dow') := by
  have stored : Function.Injective fun tcId : ℕ =>
      ({ rateId := rt.id, tariffId := rt.tariffId, tcId } : RateChoice) := by
    intro tcId tcId' same
    exact congrArg RateChoice.tcId same
  rw [Rate.choice, Rate.choice]
  split
  next matched => simp only [matched, true_imp_iff, (Option.map_injective stored).eq_iff]
  next unmatched => exact iff_of_true rfl fun matched => absurd matched unmatched

theorem Rate.choice_eq_some {env : Env} {ts epoch dow : ℤ} {cld : String} {rt : Rate}
    {choice : RateChoice} (chosen : rt.choice env ts cld epoch dow = some choice) :
    choice.rateId = rt.id := by
  rw [Rate.choice] at chosen
  split at chosen
  · obtain ⟨tcId, -, rfl⟩ := Option.map_eq_some_iff.mp chosen
    rfl
  · cases chosen

/-- Two searches of one plan choose alike exactly when the outcomes agree. -/
theorem chooseRate_eq_iff {env offline : Env} {tables : RateTables} (serves : env.Serves tables)
    (max : CcMax) (bplanId : ℕ) (epoch : ℤ) :
    chooseRate env max.ts max.cld 0 0 (env.ratesOf bplanId) =
        chooseRate offline max.ts max.cld epoch (offline.localtime epoch).wday
          (env.ratesOf bplanId) ↔
      OutcomesAgree env offline max (env.ratesOf bplanId) epoch := by
  have determined : ∀ rt ∈ env.ratesOf bplanId, ∀ rt' ∈ env.ratesOf bplanId, ∀ choice,
      rt.choice env max.ts max.cld 0 0 = some choice →
        rt'.choice offline max.ts max.cld epoch (offline.localtime epoch).wday = some choice →
          rt = rt' := by
    intro rt member rt' member' choice chosen chosen'
    refine RateTables.rate_eq (serves.mem_ratesOf.mp member) (serves.mem_ratesOf.mp member') ?_
    rw [← Rate.choice_eq_some chosen, ← Rate.choice_eq_some chosen']
  rw [chooseRate, chooseRate, KeyedRows.findSome?_eq_iff determined, OutcomesAgree]
  simp only [Rate.choice_eq_iff]

/-- `rt_main` prices every call with the choice that authorised it exactly when the requests that
reach the search have time conditions that come out at the epoch like they do at the start of the
call.  What the code reads without having set it may differ between the two. -/
theorem onlineOfflineAgree_iff (tables : AccountTables) {env : Env} {rateTables : RateTables}
    (serves : env.Serves rateTables) (unset : Unset) (db db' : Db) (server : ℕ) (max : CcMax)
    (sim : ℤ) (term : CcTerm) (id : ℕ) :
    OnlineOfflineAgree (env.withAccounts tables) ({ env with unset }.withAccounts tables) db db'
        server max sim term id ↔
      ∀ rtp card,
        rtMaxsecAccount (env.withAccounts tables) (ccMaxsecPre server max) = .ok (rtp, card) →
          OutcomesAgree env { env with unset } max (env.ratesOf rtp.bplan.id)
            (env.convertTsToEpoch (convertEpochToTs env max.ts)) := by
  refine forall_congr' fun rtp => forall_congr' fun card => forall_congr' fun found => ?_
  have online_serves : (env.withAccounts tables).Serves rateTables :=
    ⟨serves.rates, serves.timeConditionId, serves.timeConds⟩
  have offline_serves : ({ env with unset }.withAccounts tables).Serves rateTables :=
    ⟨serves.rates, serves.timeConditionId, serves.timeConds⟩
  obtain ⟨limit, maxsec, stored⟩ := rtMaxsec_pre (env.withAccounts tables) db sim found
  obtain ⟨pre_eq, bplan_eq⟩ := rtMaxsecAccount_ok found
  obtain ⟨server_eq, ts_eq, -⟩ := rtRateSearching_request (env.withAccounts tables) db rtp
  rw [pre_eq] at server_eq ts_eq
  generalize record : (rtMaxsec (env.withAccounts tables) db (ccMaxsecPre server max) sim).1 = pre
  rw [record] at stored
  have same_server : pre.cdrServerId = server := by
    rw [stored]
    exact server_eq
  have same_ts : pre.ts = max.ts := by
    rw [stored]
    exact ts_eq
  have same_plan : (clgLookup ({ env with unset }.withAccounts tables)
      (rtCdrToRating ({ env with unset }.withAccounts tables)
        (ccServerAddCdr (env.withAccounts tables) pre max term id))).bplan =
        (clgLookup (env.withAccounts tables) (ccMaxsecPre server max)).bplan :=
    clgLookup_bplan tables { env with unset } env rfl same_server
  have offline := offlineChoice_eq offline_serves db'
    (show (ccServerAddCdr (env.withAccounts tables) pre max term id).recType = .voipA from rfl)
  rw [same_plan] at offline
  simp only [ccServerAddCdr, same_ts] at offline
  rw [onlineChoice_eq online_serves db sim found]
  simp only [ccServerAddCdr, same_ts]
  rw [offline, bplan_eq]
  exact chooseRate_eq_iff serves max _ _

/-! ## A plan for working days -/

/-- The number 100 may call 20 on working days, and every number that starts with 2 on weekends and
on new year 1970. -/
def weekdayRates : RateTables where
  rate := (SerialTable.empty.insert { billPlanId := 1, tariffId := 1, prefixId := 1 }).insert
    { billPlanId := 1, tariffId := 2, prefixId := 2 }
  prefixes := (SerialTable.empty.insert "20").insert "2"
  tariff := (SerialTable.empty.insert {}).insert {}
  timeCondition := (SerialTable.empty.insert { tariffId := 1, timeConditionId := 1 }).insert
    { tariffId := 2, timeConditionId := 2 }
  timeConditionDeff :=
    (SerialTable.empty.insert { hours := "", daysWeek := "mon-fri", tcDate := "" }).insert
      { hours := "", daysWeek := "sat-sun", tcDate := "1970-01-01" }

/-- The environment of the plan, with calls that start at ten in the morning of a day in 2024. -/
def weekdayEnv (mday wday : ℤ) : Env :=
  { bareEnv with
    localtime := fun tt =>
      if tt = 0 then { year := 1970, mon := 1, mday := 1, hour := 0, min := 0, sec := 0, wday := 4 }
      else { year := 2024, mon := 3, mday, hour := 10, min := 0, sec := 0, wday }
    pcard := fun _ => some [prepaidCard 1]
    calcFunction := fun _ => some [⟨1, 1, 1, 0⟩] }.withRates weekdayRates

/-- A call of number 100 that starts at that time. -/
def weekdayCall (cld : String) : CcMax where
  clg := "100"
  cld := cld
  callUid := "call"
  ts := 1709546400

/-- The end of a call of a minute. -/
def minuteTerm : CcTerm where
  status := .normalClear
  callUid := "call"
  billsec := 60
  duration := 60

/-- On a Monday `rt_maxsec` sells the call to 200 by the rate for weekends, whose date is that of
the epoch, and `rt_main` prices it by the rate for working days. -/
theorem monday_not_agree :
    (rtMaxsec ((weekdayEnv 4 1).withAccounts oneNumber) {} (ccMaxsecPre 1 (weekdayCall "200"))
        0).2.1.isSome = true ∧
      ¬ OnlineOfflineAgree ((weekdayEnv 4 1).withAccounts oneNumber)
        ((weekdayEnv 4 1).withAccounts oneNumber) {} {} 1 (weekdayCall "200") 0 minuteTerm 1 := by
  refine ⟨by decide +kernel, fun agree => ?_⟩
  have choices := agree _ _ rfl
  revert choices
  decide +kernel

/-- On a Saturday both use the rate for weekends for a call to 250. -/
theorem saturday_agree :
    OnlineOfflineAgree ((weekdayEnv 2 6).withAccounts oneNumber)
      ({ weekdayEnv 2 6 with unset := { tcId := 1 } }.withAccounts oneNumber) {} {} 1
      (weekdayCall "250") 0 minuteTerm 1 := by
  refine (onlineOfflineAgree_iff oneNumber (Env.withRates_serves _ weekdayRates) _ _ _
    _ _ _ _ _).mpr
    fun rtp card found before rt after split _ matched => ?_
  have plan : (rtChkBplanPeriods (clgLookup ((weekdayEnv 2 6).withAccounts oneNumber)
      (ccMaxsecPre 1 (weekdayCall "250"))).bplan 1709546400).id = 1 := by decide +kernel
  have alike : ∀ rt ∈ (weekdayEnv 2 6).ratesOf 1, rt.matches 1709546400 "250" = true →
      tcOutcome (weekdayEnv 2 6) rt.tariffId 0 0 =
        tcOutcome { weekdayEnv 2 6 with unset := { tcId := 1 } } rt.tariffId 1709546400 6 := by
    decide +kernel
  rw [(rtMaxsecAccount_ok found).2] at split
  have member : rt ∈ (weekdayEnv 2 6).ratesOf 1 := by
    rw [← plan]
    exact split ▸ List.mem_append_right before List.mem_cons_self
  exact alike rt member matched

end RateEngine
