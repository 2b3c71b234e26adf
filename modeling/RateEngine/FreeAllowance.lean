import RateEngine.TariffOptions

/-!
# The free allowance of the selected tariff

`f_free_billsec_query` writes `free_billsec_limit` when the tariff has an allowance and leaves the
field alone otherwise; `rt_chk_tr_opt` puts what the field holds into the shared cache.  A record
that is used again brings the allowance of an earlier tariff with it.  This file follows the records
and the cache through any sequence of rate searches.
-/

namespace RateEngine

/-! ## The tables -/

/-- The tables of the allowances: `tariff`, and the seconds of `free_billsec`. -/
structure AllowanceTables where
  tariff : SerialTable TariffRow
  freeBillsec : SerialTable ℤ

namespace AllowanceTables

variable (tables : AllowanceTables)

/-- The statement of `f_free_billsec_query`. -/
def rows (tariffId : ℕ) : List ℤ :=
  (tables.tariff.rows.filter fun tr => tr.1 = tariffId).flatMap fun tr =>
    (tables.freeBillsec.rows.filter fun fr => fr.1 = tr.2.freeBillsecId).map Prod.snd

/-- The free seconds of a tariff, `0` when it has none. -/
def allowance (tariffId : ℕ) : ℤ := (tables.rows tariffId).headD 0

end AllowanceTables

/-- An environment in which the statement reads the tables; without a row it may give no result. -/
def Env.ReadsAllowances (env : Env) (tables : AllowanceTables) : Prop :=
  ∀ tariffId, (env.freeBillsec tariffId).getD [] = tables.rows tariffId

/-! ## Runs over records -/

/-- A call of `rt_chk_tr_opt`; of its record it says everything but the free seconds. -/
structure AllowanceCall (tables : AllowanceTables) where
  env : Env
  reads : env.ReadsAllowances tables
  clock : ℕ → ℤ
  pre : Rating

/-- What happens to a record: `rt_rating_init`, or a call of `rt_chk_tr_opt`. -/
inductive AllowanceEvent (tables : AllowanceTables) where
  | init (p : ℕ)
  | check (p : ℕ) (call : AllowanceCall tables)

/-- `free_billsec_limit` of every record, and the shared cache. -/
structure AllowanceState where
  limits : ℕ → ℤ := fun _ => 0
  cache : Option RtCache

section Step

variable {tables : AllowanceTables}

namespace AllowanceCall

variable (call : AllowanceCall tables) (s : AllowanceState) (p : ℕ)

/-- The record of a call, with the free seconds that it brings along. -/
def record : Rating := { call.pre with freeBillsecLimit := s.limits p }

/-- The first half of the call: the tariff is kept or cleared. -/
def timed : Rating × Option RtCache := rtChkTrOptTc call.env call.clock s.cache (call.record s p)

/-- The call. -/
def run : Rating × Option RtCache := rtChkTrOptCached call.env call.clock s.cache (call.record s p)

end AllowanceCall

/-- One event. -/
def allowanceStep (s : AllowanceState) : AllowanceEvent tables → AllowanceState
  | .init p => { s with limits := Function.update s.limits p 0 }
  | .check p call =>
      { limits := Function.update s.limits p (call.run s p).1.freeBillsecLimit
        cache := (call.run s p).2 }

/-- Every cached value is the allowance of its tariff. -/
def OwnAllowances (tables : AllowanceTables) (cache : Option RtCache) : Prop :=
  ∀ own ∈ cache, own.fbs.Every rtCacheHashInt fun tariffId limit => limit =
    tables.allowance tariffId

/-- After a call the record has the allowance of the tariff that it has, and every cached value is
the allowance of its tariff. -/
def AllowanceEvent.Own (s : AllowanceState) : AllowanceEvent tables → Prop
  | .init _ => True
  | .check p call =>
      (call.run s p).1.freeBillsecLimit = tables.allowance (call.run s p).1.tariffId ∧
        OwnAllowances tables (call.run s p).2

/-- A record brings no free seconds to a tariff without an allowance that is not in the cache. -/
def AllowanceEvent.Clean (s : AllowanceState) : AllowanceEvent tables → Prop
  | .init _ => True
  | .check p call =>
      fbsLook call.clock s.cache (call.timed s p).1 = none →
        tables.rows (call.timed s p).1.tariffId = [] → s.limits p = 0

end Step

/-! ## One call -/

/-- The keys of the tables leave a tariff at most one allowance. -/
theorem AllowanceTables.rows_cases (tables : AllowanceTables) (tariffId : ℕ) :
    tables.rows tariffId = [] ∨ ∃ limit, tables.rows tariffId = [limit] := by
  have one_tariff := KeyedRows.length_filter_le_one tables.tariff.keys_nodup tariffId
  rw [rows]
  rcases (tables.tariff.rows.filter fun tr => tr.1 = tariffId).length.lt_or_ge 1 with absent | given
  · left
    rw [List.length_eq_zero_iff.mp (Nat.lt_one_iff.mp absent), List.flatMap_nil]
  · obtain ⟨tr, only⟩ := List.length_eq_one_iff.mp (le_antisymm one_tariff given)
    have one_row := KeyedRows.length_filter_le_one tables.freeBillsec.keys_nodup tr.2.freeBillsecId
    rw [only, List.flatMap_singleton]
    rcases Nat.le_one_iff_eq_zero_or_eq_one.mp one_row with absent | given
    · left
      rw [List.length_eq_zero_iff.mp absent, List.map_nil]
    · obtain ⟨fr, only⟩ := List.length_eq_one_iff.mp given
      exact .inr ⟨fr.2, by rw [only, List.map_singleton]⟩

/-- What the statement leaves in the record. -/
theorem Env.ReadsAllowances.query_eq {tables : AllowanceTables} {env : Env}
    (reads : env.ReadsAllowances tables) (pre : Rating) :
    fFreeBillsecQuery env pre =
      { pre with
        freeBillsecLimit :=
          if tables.rows pre.tariffId = [] then pre.freeBillsecLimit
          else tables.allowance pre.tariffId } := by
  have answered := reads pre.tariffId
  rw [AllowanceTables.allowance]
  rcases tables.rows_cases pre.tariffId with none_given | ⟨limit, given⟩
  · rw [if_pos none_given]
    rw [none_given] at answered
    cases rows : env.freeBillsec pre.tariffId with
    | none => simp [fFreeBillsecQuery, rows]
    | some limits =>
        rw [rows, Option.getD_some] at answered
        simp [fFreeBillsecQuery, rows, answered]
  · rw [given] at answered
    rw [given, if_neg (List.cons_ne_nil _ _)]
    cases rows : env.freeBillsec pre.tariffId with
    | none => simp [rows] at answered
    | some limits =>
        rw [rows, Option.getD_some] at answered
        simp [fFreeBillsecQuery, rows, answered]

section Call

/-- The time conditions leave the free seconds of a record alone. -/
theorem chkTimeConds_freeBillsecLimit (env : Env) (hasTc : ℤ) (pre : Rating) :
    (chkTimeConds env hasTc pre).freeBillsecLimit = pre.freeBillsecLimit := by
  have same : (tcTsCmp env (fTimeCondQueryV2 env pre) pre).2.freeBillsecLimit =
      pre.freeBillsecLimit := by
    rw [tcTsCmp_eq]
  rw [chkTimeConds]
  split
  · generalize tcTsCmp env (fTimeCondQueryV2 env pre) pre = result at same
    obtain ⟨met, pre'⟩ := result
    cases met <;> exact same
  · rfl

/-- The first half leaves the cached free seconds alone. -/
theorem rtChkTrOptTc_fbs (env : Env) (clock : ℕ → ℤ) (cache : Option RtCache) (pre : Rating) :
    (rtChkTrOptTc env clock cache pre).2.map RtCache.fbs = cache.map RtCache.fbs := by
  rw [rtChkTrOptTc]
  cases tcLook clock cache pre with
  | none => cases cache <;> rfl
  | some flag => rfl

variable {tables : AllowanceTables} {s : AllowanceState} {p : ℕ} {call : AllowanceCall tables}

theorem AllowanceCall.timed_freeBillsecLimit :
    (call.timed s p).1.freeBillsecLimit = s.limits p := by
  rw [timed, rtChkTrOptTc_pre, chkTimeConds_freeBillsecLimit, record]

/-- A lookup after the first half finds what it would have found before. -/
theorem AllowanceCall.fbsLook_timed (pre : Rating) :
    fbsLook call.clock (call.timed s p).2 pre = fbsLook call.clock s.cache pre := by
  have same := rtChkTrOptTc_fbs call.env call.clock s.cache (call.record s p)
  have through (cache : Option RtCache) : fbsLook call.clock cache pre =
      (cache.map RtCache.fbs).bind fun fbs => RtCache.fbsGet (call.clock 2) fbs pre.tariffId := by
    cases cache <;> rfl
  rw [through, through, timed, same]

theorem OwnAllowances.timed (own : OwnAllowances tables s.cache) :
    OwnAllowances tables (call.timed s p).2 := by
  intro after after_eq
  have same := rtChkTrOptTc_fbs call.env call.clock s.cache (call.record s p)
  rw [← AllowanceCall.timed, after_eq] at same
  obtain ⟨before, before_eq, same⟩ := Option.map_eq_some_iff.mp same.symm
  exact same ▸ own before before_eq

/-- Putting a value keeps the cached values right exactly when it is the allowance. -/
theorem OwnAllowances.put {cache : Option RtCache} (own : OwnAllowances tables cache) {now : ℤ}
    {tariffId : ℕ} {limit : ℤ} (right : limit = tables.allowance tariffId) :
    OwnAllowances tables (cache.map fun cache =>
      { cache with fbs := RtCache.fbsPut now cache.fbs tariffId limit }) := by
  intro after after_eq
  obtain ⟨before, before_eq, rfl⟩ := Option.map_eq_some_iff.mp after_eq
  exact (own before before_eq).put right

/-- With right values in the cache a call goes wrong where a tariff without an allowance gets what
its record brings along. -/
theorem OwnAllowances.own_iff_clean (own : OwnAllowances tables s.cache)
    (event : AllowanceEvent tables) : event.Own s ↔ event.Clean s := by
  cases event with
  | init p => exact Iff.rfl
  | check p call =>
      have timed : OwnAllowances tables (call.timed s p).2 := own.timed
      rw [AllowanceEvent.Own, AllowanceEvent.Clean, AllowanceCall.run, rtChkTrOptCached_eq,
        ← AllowanceCall.timed, ← AllowanceCall.fbsLook_timed, rtChkTrOptFbs]
      cases looked : fbsLook call.clock (call.timed s p).2 (call.timed s p).1 with
      | some limit =>
          obtain ⟨cache, cache_eq, found⟩ := Option.bind_eq_some_iff.mp looked
          exact iff_of_true ⟨(timed cache cache_eq).get found, timed⟩ (by simp)
      | none =>
          simp only [call.reads.query_eq, AllowanceCall.timed_freeBillsecLimit, forall_const]
          by_cases none_given : tables.rows (call.timed s p).1.tariffId = []
          · have zero : tables.allowance (call.timed s p).1.tariffId = 0 := by
              rw [AllowanceTables.allowance, none_given]
              rfl
            simp only [none_given, if_true, forall_const, zero]
            refine ⟨And.left, fun clean => ⟨clean, timed.put ?_⟩⟩
            rw [clean, zero]
          · simp only [none_given, if_false, false_imp_iff, iff_true, true_and]
            exact timed.put rfl

end Call

/-- In a run of searches over new records, with the cache on or off, every call uses and caches the
allowance of its tariff exactly when no record brings free seconds to a tariff that has none and is
not in the cache. -/
theorem eachStep_ownAllowance_iff (tables : AllowanceTables) (cached : Bool)
    (events : List (AllowanceEvent tables)) :
    EachStep allowanceStep AllowanceEvent.Own { cache := newCache cached } events ↔
      EachStep allowanceStep AllowanceEvent.Clean { cache := newCache cached } events := by
  have start : OwnAllowances tables (newCache cached) := forall_mem_newCache .empty cached
  refine EachStep.congr (fun s => OwnAllowances tables s.cache)
    (fun {_} {event} own => own.own_iff_clean event) (fun {_} {event} own met => ?_) start
  cases event with
  | init p => exact own
  | check p call => exact met.2

/-- Tariff 1 has 300 free seconds and tariff 2 has none. -/
def oneAllowance : AllowanceTables where
  tariff := (SerialTable.empty.insert ⟨0, 0, 1⟩).insert ⟨0, 0, 0⟩
  freeBillsec := SerialTable.empty.insert 300

/-- A call for a tariff without time conditions. -/
def tariffCheck (tariffId : ℕ) : AllowanceCall oneAllowance where
  env := { bareEnv with freeBillsec := fun tariffId => some (oneAllowance.rows tariffId) }
  reads _ := rfl
  clock := fun _ => 0
  pre := { tariffId }

/-- The record is authorised with the first tariff and rated with the second one. -/
theorem oneAllowance_not_own :
    ¬ EachStep allowanceStep AllowanceEvent.Own { cache := newCache true }
      [.check 0 (tariffCheck 1), .check 0 (tariffCheck 2)] := by
  intro each
  have own := (each [.check 0 (tariffCheck 1)] (.check 0 (tariffCheck 2)) [] rfl).1
  exact absurd own (by decide)

/-! ## Searches -/

section Search

variable (env : Env)

/-- `rt_data_q_prefix_sql` with the cache: the record and the cache after the search.  Each rate
comes with the readings of the clock in its call. -/
def rtDataQPrefixCached :
    List (Rate × (ℕ → ℤ)) → Rating × Option RtCache → Rating × Option RtCache
  | [], found => found
  | (rt, clock) :: rest, (pre, cache) =>
      if rt.tariffId = 0 then (pre, cache)
      else if ¬ rtDataQChkRatePeriods rt.startPeriod rt.endPeriod pre.ts then
        rtDataQPrefixCached rest (pre, cache)
      else if rt.prefixStr = "&" ∨ rt.prefixStr.toList.isPrefixOf pre.cld.toList then
        let checked := rtChkTrOptCached env clock cache
          { pre with
            tariffId := rt.tariffId
            rateId := rt.id
            prefixId := rt.prefixId
            freeBillsecId := rt.freeBillsecId }
        if checked.1.tariffId ≠ 0 then checked else rtDataQPrefixCached rest checked
      else rtDataQPrefixCached rest (pre, cache)

theorem rtDataQTariff_pre (rtp : Racc) : (rtDataQTariff env rtp).pre = rtp.pre := by
  rw [rtDataQTariff]
  split
  · rfl
  · split <;> rfl

/-- Without a cache this is the search of the rate lookup. -/
theorem rtDataQPrefixCached_none (clock : ℕ → ℤ) (rates : List Rate) (rtp : Racc) :
    ((rtDataQPrefix env rates rtp).pre, none) =
      rtDataQPrefixCached env (rates.map fun rt => (rt, clock)) (rtp.pre, none) := by
  induction rates generalizing rtp with
  | nil => rfl
  | cons rt rest induction =>
      rw [rtDataQPrefix, List.map_cons, rtDataQPrefixCached]
      split
      · rfl
      split
      · exact induction rtp
      split
      · rw [rtChkTrOptCached_none]
        dsimp only
        split
        · rw [rtDataQTariff_pre]
        · exact induction _
      · exact induction rtp

variable {env} {tables : AllowanceTables}

/-- A search is a run of calls over its record. -/
theorem rtDataQPrefixCached_run (reads : env.ReadsAllowances tables) (p : ℕ)
    (rates : List (Rate × (ℕ → ℤ))) (s : AllowanceState) (pre : Rating)
    (brought : pre.freeBillsecLimit = s.limits p) :
    ∃ calls : List (AllowanceCall tables),
      (calls.map (AllowanceEvent.check p)).foldl allowanceStep s =
        { limits := Function.update s.limits p
            (rtDataQPrefixCached env rates (pre, s.cache)).1.freeBillsecLimit
          cache := (rtDataQPrefixCached env rates (pre, s.cache)).2 } := by
  induction rates generalizing s pre with
  | nil => exact ⟨[], by rw [rtDataQPrefixCached, brought, Function.update_eq_self]; rfl⟩
  | cons first rest induction =>
      obtain ⟨rt, clock⟩ := first
      rw [rtDataQPrefixCached]
      split
      · exact ⟨[], by rw [brought, Function.update_eq_self]; rfl⟩
      split
      · exact induction s pre brought
      split
      · let call : AllowanceCall tables :=
          { env
            reads
            clock
            pre :=
              { pre with
                tariffId := rt.tariffId
                rateId := rt.id
                prefixId := rt.prefixId
                freeBillsecId := rt.freeBillsecId } }
        have run_eq : call.run s p = rtChkTrOptCached env clock s.cache call.pre := by
          rw [AllowanceCall.run, AllowanceCall.record, ← brought]
        dsimp only
        change ∃ calls : List (AllowanceCall tables), _ = _
        rw [← run_eq]
        split
        · exact ⟨[call], rfl⟩
        · obtain ⟨calls, ran⟩ := induction (allowanceStep s (.check p call)) (call.run s p).1
            (by simp only [allowanceStep, Function.update_self])
          refine ⟨call :: calls, ?_⟩
          rw [List.map_cons, List.foldl_cons, ran]
          simp only [allowanceStep, Function.update_idem]
      · exact induction s pre brought

end Search

end RateEngine
