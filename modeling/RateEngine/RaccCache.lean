import RateEngine.AccountFallback
import RateEngine.Lib.BucketCache
import RateEngine.Lib.KeyedRows

/-!
# The account cache

`rt_data_q_racc_sql` looks into a process-wide cache before it asks the database, and
`rt_cache_preload_raccs` fills the cache for the calling numbers of a batch.  The key of an entry is
the mode and the value that the mode looks up; the statement also asks for the CDR server and, in
the trunk group modes, for the nature-of-address indicators.  This file compares lookups with and
without the cache over whole runs on unchanged tables.
-/

namespace RateEngine

/-! ## Cached records -/

/-- `rt_cache_racc_data_t`. -/
structure RaccData where
  baccId : ℕ := 0
  bplanId : ℕ := 0
  bplanStartPeriod : ℕ := 0
  bplanEndPeriod : ℕ := 0
  billingDay : ℕ := 0
  roundModeId : ℕ := 0
  dayOfPayment : ℕ := 0
deriving DecidableEq, Repr

/-- The account fields of a record. -/
def Racc.account (rtp : Racc) : RaccData where
  baccId := rtp.bacc.id
  bplanId := rtp.bplan.id
  bplanStartPeriod := rtp.bplan.bplanStartPeriod
  bplanEndPeriod := rtp.bplan.bplanEndPeriod
  billingDay := rtp.bacc.billingDay
  roundModeId := rtp.bacc.roundModeId
  dayOfPayment := rtp.bacc.dayOfPayment

/-- Copy a cached record into the account fields; `day_of_payment` is a short there. -/
def Racc.withAccount (rtp : Racc) (data : RaccData) : Racc :=
  { rtp with
    bacc := { rtp.bacc with
      id := data.baccId
      billingDay := data.billingDay
      roundModeId := data.roundModeId
      dayOfPayment := asUnsigned 16 data.dayOfPayment }
    bplan := { rtp.bplan with
      id := data.bplanId
      bplanStartPeriod := data.bplanStartPeriod
      bplanEndPeriod := data.bplanEndPeriod } }

/-! ## The cache -/

/-- The cache key: `"%d:%s"` of the mode and the value that it looks up. -/
def raccKey (mode : RtMode) (cond : String) : String := toString mode.id ++ ":" ++ cond

/-- `rt_cache_hash_str`; a `char` is signed. -/
def rtCacheHashStr (key : String) : ℕ :=
  ((key.toList.flatMap String.utf8EncodeChar).foldl
    (fun (h : ℤ) (c : UInt8) => (h * 33 + c.toInt8.toInt) % 2 ^ 32) 5381).toNat % 256

/-- `RT_CACHE_TTL`. -/
def rtCacheTtl : ℤ := 60

/-- The chains of `raccs`. -/
abbrev RaccCache := BucketCache ℕ String RaccData

section Cache

variable {V : Type*}

/-- `rt_cache_racc_get`. -/
def rtCacheRaccGet (cache : BucketCache ℕ String V) (now : ℤ) (key : String) : Option V :=
  cache.get rtCacheHashStr rtCacheTtl now key

/-- `rt_cache_racc_put` at the time `stored`. -/
def rtCacheRaccPut (cache : BucketCache ℕ String V) (stored : ℤ) (key : String) (value : V) :
    BucketCache ℕ String V :=
  cache.put rtCacheHashStr ⟨key, stored, value⟩

/-- `rt_data_q_racc_sql` with the cache on: the result and the cache after it. -/
def rtDataQRaccSqlCached (env : Env) (cache : RaccCache) (now stored : ℤ) (rtp : Racc) :
    (ℤ × Racc) × RaccCache :=
  let key := raccKey rtp.rtm (rtp.rtm.cond rtp.pre)
  match rtCacheRaccGet cache now key with
  | some cached => ((0, rtp.withAccount cached), cache)
  | none =>
      match rtDataQRaccSql env rtp with
      | (ret, rtp) =>
          ((ret, rtp),
            if 0 < rtp.bacc.id then rtCacheRaccPut cache stored key rtp.account else cache)

/-! ## Preloading -/

/-- `db_sql_escape`. -/
def dbSqlEscape (src : String) : String :=
  String.ofList (src.toList.flatMap fun c => if c = '\'' ∨ c = '\\' then [c, c] else [c])

/-- One round of the loop that builds the list of numbers: skip an empty number, a number that is
cached and a number whose quoted text the list has already. -/
def preloadRound (cached : String → Bool) : String × List String → String → String × List String
  | (inClause, chosen), number =>
      let needle := "'" ++ dbSqlEscape number ++ "'"
      if number = "" ∨ cached number ∨ needle.toList <:+: inClause.toList then (inClause, chosen)
      else (if chosen = [] then needle else inClause ++ "," ++ needle, chosen ++ [number])

/-- The numbers that the preload asks for. -/
def preloadNumbers (cache : BucketCache ℕ String V) (now : ℤ) (numbers : List String) :
    List String :=
  (numbers.foldl (preloadRound fun number =>
    (rtCacheRaccGet cache now (raccKey .clg number)).isSome) ("", [])).2

/-- The rows of the preload statement with their calling numbers. -/
def AccountTables.preloadRows (tables : AccountTables) (numbers : List String) (server : ℕ) :
    List (String × RaccRow) :=
  ((tables.keys .callingNumber).select fun row => row.key ∈ numbers).flatMap fun clg =>
    (tables.join .callingNumber clg.2.key server DeffRow.bplanId fun _ => true).map fun row =>
      (clg.2.key, row)

/-- The record that the preload stores for a row. -/
def RaccRow.preloaded (row : RaccRow) : RaccData where
  baccId := row.baccId
  bplanId := row.bplanId
  bplanStartPeriod := row.startPeriod
  bplanEndPeriod := row.endPeriod
  billingDay := asUnsigned 16 row.billingDay
  roundModeId := row.roundModeId
  dayOfPayment := row.dayOfPayment

/-- Put a value for every row of the preload statement; `value` says what to store for a row. -/
def preloadWith (tables : AccountTables) (value : String → RaccRow → V)
    (cache : BucketCache ℕ String V) (numbers : List String) (server : ℕ) (now stored : ℤ) :
    BucketCache ℕ String V :=
  (tables.preloadRows (preloadNumbers cache now numbers) server).foldl
    (fun cache row => rtCacheRaccPut cache stored (raccKey .clg row.1) (value row.1 row.2)) cache

/-- `rt_cache_preload_raccs`. -/
def rtCachePreloadRaccs (tables : AccountTables) (cache : RaccCache) (numbers : List String)
    (server : ℕ) (now stored : ℤ) : RaccCache :=
  preloadWith tables (fun _ row => row.preloaded) cache numbers server now stored

end Cache

/-! ## Runs -/

/-- A nature-of-address indicator is an `int`. -/
def IsInt32 (n : ℤ) : Prop := -2 ^ 31 ≤ n ∧ n < 2 ^ 31

theorem isInt32_zero : IsInt32 0 := by
  constructor <;> decide

/-- A request for an account: the mode and the call. -/
structure RaccRequest where
  mode : RtMode
  pre : Rating
  clgNadi_int : IsInt32 pre.clgNadi
  cldNadi_int : IsInt32 pre.cldNadi

namespace RaccRequest

/-- The indicators that choose the statement are `int`s in every mode. -/
theorem nadi_int (request : RaccRequest) :
    IsInt32 (request.mode.nadi request.pre).1 ∧ IsInt32 (request.mode.nadi request.pre).2 := by
  have constants : IsInt32 (-1) ∧ IsInt32 (-2) := by
    simp [IsInt32]
  cases request.mode with
  | srctg => exact ⟨request.clgNadi_int, request.cldNadi_int⟩
  | dsttg => exact ⟨request.clgNadi_int, request.cldNadi_int⟩
  | sms => exact ⟨constants.2, constants.2⟩
  | _ => exact ⟨constants.1, constants.1⟩

/-- The record that `rt_data_q_racc` hands to `rt_data_q_racc_sql`. -/
def record (request : RaccRequest) : Racc :=
  { rtm := request.mode, pre := request.pre.withMode request.mode }

/-- The cache key of the request. -/
def key (request : RaccRequest) : String := raccKey request.mode (request.mode.cond request.pre)

/-- The request that a preloaded entry answers. -/
def preload (number : String) (server : ℕ) : RaccRequest where
  mode := .clg
  pre := { clg := number, cdrServerId := server }
  clgNadi_int := isInt32_zero
  cldNadi_int := isInt32_zero

end RaccRequest

/-- A use of the cache: a lookup or a preload, with the times at which it reads and stores. -/
inductive RaccEvent where
  | lookup (request : RaccRequest) (now stored : ℤ)
  | preload (numbers : List String) (server : ℕ) (now stored : ℤ)

/-- The cache after an event. -/
def raccCacheStep (tables : AccountTables) (env : Env) (cache : RaccCache) : RaccEvent → RaccCache
  | .lookup request now stored =>
      (rtDataQRaccSqlCached (env.withAccounts tables) cache now stored request.record).2
  | .preload numbers server now stored =>
      rtCachePreloadRaccs tables cache numbers server now stored

/-- Every lookup of the run gives what it gives without the cache. -/
def CacheTransparent (tables : AccountTables) (env : Env) : RaccCache → List RaccEvent → Prop
  | _, [] => True
  | cache, event :: events =>
      (match event with
        | .lookup request now stored =>
            (rtDataQRaccSqlCached (env.withAccounts tables) cache now stored request.record).1 =
              rtDataQRaccSql (env.withAccounts tables) request.record
        | .preload .. => True) ∧
        CacheTransparent tables env (raccCacheStep tables env cache event) events

/-! ## The requests behind the entries -/

/-- The account fields that the last row of the request's statement carries. -/
def AccountTables.answer (tables : AccountTables) (request : RaccRequest) : Option RaccData :=
  ((tables.statement request.mode request.pre).getD []).getLast?.map fun row =>
    (request.record.load (raccColumns (request.mode.nadi request.pre) row)).account

/-- The entries of a cache, each with the request that filled it in place of its record. -/
abbrev RaccMemo := BucketCache ℕ String RaccRequest

/-- The requests behind the entries after an event. -/
def raccMemoStep (tables : AccountTables) (memo : RaccMemo) : RaccEvent → RaccMemo
  | .lookup request now stored =>
      match rtCacheRaccGet memo now request.key with
      | some _ => memo
      | none =>
          if (tables.answer request).isSome then rtCacheRaccPut memo stored request.key request
          else memo
  | .preload numbers server now stored =>
      preloadWith tables (fun number _ => .preload number server) memo numbers server now stored

/-- Two requests of one key ask the same: for the same CDR server and the same indicators.  The pair
`-1` leaves the indicators out of the statement; with it on one side the answers must agree. -/
def RaccRequest.AsksAlike (tables : AccountTables) (request filler : RaccRequest) : Prop :=
  request.pre.cdrServerId = filler.pre.cdrServerId ∧
    (request.mode.nadi request.pre = filler.mode.nadi filler.pre ∨
      (request.mode.nadi request.pre = (-1, -1) ∨ filler.mode.nadi filler.pre = (-1, -1)) ∧
        tables.answer request = tables.answer filler)

/-- Every lookup of the run that finds a fresh entry asks like the request that filled the entry. -/
def HitsAskAlike (tables : AccountTables) : RaccMemo → List RaccEvent → Prop
  | _, [] => True
  | memo, event :: events =>
      (match event with
        | .lookup request now _ =>
            ∀ filler ∈ rtCacheRaccGet memo now request.key, request.AsksAlike tables filler
        | .preload .. => True) ∧
        HitsAskAlike tables (raccMemoStep tables memo event) events

/-! ## Answers -/

section Answer

variable {tables : AccountTables} {env : Env}

theorem asUnsigned_idem (bits : ℕ) (n : ℤ) :
    asUnsigned bits (asUnsigned bits n : ℕ) = asUnsigned bits n := by
  have nonneg : 0 ≤ n % 2 ^ bits := Int.emod_nonneg _ (by positivity)
  simp only [asUnsigned, Int.toNat_of_nonneg nonneg, Int.emod_emod]

/-- Loading is copying the loaded fields, whatever the record held before. -/
theorem load_eq_withAccount (rtp other : Racc) (columns : List ℕ) :
    rtp.load columns = rtp.withAccount (other.load columns).account := by
  simp only [Racc.load, Racc.withAccount, Racc.account, asUnsigned_idem]

/-- The last row wins. -/
theorem foldl_load_eq (rows : List RaccRow) (rtp : Racc) :
    rows.foldl (fun rtp row => rtp.load (raccColumns (rtp.rtm.nadi rtp.pre) row)) rtp =
      match rows.getLast? with
      | none => rtp
      | some row => rtp.load (raccColumns (rtp.rtm.nadi rtp.pre) row) := by
  induction rows generalizing rtp with
  | nil => rfl
  | cons row rest ih =>
      rw [List.foldl_cons, ih]
      cases rest with
      | nil => rfl
      | cons next rest => simp [List.getLast?_eq_some_getLast, Racc.load]

theorem withMode_cond (mode : RtMode) (pre : Rating) :
    mode.cond (pre.withMode mode) = mode.cond pre := by
  cases mode <;> rfl

theorem withMode_nadi (mode : RtMode) (pre : Rating) :
    mode.nadi (pre.withMode mode) = mode.nadi pre := by
  cases mode <;> rfl

theorem statement_withMode (mode : RtMode) (pre : Rating) :
    tables.statement mode (pre.withMode mode) = tables.statement mode pre := by
  simp only [AccountTables.statement, withMode_cond, withMode_nadi]
  rfl

/-- A lookup without the cache loads the answer of the statement. -/
theorem rtDataQRaccSql_record (request : RaccRequest) :
    rtDataQRaccSql (env.withAccounts tables) request.record =
      (0, match tables.answer request with
        | none => request.record
        | some data => request.record.withAccount data) := by
  have statement_eq : (env.withAccounts tables).racc request.record.rtm request.record.pre =
      tables.statement request.mode request.pre := statement_withMode _ _
  have nadi_eq : request.record.rtm.nadi request.record.pre = request.mode.nadi request.pre :=
    withMode_nadi _ _
  rw [rtDataQRaccSql, statement_eq, AccountTables.answer]
  cases tables.statement request.mode request.pre with
  | none => rfl
  | some rows =>
    simp only [foldl_load_eq, Option.getD_some, nadi_eq]
    cases rows.getLast? with
    | none => rfl
    | some row => exact congrArg (Prod.mk 0) (load_eq_withAccount _ _ _)

/-- An answer is the account of a row of the statement. -/
theorem exists_row_of_answer {request : RaccRequest} {data : RaccData}
    (answers : tables.answer request = some data) :
    ∃ row ∈ (tables.statement request.mode request.pre).getD [],
      (request.record.load (raccColumns (request.mode.nadi request.pre) row)).account = data := by
  obtain ⟨row, last, data_eq⟩ := Option.map_eq_some_iff.mp answers
  exact ⟨row, List.mem_of_getLast? last, data_eq⟩

/-- A joined row carries an account of the server and the indicators of a `_deff` row that meets the
condition. -/
theorem of_mem_join {table : AcctTable} {key : String} {server : ℕ} {plan : DeffRow → ℕ}
    {meets : DeffRow → Bool} {row : RaccRow}
    (member : row ∈ tables.join table key server plan meets) :
    (∃ bacc ∈ tables.billingAccount.rows, bacc.1 = row.baccId ∧ bacc.2.cdrServerId = server) ∧
      ∃ df, meets df = true ∧ df.clgNadi = row.clgNadi ∧ df.cldNadi = row.cldNadi := by
  simp only [AccountTables.join, List.mem_flatMap, List.mem_map, List.mem_filter,
    Bool.and_eq_true, decide_eq_true_eq] at member
  obtain ⟨clg, -, df, ⟨-, -, met⟩, bp, -, bacc, ⟨bacc_mem, bacc_id, bacc_server⟩, rfl⟩ := member
  exact ⟨⟨bacc, bacc_mem, bacc_id, bacc_server⟩, df, met, rfl, rfl⟩

theorem load_account_baccId (rtp : Racc) (nadi : ℤ × ℤ) (row : RaccRow) :
    (rtp.load (raccColumns nadi row)).account.baccId = row.baccId := by
  simp only [raccColumns]
  split <;> rfl

/-- The account of an answer is an account of the request's server. -/
theorem server_of_answer {request : RaccRequest} {data : RaccData}
    (answers : tables.answer request = some data) :
    0 < data.baccId ∧ ∃ bacc ∈ tables.billingAccount.rows,
      bacc.1 = data.baccId ∧ bacc.2.cdrServerId = request.pre.cdrServerId := by
  obtain ⟨row, row_mem, rfl⟩ := exists_row_of_answer answers
  rw [load_account_baccId]
  rcases statement_eq_join tables request.pre request.mode with empty | ⟨plan, meets, rows_eq⟩
  · rw [empty] at row_mem
    exact absurd row_mem List.not_mem_nil
  · rw [rows_eq] at row_mem
    exact ⟨(mem_join row_mem).2, (of_mem_join row_mem).1⟩

/-- Requests with the same answer are for the same server. -/
theorem server_eq_of_answer {request filler : RaccRequest} {data : RaccData}
    (own : tables.answer request = some data) (filled : tables.answer filler = some data) :
    request.pre.cdrServerId = filler.pre.cdrServerId := by
  obtain ⟨-, bacc, bacc_mem, bacc_id, own_server⟩ := server_of_answer own
  obtain ⟨-, bacc', bacc_mem', bacc_id', filled_server⟩ := server_of_answer filled
  have same : bacc = bacc' :=
    List.inj_on_of_nodup_map tables.billingAccount.keys_nodup bacc_mem bacc_mem'
      (bacc_id.trans bacc_id'.symm)
  rw [← own_server, ← filled_server, same]

theorem asUnsigned_injective {a b : ℤ} (a_int : IsInt32 a) (b_int : IsInt32 b)
    (same : asUnsigned 32 a = asUnsigned 32 b) : a = b := by
  obtain ⟨a_low, a_high⟩ := a_int
  obtain ⟨b_low, b_high⟩ := b_int
  simp only [asUnsigned] at same
  omega

/-- In a trunk group mode the statement with indicators stores them in the answer. -/
theorem nadi_of_answer {request : RaccRequest} {data : RaccData}
    (answers : tables.answer request = some data)
    (bare : request.mode.nadi request.pre ≠ (-1, -1))
    (message : request.mode.nadi request.pre ≠ (-2, -2)) :
    data.bplanStartPeriod = asUnsigned 32 (request.mode.nadi request.pre).1 ∧
      data.bplanEndPeriod = asUnsigned 32 (request.mode.nadi request.pre).2 := by
  obtain ⟨row, row_mem, rfl⟩ := exists_row_of_answer answers
  simp only [AccountTables.statement, bare, message, if_false, Option.getD_some] at row_mem
  obtain ⟨-, df, met, clg_eq, cld_eq⟩ := of_mem_join row_mem
  simp only [Bool.and_eq_true, decide_eq_true_eq] at met
  rw [← met.1, ← met.2, clg_eq, cld_eq]
  simp only [raccColumns, bare, message, or_self, if_false]
  exact ⟨rfl, rfl⟩

/-- A pair of `-2` is the message mode, or a statement that does not run. -/
theorem mode_of_answer {request : RaccRequest} {data : RaccData}
    (answers : tables.answer request = some data)
    (message : request.mode.nadi request.pre = (-2, -2)) : request.mode = .sms := by
  obtain ⟨row, row_mem, -⟩ := exists_row_of_answer answers
  have other : ((-2, -2) : ℤ × ℤ) ≠ (-1, -1) := by decide
  simp only [AccountTables.statement, message, other, if_true, if_false] at row_mem
  revert row_mem message
  cases request.mode <;> simp [RtMode.table, RtMode.nadi]

end Answer

/-! ## Keys -/

/-- The digit of a mode. -/
theorem raccKey_toList (mode : RtMode) (cond : String) :
    (raccKey mode cond).toList = Nat.digitChar mode.id :: ':' :: cond.toList := by
  cases mode <;> simp [raccKey, RtMode.id] <;> rfl

/-- A key determines the mode and the value that it looks up. -/
theorem raccKey_injective {mode mode' : RtMode} {cond cond' : String}
    (same : raccKey mode cond = raccKey mode' cond') : mode = mode' ∧ cond = cond' := by
  have lists := congrArg String.toList same
  rw [raccKey_toList, raccKey_toList, List.cons.injEq, List.cons.injEq] at lists
  obtain ⟨digit, -, tail⟩ := lists
  refine ⟨?_, String.toList_injective tail⟩
  revert digit
  cases mode <;> cases mode' <;> simp [RtMode.id, Nat.digitChar]

section Transparency

variable {tables : AccountTables} {env : Env}

/-- Requests of one key that ask the same have the same answer. -/
theorem answer_congr {request filler : RaccRequest} (mode : request.mode = filler.mode)
    (cond : request.mode.cond request.pre = filler.mode.cond filler.pre)
    (nadi : request.mode.nadi request.pre = filler.mode.nadi filler.pre)
    (server : request.pre.cdrServerId = filler.pre.cdrServerId) :
    tables.answer request = tables.answer filler := by
  have statement_eq : tables.statement request.mode request.pre =
      tables.statement filler.mode filler.pre := by
    have table : request.mode.table = filler.mode.table := congrArg RtMode.table mode
    simp only [AccountTables.statement, cond, nadi, server, table]
  rw [AccountTables.answer, AccountTables.answer, statement_eq, nadi]
  rfl

/-- A filled entry answers a request exactly when the request asks like the one that filled it. -/
theorem asksAlike_iff {request filler : RaccRequest} (same : request.key = filler.key)
    {data : RaccData} (filled : tables.answer filler = some data) :
    request.AsksAlike tables filler ↔ tables.answer request = some data := by
  obtain ⟨mode, cond⟩ := raccKey_injective same
  constructor
  · rintro ⟨server, nadi | ⟨-, answers⟩⟩
    · rw [answer_congr mode cond nadi server, filled]
    · rw [answers, filled]
  · intro own
    refine ⟨server_eq_of_answer own filled, ?_⟩
    by_cases nadi : request.mode.nadi request.pre = filler.mode.nadi filler.pre
    · exact Or.inl nadi
    refine Or.inr ⟨?_, own.trans filled.symm⟩
    by_contra neither
    obtain ⟨own_bare, filled_bare⟩ := not_or.mp neither
    have message_mode (sms : request.mode = .sms) : False := by
      have sms' : filler.mode = .sms := mode ▸ sms
      exact nadi (by rw [sms, sms']; rfl)
    have own_pair : request.mode.nadi request.pre ≠ (-2, -2) :=
      fun message => message_mode (mode_of_answer own message)
    have filled_pair : filler.mode.nadi filler.pre ≠ (-2, -2) :=
      fun message => message_mode (mode ▸ mode_of_answer filled message)
    obtain ⟨own_clg, own_cld⟩ := nadi_of_answer own own_bare own_pair
    obtain ⟨filled_clg, filled_cld⟩ := nadi_of_answer filled filled_bare filled_pair
    refine nadi (Prod.ext ?_ ?_)
    · exact asUnsigned_injective request.nadi_int.1 filler.nadi_int.1
        (own_clg.symm.trans filled_clg)
    · exact asUnsigned_injective request.nadi_int.2 filler.nadi_int.2
        (own_cld.symm.trans filled_cld)

/-- The entry of a cache holds the answer to the request in the memo's entry. -/
def EntryMirrors (tables : AccountTables) :
    Option (CacheEntry String RaccRequest) → Option (CacheEntry String RaccData) → Prop
  | none, none => True
  | some filled, some cached =>
      filled.stamp = cached.stamp ∧ filled.key = filled.value.key ∧
        ∃ data, tables.answer filled.value = some data ∧
          ∀ rtp : Racc, rtp.withAccount cached.value = rtp.withAccount data
  | _, _ => False

/-- The memo names the requests behind the entries of the cache. -/
def Mirrors (tables : AccountTables) (memo : RaccMemo) (cache : RaccCache) : Prop :=
  ∀ key, EntryMirrors tables (memo.find rtCacheHashStr key) (cache.find rtCacheHashStr key)

theorem mirrors_empty : Mirrors tables .empty .empty := fun _ => trivial

/-- Both sides hit or miss together, and a hit copies the answer to the filling request. -/
theorem Mirrors.get {memo : RaccMemo} {cache : RaccCache} (mirrors : Mirrors tables memo cache)
    (now : ℤ) (key : String) :
    (rtCacheRaccGet memo now key = none ∧ rtCacheRaccGet cache now key = none) ∨
      ∃ filler cached data, rtCacheRaccGet memo now key = some filler ∧
        rtCacheRaccGet cache now key = some cached ∧ filler.key = key ∧
        tables.answer filler = some data ∧
        ∀ rtp : Racc, rtp.withAccount cached = rtp.withAccount data := by
  have mirror := mirrors key
  simp only [rtCacheRaccGet, BucketCache.get]
  cases filled_eq : memo.find rtCacheHashStr key with
  | none =>
    cases cached_eq : cache.find rtCacheHashStr key with
    | none => exact Or.inl ⟨rfl, rfl⟩
    | some cached =>
      rw [filled_eq, cached_eq] at mirror
      exact mirror.elim
  | some filled =>
    cases cached_eq : cache.find rtCacheHashStr key with
    | none =>
      rw [filled_eq, cached_eq] at mirror
      exact mirror.elim
    | some cached =>
      rw [filled_eq, cached_eq] at mirror
      obtain ⟨stamp, own_key, data, answers, copies⟩ := mirror
      simp only [stamp]
      by_cases fresh : now - cached.stamp ≤ rtCacheTtl
      · have key_eq : filled.value.key = key :=
          own_key.symm.trans (BucketCache.key_of_find filled_eq)
        exact Or.inr ⟨filled.value, cached.value, data, if_pos fresh, if_pos fresh, key_eq,
          answers, copies⟩
      · exact Or.inl ⟨if_neg fresh, if_neg fresh⟩

/-- Storing an answer keeps the mirror. -/
theorem Mirrors.put {memo : RaccMemo} {cache : RaccCache} (mirrors : Mirrors tables memo cache)
    {request : RaccRequest} {cached data : RaccData} (answers : tables.answer request = some data)
    (copies : ∀ rtp : Racc, rtp.withAccount cached = rtp.withAccount data) (stored : ℤ) :
    Mirrors tables (rtCacheRaccPut memo stored request.key request)
      (rtCacheRaccPut cache stored request.key cached) := by
  intro key
  simp only [rtCacheRaccPut, BucketCache.find_put]
  by_cases own : key = request.key
  · rw [if_pos own, if_pos own]
    exact ⟨rfl, rfl, data, answers, copies⟩
  · rw [if_neg own, if_neg own]
    exact mirrors key

/-- A lookup keeps the mirror. -/
theorem Mirrors.lookup {memo : RaccMemo} {cache : RaccCache} (mirrors : Mirrors tables memo cache)
    (request : RaccRequest) (now stored : ℤ) :
    Mirrors tables (raccMemoStep tables memo (.lookup request now stored))
      (raccCacheStep tables env cache (.lookup request now stored)) := by
  have key_eq : raccKey request.record.rtm (request.record.rtm.cond request.record.pre) =
      request.key := congrArg (raccKey request.mode) (withMode_cond _ _)
  simp only [raccMemoStep, raccCacheStep, rtDataQRaccSqlCached, key_eq]
  rcases mirrors.get now request.key with ⟨missed, cache_missed⟩ |
    ⟨filler, cached, data, hit, cache_hit, -, -, -⟩
  swap
  · simp only [hit, cache_hit]
    exact mirrors
  simp only [missed, cache_missed, rtDataQRaccSql_record]
  cases answers : tables.answer request with
  | none =>
    have no_account : ¬ 0 < request.record.bacc.id := by
      simp [RaccRequest.record]
    simp only [Option.isSome_none, Bool.false_eq_true, if_false, no_account]
    exact mirrors
  | some data =>
    have account : 0 < (request.record.withAccount data).bacc.id := (server_of_answer answers).1
    simp only [Option.isSome_some, if_true, account]
    refine mirrors.put answers (fun rtp => ?_) stored
    simp only [Racc.withAccount, Racc.account, asUnsigned_idem]

theorem Mirrors.preloadNumbers_eq {memo : RaccMemo} {cache : RaccCache}
    (mirrors : Mirrors tables memo cache) (now : ℤ) (numbers : List String) :
    preloadNumbers memo now numbers = preloadNumbers cache now numbers := by
  have same (number : String) : (rtCacheRaccGet memo now (raccKey .clg number)).isSome =
      (rtCacheRaccGet cache now (raccKey .clg number)).isSome := by
    rcases mirrors.get now (raccKey .clg number) with ⟨missed, cache_missed⟩ |
      ⟨filler, cached, data, hit, cache_hit, -, -, -⟩
    · rw [missed, cache_missed]
      rfl
    · rw [hit, cache_hit]
      rfl
  simp only [preloadNumbers, same]

/-- The rows that the preload statement selects for a number are those of its lookup. -/
theorem preloadRows_of_number {numbers : List String} {server : ℕ} {number : String}
    {row : RaccRow} (member : (number, row) ∈ tables.preloadRows numbers server) :
    (tables.preloadRows numbers server).filter (fun other => other.1 = number) =
      (tables.join .callingNumber number server DeffRow.bplanId fun _ => true).map
        fun row => (number, row) := by
  obtain ⟨clg, clg_mem, row_mem⟩ := List.mem_flatMap.mp member
  obtain ⟨-, -, rfl⟩ : ∃ other, other ∈ tables.join .callingNumber clg.2.key server
      DeffRow.bplanId (fun _ => true) ∧ clg.2.key = number := by
    obtain ⟨other, other_mem, pair⟩ := List.mem_map.mp row_mem
    exact ⟨other, other_mem, congrArg Prod.fst pair⟩
  have distinct : (((tables.keys .callingNumber).select fun row => row.key ∈ numbers).map
      fun clg => clg.2.key).Nodup :=
    (List.filter_sublist.map _).nodup (tables.keys_unique .callingNumber)
  have kept : ∀ clg : ℕ × KeyRow, ∀ row ∈ (tables.join .callingNumber clg.2.key server
      DeffRow.bplanId fun _ => true).map (fun row => (clg.2.key, row)), row.1 = clg.2.key := by
    intro clg row member
    obtain ⟨other, -, rfl⟩ := List.mem_map.mp member
    rfl
  rw [AccountTables.preloadRows, KeyedRows.filter_flatMap kept,
    KeyedRows.filter_eq_singleton distinct clg_mem, List.flatMap_singleton]

/-- What the preload puts into a cache: the last row of the number, or the old entry. -/
theorem find_preloadWith {V : Type*} (value : String → RaccRow → V) (cache : BucketCache ℕ String V)
    (numbers : List String) (server : ℕ) (now stored : ℤ) (key : String) :
    (preloadWith tables value cache numbers server now stored).find rtCacheHashStr key =
      ((((tables.preloadRows (preloadNumbers cache now numbers) server).filter fun row =>
          raccKey .clg row.1 = key).getLast?).map fun row =>
        ⟨raccKey .clg row.1, stored, value row.1 row.2⟩).or (cache.find rtCacheHashStr key) := by
  have entries : preloadWith tables value cache numbers server now stored =
      ((tables.preloadRows (preloadNumbers cache now numbers) server).map fun row =>
        (⟨raccKey .clg row.1, stored, value row.1 row.2⟩ : CacheEntry String V)).foldl
        (BucketCache.put rtCacheHashStr) cache := by
    rw [List.foldl_map]
    rfl
  rw [entries, BucketCache.find_foldl_put, List.filter_map, List.getLast?_map]
  rfl

/-- A preload keeps the mirror. -/
theorem Mirrors.preload {memo : RaccMemo} {cache : RaccCache} (mirrors : Mirrors tables memo cache)
    (numbers : List String) (server : ℕ) (now stored : ℤ) :
    Mirrors tables (raccMemoStep tables memo (.preload numbers server now stored))
      (raccCacheStep tables env cache (.preload numbers server now stored)) := by
  intro key
  simp only [raccMemoStep, raccCacheStep, rtCachePreloadRaccs, find_preloadWith,
    mirrors.preloadNumbers_eq]
  cases last : ((tables.preloadRows (preloadNumbers cache now numbers) server).filter fun row =>
      raccKey .clg row.1 = key).getLast? with
  | none =>
    simp only [Option.map_none, Option.none_or]
    exact mirrors key
  | some row =>
    obtain ⟨number, row⟩ := row
    obtain ⟨member, key_eq⟩ := List.mem_filter.mp (List.mem_of_getLast? last)
    have of_number : ((tables.preloadRows (preloadNumbers cache now numbers) server).filter
        fun row => raccKey .clg row.1 = key) =
        (tables.join .callingNumber number server DeffRow.bplanId fun _ => true).map
          fun row => (number, row) := by
      rw [← preloadRows_of_number member]
      refine List.filter_congr fun other _ => ?_
      rw [← of_decide_eq_true key_eq]
      exact decide_eq_decide.mpr
        ⟨fun same => (raccKey_injective same).2, fun same => by rw [same]⟩
    rw [of_number, List.getLast?_map] at last
    obtain ⟨last_row, last_eq, pair⟩ := Option.map_eq_some_iff.mp last
    obtain rfl : last_row = row := congrArg Prod.snd pair
    have answers : tables.answer (.preload number server) =
        some ((RaccRequest.preload number server).record.load
          (raccColumns (-1, -1) last_row)).account := by
      simp only [AccountTables.answer]
      exact congrArg (Option.map _) last_eq
    simp only [Option.map_some, Option.some_or]
    refine ⟨rfl, rfl, _, answers, fun rtp => ?_⟩
    rw [← load_eq_withAccount]
    simp [Racc.withAccount, RaccRow.preloaded, Racc.load, raccColumns]

/-- A lookup gives what it gives without the cache, unless it hits the entry of a request that asks
otherwise. -/
theorem Mirrors.transparent_iff {memo : RaccMemo} {cache : RaccCache}
    (mirrors : Mirrors tables memo cache) (request : RaccRequest) (now stored : ℤ) :
    (rtDataQRaccSqlCached (env.withAccounts tables) cache now stored request.record).1 =
        rtDataQRaccSql (env.withAccounts tables) request.record ↔
      ∀ filler ∈ rtCacheRaccGet memo now request.key, request.AsksAlike tables filler := by
  have key_eq : raccKey request.record.rtm (request.record.rtm.cond request.record.pre) =
      request.key := congrArg (raccKey request.mode) (withMode_cond _ _)
  simp only [rtDataQRaccSqlCached, key_eq]
  rcases mirrors.get now request.key with ⟨missed, cache_missed⟩ |
    ⟨filler, cached, data, hit, cache_hit, filler_key, filled, copies⟩
  · simp [missed, cache_missed]
  simp only [hit, cache_hit, Option.mem_def, Option.some.injEq, forall_eq', copies,
    rtDataQRaccSql_record, Prod.mk.injEq, true_and]
  rw [asksAlike_iff filler_key.symm filled]
  have account_pos : 0 < data.baccId := (server_of_answer filled).1
  cases own : tables.answer request with
  | none =>
    refine iff_of_false (fun same => ?_) (by simp)
    have no_account : data.baccId = 0 := congrArg (fun rtp : Racc => rtp.bacc.id) same
    omega
  | some answer =>
    -- an answer is what the record holds after loading it
    have loaded {of : RaccRequest} {fields : RaccData} (answers : tables.answer of = some fields) :
        (request.record.withAccount fields).account = fields := by
      obtain ⟨row, -, rfl⟩ := exists_row_of_answer answers
      rw [← load_eq_withAccount]
      rfl
    rw [Option.some.injEq]
    constructor
    · intro same
      rw [← loaded own, ← loaded filled, same]
    · rintro rfl
      rfl

/-- Transparency of the account cache: on unchanged tables a run of lookups and preloads gives what
it gives without the cache exactly when every lookup that finds a fresh entry asks for the CDR
server and the indicators of the request that filled it. -/
theorem cacheTransparent_iff_hitsAskAlike (tables : AccountTables) (env : Env)
    (events : List RaccEvent) :
    CacheTransparent tables env .empty events ↔ HitsAskAlike tables .empty events := by
  have start : Mirrors tables .empty .empty := mirrors_empty
  revert start
  generalize (BucketCache.empty : RaccMemo) = memo
  generalize (BucketCache.empty : RaccCache) = cache
  intro mirrors
  induction events generalizing memo cache with
  | nil => exact Iff.rfl
  | cons event events ih =>
      cases event with
      | lookup request now stored =>
        exact and_congr (mirrors.transparent_iff request now stored)
          (ih _ _ (mirrors.lookup request now stored))
      | preload numbers server now stored =>
        exact and_congr Iff.rfl (ih _ _ (mirrors.preload numbers server now stored))

/-- A call from number 100 is looked up for server 1 and a second later for server 2, where the
number has no account: the cache answers with account 1. -/
theorem otherServer_not_transparent :
    ¬ CacheTransparent oneNumber bareEnv .empty
      [.lookup (.preload "100" 1) 0 0, .lookup (.preload "100" 2) 1 1] := by
  rintro ⟨-, second, -⟩
  have without_cache : (rtDataQRaccSql (bareEnv.withAccounts oneNumber)
      (RaccRequest.preload "100" 2).record).2.bacc.id = 0 := by
    decide +kernel
  have with_cache : (rtDataQRaccSqlCached (bareEnv.withAccounts oneNumber)
      (raccCacheStep oneNumber bareEnv .empty (.lookup (.preload "100" 1) 0 0)) 1 1
      (RaccRequest.preload "100" 2).record).1.2.bacc.id = 1 := by
    decide +kernel
  rw [second, without_cache] at with_cache
  exact absurd with_cache (by decide)

end Transparency

end RateEngine
