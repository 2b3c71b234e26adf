import RateEngine.CdrStore

/-!
# CDRs in a key-value store

With a NoSQL engine `cdr_add_in_db` looks the key of a CDR up and sets it when it is absent.  The
lookup passes the text `get <key>` where the engine expects a key, and the engine drops the code of
its command.  This file states for which sequences of CDRs the store still behaves as a set of keys.
-/

namespace RateEngine

/-! ## The server -/

/-- `redisReply` of a text or of a list of texts; the missing value is empty. -/
structure RedisReply where
  str : List Char
  element : List (List Char) := []

/-- The keys of the server and their values. -/
abbrev RedisStore := List Char → Option (List Char)

/-- The words of a command text. -/
def redisWords (command : List Char) : List (List Char) :=
  (command.splitOnP (· == ' ')).filter (· ≠ [])

/-- The reply to a command that the server does not carry out. -/
def redisError : RedisReply := ⟨"ERR".toList, []⟩

/-- The commands `GET` and `SET` on a command text. -/
def redisExec (store : RedisStore) (command : List Char) : RedisReply × RedisStore :=
  match redisWords command with
  | [verb, key] =>
      if verb.map Char.toUpper = ['G', 'E', 'T'] then (⟨(store key).getD [], []⟩, store)
      else (redisError, store)
  | [verb, key, value] =>
      if verb.map Char.toUpper = ['S', 'E', 'T'] then
        (⟨['O', 'K'], []⟩, Function.update store key (some value))
      else (redisError, store)
  | _ => (redisError, store)

/-- `redisCommand`: the reply, if there is one, and the store. -/
def redisCommand (outcome : DbOutcome) (store : RedisStore) (command : List Char) :
    Option RedisReply × RedisStore :=
  match outcome with
  | .done => (some (redisExec store command).1, (redisExec store command).2)
  | .failed => (some redisError, store)
  | .lost executed => (none, if executed then (redisExec store command).2 else store)

/-! ## The engine -/

/-- `db_conn_t`: whether it is connected, and the result. -/
structure RedisConn where
  rconn : Bool
  result : Option RedisReply := none

/-- `db_nosql_t`: whether `set` and `get` are bound. -/
structure DbNosql where
  set : Bool
  get : Bool

/-- A `db_t` of type `nosql` and the server behind it. -/
structure NosqlDb where
  conn : Option RedisConn
  nosql : Option DbNosql
  store : RedisStore

/-- `db_redis_command`. -/
def dbRedisCommand (outcome : DbOutcome) (conn : RedisConn) (store : RedisStore)
    (command : List Char) : ℤ × RedisConn × RedisStore :=
  if conn.rconn then
    match redisCommand outcome store command with
    | (none, store) => (-17, conn, store)
    | (some reply, store) =>
        if reply.str = [] ∧ reply.element = [] then (-18, { conn with result := none }, store)
        else (0, { conn with result := some reply }, store)
  else (-4, conn, store)

/-- `db_redis_set`. -/
def dbRedisSet (outcome : DbOutcome) (conn : RedisConn) (store : RedisStore)
    (key jsonStr : List Char) : ℤ × RedisConn × RedisStore :=
  match dbRedisCommand outcome conn store
      ("SET ".toList ++ key ++ " '".toList ++ jsonStr ++ ['\'']) with
  | (_, conn, store) =>
      match conn.result with
      | none => (0, conn, store)
      | some result =>
          (if (result.str.take 2).map Char.toUpper = ['O', 'K'] then 0 else -99, conn, store)

/-- `db_redis_get`. -/
def dbRedisGet (outcome : DbOutcome) (conn : RedisConn) (store : RedisStore) (key : List Char) :
    ℤ × RedisConn × RedisStore :=
  (0, (dbRedisCommand outcome conn store ("GET ".toList ++ key)).2)

/-- `db_set`; the result is freed. -/
def dbSet (outcome : DbOutcome) (dbp : NosqlDb) (key value : List Char) : ℤ × NosqlDb :=
  match dbp.conn, dbp.nosql with
  | none, _ => (-2, dbp)
  | some _, none => (-13, dbp)
  | some conn, some nosql =>
      if nosql.set then
        match dbRedisSet outcome conn dbp.store key value with
        | (ret, conn, store) =>
            (ret, { dbp with conn := some { conn with result := none }, store })
      else (-16, dbp)

/-- `db_get`. -/
def dbGet (outcome : DbOutcome) (dbp : NosqlDb) (key : List Char) : ℤ × NosqlDb :=
  match dbp.conn, dbp.nosql with
  | none, _ => (-2, dbp)
  | some _, none => (-13, dbp)
  | some conn, some nosql =>
      if nosql.get then
        match dbRedisGet outcome conn dbp.store key with
        | (ret, conn, store) => (ret, { dbp with conn := some conn, store })
      else (-16, dbp)

/-! ## CDRs -/

/-- `CDR_JSON_HDR_PATTERN` in front of the uid: the key of a CDR. -/
def cdrJsonHeader (callUid : List Char) : List Char := "cdr_call_".toList ++ callUid

/-- `cdr_get_cdr_id` with a NoSQL engine. -/
def cdrGetCdrIdNosql (outcome : DbOutcome) (dbp : NosqlDb) (cdr : CdrT) : ℤ × NosqlDb :=
  match dbGet outcome dbp ("get ".toList ++ cdrJsonHeader (cdr.text .callUid)) with
  | (ret, dbp) =>
      if ret < 0 then (if ret = -18 then 0 else -1, dbp)
      else (1, { dbp with conn := dbp.conn.map fun conn => { conn with result := none } })

/-- The message of a CDR and the time of a text, as functions. -/
structure CdrTexts where
  msg : CdrT → List Char
  convertTsToEpoch : List Char → ℤ

/-- An epoch that is missing is taken from its text. -/
def CdrT.setEpoch (texts : CdrTexts) (cdr : CdrT) (epoch : CdrNum) (ts : CdrText) : CdrT :=
  if cdr.num epoch = 0 ∧ cdr.text ts ≠ [] then
    cdr.setNum epoch (texts.convertTsToEpoch (cdr.text ts))
  else cdr

/-- `cdr_add_in_db_set`: `db_set` without a value. -/
def cdrAddInDbSet (texts : CdrTexts) (outcome : DbOutcome) (dbp : NosqlDb) (cdr : CdrT) :
    ℤ × NosqlDb :=
  let cdr := if cdr.num .cdrServerId = 0 then cdr.setNum .cdrServerId 1 else cdr
  let cdr := ((cdr.setEpoch texts .startEpoch .startTs).setEpoch texts .answerEpoch
    .answerTs).setEpoch texts .endEpoch .endTs
  dbSet outcome dbp ("SET ".toList ++ cdrJsonHeader (cdr.text .callUid) ++ " '".toList ++
    texts.msg cdr ++ ['\'']) "(null)".toList

/-- `cdr_add_in_db` with a NoSQL engine; `get` and `set` are the outcomes of its commands. -/
def cdrAddInDbNosql (texts : CdrTexts) (get set : DbOutcome) (dbp : NosqlDb)
    (filters : Option (List PrefixFilter)) (cdr : CdrT) : ℤ × NosqlDb :=
  let cdr := cdr.prepared filters
  match cdrGetCdrIdNosql get dbp cdr with
  | (found, dbp) => if found = 0 then cdrAddInDbSet texts set dbp cdr else (-1, dbp)

/-! ## A set of keys -/

/-- One CDR that is ingested, with its filters and the outcomes of its commands. -/
structure NosqlIngest where
  cdr : CdrT
  filters : Option (List PrefixFilter)
  get : DbOutcome
  set : DbOutcome

/-- The handle has a connection and the function of the engine. -/
def NosqlDb.Bound (dbp : NosqlDb) : Prop :=
  dbp.conn.isSome ∧ ∃ nosql, dbp.nosql = some nosql ∧ nosql.get = true

/-- The lookup reaches the server and is answered. -/
def NosqlDb.Looks (dbp : NosqlDb) (ingest : NosqlIngest) : Prop :=
  dbp.Bound ∧ (∃ conn, dbp.conn = some conn ∧ conn.rconn = true) ∧ ingest.get = .done

/-- The key of a CDR is in the store. -/
def NosqlDb.HasKey (dbp : NosqlDb) (ingest : NosqlIngest) : Prop :=
  (dbp.store (cdrJsonHeader (ingest.cdr.text .callUid))).isSome

section Set

variable (texts : CdrTexts)

/-- The handle and the store after a CDR. -/
def NosqlDb.ingest (dbp : NosqlDb) (ingest : NosqlIngest) : NosqlDb :=
  (cdrAddInDbNosql texts ingest.get ingest.set dbp ingest.filters ingest.cdr).2

/-- What the store has to do with a CDR: a lookup tells whether its key is stored and a failed one
is a failure, and an absent key is stored unless that fails. -/
structure NosqlDb.ActsAsSet (dbp : NosqlDb) (ingest : NosqlIngest) : Prop where
  present : dbp.Looks ingest → dbp.HasKey ingest →
    (cdrGetCdrIdNosql ingest.get dbp ingest.cdr).1 = 1
  absent : dbp.Looks ingest → ¬ dbp.HasKey ingest →
    (cdrGetCdrIdNosql ingest.get dbp ingest.cdr).1 = 0
  stores : dbp.Looks ingest → ¬ dbp.HasKey ingest → ingest.set = .done →
    (∃ nosql, dbp.nosql = some nosql ∧ nosql.set = true) →
      (dbp.ingest texts ingest).HasKey ingest
  fails : ¬ dbp.Looks ingest → (cdrGetCdrIdNosql ingest.get dbp ingest.cdr).1 < 0

/-- The store behaves as a set of keys at every CDR of a sequence. -/
def NosqlDb.ActsAsSetThroughout (dbp : NosqlDb) : List NosqlIngest → Prop
  | [] => True
  | ingest :: ingests => dbp.ActsAsSet texts ingest ∧
      (dbp.ingest texts ingest).ActsAsSetThroughout ingests

end Set

/-! ## What a lookup does -/

theorem redisWords_get (rest : List Char) :
    ∃ words, redisWords ("GET ".toList ++ rest) = ['G', 'E', 'T'] :: words := by
  have split : ("GET ".toList ++ rest).splitOnP (· == ' ') =
      ['G', 'E', 'T'] :: rest.splitOnP (· == ' ') := by
    simp [List.splitOnP_cons_eq_if_modifyHead]
  exact ⟨_, by rw [redisWords, split, List.filter_cons_of_pos (by decide)]⟩

/-- A command that starts with `GET` leaves the store alone. -/
theorem redisExec_get (store : RedisStore) (rest : List Char) :
    (redisExec store ("GET ".toList ++ rest)).2 = store := by
  obtain ⟨words, words_eq⟩ := redisWords_get rest
  simp only [redisExec, words_eq]
  split
  · split <;> rfl
  · rename_i three
    obtain ⟨rfl, -⟩ := List.cons.inj three
    rfl
  · rfl

theorem dbRedisGet_store (outcome : DbOutcome) (conn : RedisConn) (store : RedisStore)
    (key : List Char) : (dbRedisGet outcome conn store key).2.2 = store := by
  have command : (redisCommand outcome store ("GET ".toList ++ key)).2 = store := by
    cases outcome with
    | done => exact redisExec_get store key
    | failed => rfl
    | lost executed =>
        simp only [redisCommand, redisExec_get]
        split <;> rfl
  simp only [dbRedisGet, dbRedisCommand]
  split
  · split
    · rename_i reply_eq
      rw [reply_eq] at command
      exact command
    · rename_i reply_eq
      rw [reply_eq] at command
      split <;> exact command
  · rfl

theorem dbRedisGet_rconn (outcome : DbOutcome) (conn : RedisConn) (store : RedisStore)
    (key : List Char) : (dbRedisGet outcome conn store key).2.1.rconn = conn.rconn := by
  simp only [dbRedisGet, dbRedisCommand]
  split
  · split
    · rfl
    · split <;> rfl
  · rfl

section Lookup

variable {dbp : NosqlDb} (texts : CdrTexts)

/-- Without a connection or a function a lookup is a failure. -/
theorem cdrGetCdrIdNosql_unbound (unbound : ¬ dbp.Bound) (outcome : DbOutcome) (cdr : CdrT) :
    cdrGetCdrIdNosql outcome dbp cdr = (-1, dbp) := by
  obtain ⟨conn, nosql, store⟩ := dbp
  cases conn with
  | none => rfl
  | some conn =>
      cases nosql with
      | none => rfl
      | some nosql =>
          have unset : nosql.get = false := by
            by_contra bound
            exact unbound ⟨rfl, nosql, rfl, Bool.eq_true_of_not_eq_false bound⟩
          simp only [cdrGetCdrIdNosql, dbGet, unset]
          rfl

/-- Every lookup through a bound handle finds its key present. -/
theorem cdrGetCdrIdNosql_bound {conn : RedisConn} (bound : dbp.Bound)
    (connection : dbp.conn = some conn) (outcome : DbOutcome) (cdr : CdrT) :
    cdrGetCdrIdNosql outcome dbp cdr = (1, { dbp with conn := some ⟨conn.rconn, none⟩ }) := by
  obtain ⟨-, nosql, api, get⟩ := bound
  have rconn := dbRedisGet_rconn outcome conn dbp.store
    ("get ".toList ++ cdrJsonHeader (cdr.text .callUid))
  have store := dbRedisGet_store outcome conn dbp.store
    ("get ".toList ++ cdrJsonHeader (cdr.text .callUid))
  simp only [cdrGetCdrIdNosql, dbGet, connection, api, get, if_true, dbRedisGet, lt_irrefl,
    if_false, Option.map_some] at rconn store ⊢
  rw [rconn, store]

/-- Nothing is ever stored, and the handle stays as it was. -/
theorem NosqlDb.ingest_kept (dbp : NosqlDb) (ingest : NosqlIngest) :
    (dbp.ingest texts ingest).store = dbp.store ∧
      (dbp.ingest texts ingest).nosql = dbp.nosql ∧
      (dbp.ingest texts ingest).conn.map RedisConn.rconn = dbp.conn.map RedisConn.rconn := by
  by_cases bound : dbp.Bound
  · obtain ⟨conn, connection⟩ := Option.isSome_iff_exists.mp bound.1
    simp only [NosqlDb.ingest, cdrAddInDbNosql, cdrGetCdrIdNosql_bound bound connection,
      one_ne_zero, if_false, connection, Option.map_some, and_self]
  · simp only [NosqlDb.ingest, cdrAddInDbNosql, cdrGetCdrIdNosql_unbound bound]
    exact ⟨rfl, rfl, rfl⟩

theorem NosqlDb.bound_ingest (dbp : NosqlDb) (ingest : NosqlIngest) :
    (dbp.ingest texts ingest).Bound ↔ dbp.Bound := by
  obtain ⟨-, nosql, conn⟩ := dbp.ingest_kept texts ingest
  have some_iff := congrArg Option.isSome conn
  rw [Option.isSome_map, Option.isSome_map] at some_iff
  rw [NosqlDb.Bound, NosqlDb.Bound, nosql, some_iff]

theorem NosqlDb.looks_ingest (dbp : NosqlDb) (ingest other : NosqlIngest) :
    (dbp.ingest texts ingest).Looks other ↔ dbp.Looks other := by
  obtain ⟨-, -, conn⟩ := dbp.ingest_kept texts ingest
  have connected (db : NosqlDb) : (∃ conn, db.conn = some conn ∧ conn.rconn = true) ↔
      db.conn.map RedisConn.rconn = some true := Option.map_eq_some_iff.symm
  rw [NosqlDb.Looks, NosqlDb.Looks, dbp.bound_ingest, connected, connected, conn]

theorem NosqlDb.hasKey_ingest (dbp : NosqlDb) (ingest other : NosqlIngest) :
    (dbp.ingest texts ingest).HasKey other ↔ dbp.HasKey other := by
  rw [NosqlDb.HasKey, NosqlDb.HasKey, (dbp.ingest_kept texts ingest).1]

/-- The store does what it has to do with a CDR exactly when the handle is not bound, or the lookup
is answered and there is nothing to store. -/
theorem NosqlDb.actsAsSet_iff (dbp : NosqlDb) (ingest : NosqlIngest) :
    dbp.ActsAsSet texts ingest ↔ ¬ dbp.Bound ∨ dbp.Looks ingest ∧ dbp.HasKey ingest := by
  by_cases bound : dbp.Bound
  · obtain ⟨conn, connection⟩ := Option.isSome_iff_exists.mp bound.1
    have found : (cdrGetCdrIdNosql ingest.get dbp ingest.cdr).1 = 1 := by
      rw [cdrGetCdrIdNosql_bound bound connection]
    rw [or_iff_right (not_not_intro bound)]
    constructor
    · intro acts
      by_cases looks : dbp.Looks ingest
      · refine ⟨looks, ?_⟩
        by_contra missing
        rw [acts.absent looks missing] at found
        exact absurd found (by decide)
      · have failure := acts.fails looks
        rw [found] at failure
        exact absurd failure (by decide)
    · rintro ⟨looks, key⟩
      exact ⟨fun _ _ => found, fun _ missing => absurd key missing,
        fun _ missing => absurd key missing, fun failed => absurd looks failed⟩
  · have unlooked : ¬ dbp.Looks ingest := fun looks => bound looks.1
    rw [or_iff_left fun looks => unlooked looks.1]
    refine iff_of_true ⟨fun looks => absurd looks unlooked, fun looks => absurd looks unlooked,
      fun looks => absurd looks unlooked, fun _ => ?_⟩ bound
    rw [cdrGetCdrIdNosql_unbound bound]
    exact Int.negSucc_lt_zero 0

end Lookup

/-- Over a sequence of CDRs the store behaves as a set exactly when the handle is not bound, or
every lookup is answered and every key is stored before the sequence. -/
theorem actsAsSetThroughout_iff (texts : CdrTexts) (dbp : NosqlDb) (ingests : List NosqlIngest) :
    dbp.ActsAsSetThroughout texts ingests ↔
      ¬ dbp.Bound ∨ ∀ ingest ∈ ingests, dbp.Looks ingest ∧ dbp.HasKey ingest := by
  induction ingests generalizing dbp with
  | nil => exact iff_of_true trivial (Or.inr fun _ member => absurd member List.not_mem_nil)
  | cons ingest ingests induction =>
      rw [NosqlDb.ActsAsSetThroughout, induction, dbp.actsAsSet_iff, dbp.bound_ingest]
      simp only [dbp.looks_ingest, dbp.hasKey_ingest, List.forall_mem_cons]
      exact or_and_left.symm

/-- A connected handle, and a server without keys. -/
def emptyRedis : NosqlDb := ⟨some ⟨true, none⟩, some ⟨true, true⟩, fun _ => none⟩

/-- The first CDR that is ingested counts as present and is not stored. -/
theorem not_actsAsSetThroughout_first :
    ¬ emptyRedis.ActsAsSetThroughout ⟨fun _ => [], fun _ => 0⟩
      [⟨CdrT.ofCall 1 ['7'], none, .done, .done⟩] := by
  rintro ⟨acts, -⟩
  have looks : emptyRedis.Looks ⟨CdrT.ofCall 1 ['7'], none, .done, .done⟩ :=
    ⟨⟨rfl, _, rfl, rfl⟩, ⟨_, rfl, rfl⟩, rfl⟩
  have absent := acts.absent looks nofun
  revert absent
  decide

end RateEngine
