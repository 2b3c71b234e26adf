import RateEngine.Lib.ObjectHeap
import RateEngine.Lib.Outputs

/-!
# Results on a connection

A statement leaves a `PGresult` in `res`, `db_fetch` copies its rows to a `db_sql_result_t` in
`result`, and the place that reads the rows frees this copy.  The places do not look at what
`db_select` and `db_fetch` return: they read whatever `result` holds.  This file follows both
pointers through every sequence of statements, with the connection lost at any of them, and tells
what the readers see by one bit.
-/

namespace RateEngine

/-! ## The interface -/

/-- Rows as the columns of texts that are copied; a text fits in its array. -/
abbrev SqlRows := List (List String)

/-- What `db_pgsql_exec` comes to: no result on a connection that is lost and not made again, or a
result, without rows for a command and for an error. -/
inductive PgExec where
  | lost
  | result (rows : SqlRows)
deriving DecidableEq

/-- `db_conn_t` of the engine of PostgreSQL, with the results that were allocated. -/
structure DbConn where
  rconn : Bool
  res : Option ℕ := none
  result : Option ℕ := none
  pgResults : ObjectHeap SqlRows := {}
  sqlResults : ObjectHeap SqlRows := {}

namespace DbConn

/-- `db_pgsql_query`. -/
def pgsqlQuery (conn : DbConn) (exec : PgExec) : ℤ × DbConn :=
  if conn.rconn then
    match exec with
    | .lost => (-10, conn)
    | .result rows =>
        (0, { conn with res := some conn.pgResults.next, pgResults := conn.pgResults.alloc rows })
  else (-4, conn)

/-- `db_pgsql_fetch_array`. -/
def pgsqlFetchArray (conn : DbConn) : ℤ × DbConn :=
  match conn.res with
  | none => (-10, conn)
  | some res =>
      (0, { conn with
        pgResults := conn.pgResults.use [res]
        sqlResults := conn.sqlResults.alloc ((conn.pgResults.get? res).getD [])
        result := some conn.sqlResults.next })

/-- `db_free_result` with `db_pgsql_free_result`. -/
def freeResult (conn : DbConn) : DbConn :=
  match conn.res with
  | none => conn
  | some res => { conn with res := none, pgResults := conn.pgResults.free res }

/-- `strncasecmp` of a statement and a word, for the length of the word. -/
def startsWith (word query : String) : Bool :=
  (query.toList.take word.length).map Char.toLower = word.toList

/-- `db_query`. -/
def query (conn : DbConn) (exec : PgExec) (clear : Bool) : ℤ × DbConn :=
  let sent := conn.pgsqlQuery exec
  (sent.1, if clear then sent.2.freeResult else sent.2)

/-- `db_select`. -/
def select (conn : DbConn) (query : String) (exec : PgExec) : ℤ × DbConn :=
  if startsWith "select" query then conn.pgsqlQuery exec else (-15, conn)

/-- `db_fetch`. -/
def fetch (conn : DbConn) : ℤ × DbConn :=
  let fetched := conn.pgsqlFetchArray
  if fetched.1 = 0 then (fetched.1, fetched.2.freeResult) else fetched

/-- `db_insert` and `db_update`, which differ in the word that the statement starts with. -/
def change (word : String) (conn : DbConn) (query : String) (exec : PgExec) : ℤ × DbConn :=
  if startsWith word query then
    let sent := conn.pgsqlQuery exec
    if sent.1 = 0 then (sent.1, sent.2.freeResult) else sent
  else (-15, conn)

/-- `db_insert`. -/
def insert : DbConn → String → PgExec → ℤ × DbConn := change "insert"

/-- `db_update`. -/
def update : DbConn → String → PgExec → ℤ × DbConn := change "update"

/-- `db_free`; nothing when it comes to `db_free_result`, which would look into the engine that is
freed before. -/
def free (conn : DbConn) : Option DbConn :=
  if conn.res.isSome then none
  else some { conn with sqlResults := conn.result.elim conn.sqlResults conn.sqlResults.free }

end DbConn

/-! ## The places of the code -/

/-- A place that reads rows, with the statement that it sends. -/
inductive ReadPlace where
  /-- `db_select`, `db_fetch`, the rows, `db_sql_result_free`: most of the places. -/
  | plain (query : String)
  /-- `cdr_cfg_get_cdr_profile_filters` and `cdr_cfg_get_cdr_dbstorage`, which return when
  `db_select` fails. -/
  | checked (query : String)
  /-- The `insert … returning id` of `rt_data_q_rating_add`, by `db_query` without `clear`. -/
  | returning
  /-- `rt_data_q_tariff_sql`, which returns from a result without rows and leaves it there. -/
  | tariff (query : String)
deriving DecidableEq

namespace ReadPlace

/-- The statement is sent by `db_select`. -/
def query : ReadPlace → Option String
  | plain query | checked query | tariff query => some query
  | returning => none

def isChecked : ReadPlace → Bool
  | checked _ => true
  | _ => false

def keepsEmpty : ReadPlace → Bool
  | tariff _ => true
  | _ => false

end ReadPlace

/-- A statement of the program, with what the server makes of it. -/
inductive DbStatement where
  | read (place : ReadPlace) (exec : PgExec)
  | insert (query : String) (exec : PgExec)
  | update (query : String) (exec : PgExec)
  /-- `db_query` with `clear`. -/
  | command (exec : PgExec)

namespace DbConn

/-- What `result` points to. -/
def resultRows (conn : DbConn) : Option SqlRows :=
  conn.result.map fun result => (conn.sqlResults.get? result).getD []

/-- What a place does with `result`; the rows that it decodes are the output. -/
def decode (conn : DbConn) (place : ReadPlace) : Option SqlRows × DbConn :=
  match conn.result with
  | none => (none, conn)
  | some result =>
      let sqlResults := conn.sqlResults.use [result]
      if place.keepsEmpty ∧ conn.resultRows = some [] then
        (conn.resultRows, { conn with sqlResults })
      else
        (conn.resultRows, { conn with result := none, sqlResults := sqlResults.free result })

/-- How a place sends its statement. -/
def send (conn : DbConn) (place : ReadPlace) (exec : PgExec) : ℤ × DbConn :=
  match place.query with
  | some query => conn.select query exec
  | none => conn.query exec false

/-- A place that reads rows. -/
def read (conn : DbConn) (place : ReadPlace) (exec : PgExec) : Option SqlRows × DbConn :=
  let sent := conn.send place exec
  if place.isChecked ∧ sent.1 < 0 then (none, sent.2) else sent.2.fetch.2.decode place

/-- A statement of the program; one that is not read has no output. -/
def step (conn : DbConn) : DbStatement → Option SqlRows × DbConn
  | .read place exec => conn.read place exec
  | .insert query exec => (none, (conn.insert query exec).2)
  | .update query exec => (none, (conn.update query exec).2)
  | .command exec => (none, (conn.query exec true).2)

/-- A connection before its first statement. -/
def start (rconn : Bool) : DbConn := { rconn }

end DbConn

/-! ## What the readers see -/

namespace DbStatement

/-- The rows of the statement itself. -/
def own (rconn : Bool) : DbStatement → Option SqlRows
  | read place (.result rows) =>
      if rconn && place.query.all (DbConn.startsWith "select") then some rows else none
  | _ => none

/-- What a reader sees, when the connection holds an empty result that was left behind, and whether
it holds one afterwards. -/
def seen (rconn leftover : Bool) (statement : DbStatement) : Option SqlRows × Bool :=
  match statement with
  | read place _ =>
      match statement.own rconn with
      | some rows => (some rows, place.keepsEmpty && rows.isEmpty)
      | none =>
          if place.isChecked then (none, leftover)
          else (if leftover then some [] else none, leftover && place.keepsEmpty)
  | _ => (none, leftover)

end DbStatement

/-! ## One statement -/

namespace DbConn

/-- What holds between two statements: no `PGresult` is pending and each was cleared once, every
copy was freed once or has no rows, and the copy in `result` is one that was left behind. -/
structure Rested (rconn : Bool) (conn : DbConn) (leftover : Bool) : Prop where
  rconn_eq : conn.rconn = rconn
  res : conn.res = none
  cleared : ∀ p < conn.pgResults.next, conn.pgResults.frees p = 1
  pgFaults : conn.pgResults.faults = 0
  result : conn.result.isSome = leftover
  held : ∀ p ∈ conn.result, conn.sqlResults.get? p = some [] ∧ conn.sqlResults.frees p = 0
  freed : ∀ p < conn.sqlResults.next, conn.sqlResults.frees p = 1 ∨
    conn.sqlResults.frees p = 0 ∧ conn.sqlResults.get? p = some []
  sqlFaults : conn.sqlResults.faults = 0

variable {rconn : Bool} {conn : DbConn} {leftover : Bool}

theorem Rested.start (rconn : Bool) : (start rconn).Rested rconn false where
  rconn_eq := rfl
  res := rfl
  cleared := fun p below => absurd below (Nat.not_lt_zero p)
  pgFaults := rfl
  result := rfl
  held := fun _ held => nomatch held
  freed := fun p below => absurd below (Nat.not_lt_zero p)
  sqlFaults := rfl

/-- The connection with a new `PGresult`. -/
def taken (conn : DbConn) (rows : SqlRows) : DbConn :=
  { conn with res := some conn.pgResults.next, pgResults := conn.pgResults.alloc rows }

/-- A statement fails and leaves the connection as it is, or it leaves a `PGresult`. -/
theorem pgsqlQuery_cases (conn : DbConn) (exec : PgExec) :
    (∃ ret < 0, conn.pgsqlQuery exec = (ret, conn) ∧ (conn.rconn = false ∨ exec = .lost)) ∨
      ∃ rows, conn.pgsqlQuery exec = (0, conn.taken rows) ∧ conn.rconn = true ∧
        exec = .result rows := by
  unfold pgsqlQuery
  by_cases connected : conn.rconn
  · rw [if_pos connected]
    cases exec with
    | lost => exact .inl ⟨-10, by decide, rfl, .inr rfl⟩
    | result rows => exact .inr ⟨rows, rfl, connected, rfl⟩
  · rw [if_neg connected]
    exact .inl ⟨-4, by decide, rfl, .inl (by simpa using connected)⟩

theorem Rested.freeResult (rested : conn.Rested rconn leftover) : conn.freeResult = conn := by
  rw [DbConn.freeResult, rested.res]

/-- A `PGresult` that is taken and cleared leaves the connection at rest. -/
theorem Rested.freeResult_taken (rested : conn.Rested rconn leftover) (rows : SqlRows) :
    (conn.taken rows).freeResult.Rested rconn leftover := by
  refine { rested with res := rfl, cleared := fun p below => ?_, pgFaults := rested.pgFaults }
  have allocated : conn.pgResults.next < (conn.pgResults.alloc rows).next := by simp
  change p < ((conn.pgResults.alloc rows).free conn.pgResults.next).next at below
  rw [ObjectHeap.next_free, ObjectHeap.next_alloc] at below
  change ((conn.pgResults.alloc rows).free conn.pgResults.next).frees p = 1
  rw [ObjectHeap.frees_free _ _ _ allocated, ObjectHeap.frees_alloc]
  rcases Nat.lt_succ_iff_lt_or_eq.mp below with old | rfl
  · rw [rested.cleared p old, if_neg old.ne']
  · rw [ObjectHeap.frees_next, if_pos rfl]

/-- A statement that reads nothing leaves the connection at rest. -/
theorem Rested.query_clear (rested : conn.Rested rconn leftover) (exec : PgExec) :
    (conn.query exec true).2.Rested rconn leftover := by
  change (conn.pgsqlQuery exec).2.freeResult.Rested rconn leftover
  obtain ⟨ret, -, sent, -⟩ | ⟨rows, sent, -, -⟩ := conn.pgsqlQuery_cases exec
  · rw [sent, rested.freeResult]
    exact rested
  · rw [sent]
    exact rested.freeResult_taken rows

theorem Rested.change (rested : conn.Rested rconn leftover) (word query : String) (exec : PgExec) :
    (change word conn query exec).2.Rested rconn leftover := by
  rw [DbConn.change]
  split
  · obtain ⟨ret, negative, sent, -⟩ | ⟨rows, sent, -, -⟩ := conn.pgsqlQuery_cases exec
    · simp only [sent]
      rw [if_neg negative.ne]
      exact rested
    · simp only [sent]
      exact rested.freeResult_taken rows
  · exact rested

/-! ## A reader -/

/-- What holds between `db_fetch` and the reader, who finds these rows. -/
structure Fetched (rconn : Bool) (conn : DbConn) (rows : SqlRows) (q : ℕ) : Prop where
  rconn_eq : conn.rconn = rconn
  res : conn.res = none
  cleared : ∀ p < conn.pgResults.next, conn.pgResults.frees p = 1
  pgFaults : conn.pgResults.faults = 0
  result : conn.result = some q
  rows_eq : conn.sqlResults.get? q = some rows
  unfreed : conn.sqlResults.frees q = 0
  freed : ∀ p < conn.sqlResults.next, p ≠ q → conn.sqlResults.frees p = 1 ∨
    conn.sqlResults.frees p = 0 ∧ conn.sqlResults.get? p = some []
  sqlFaults : conn.sqlResults.faults = 0

/-- A copy that was left behind is found by the next reader. -/
theorem Rested.fetched (rested : conn.Rested rconn true) : ∃ q, conn.Fetched rconn [] q := by
  obtain ⟨q, result⟩ := Option.isSome_iff_exists.mp rested.result
  obtain ⟨rows_eq, unfreed⟩ := rested.held q result
  exact ⟨q,
    { rested with result, rows_eq, unfreed, freed := fun p below _ => rested.freed p below }⟩

/-- `db_fetch` copies the rows of the statement and clears its `PGresult`. -/
theorem Rested.fetch_taken (rested : conn.Rested rconn leftover) (rows : SqlRows) :
    (conn.taken rows).fetch.2.Fetched rconn rows conn.sqlResults.next := by
  have unfreed : ∀ p ∈ [conn.pgResults.next], (conn.pgResults.alloc rows).frees p = 0 := by
    intro p member
    rw [List.mem_singleton.mp member, ObjectHeap.frees_alloc, ObjectHeap.frees_next]
  have content : (conn.pgResults.alloc rows).get? conn.pgResults.next = some rows := by
    rw [ObjectHeap.get?_alloc, if_pos rfl]
  have fetched : (conn.taken rows).fetch.2 = { (conn.taken rows).freeResult with
      sqlResults := conn.sqlResults.alloc rows
      result := some conn.sqlResults.next } := by
    simp only [fetch, pgsqlFetchArray, taken, DbConn.freeResult, ObjectHeap.use_eq unfreed, content,
      if_true, Option.getD_some]
  have cleared := rested.freeResult_taken rows
  rw [fetched]
  refine ⟨cleared.rconn_eq, cleared.res, cleared.cleared, cleared.pgFaults, rfl, ?_, ?_, ?_,
    rested.sqlFaults⟩
  · change (conn.sqlResults.alloc rows).get? _ = _
    rw [ObjectHeap.get?_alloc, if_pos rfl]
  · change (conn.sqlResults.alloc rows).frees _ = _
    rw [ObjectHeap.frees_alloc, ObjectHeap.frees_next]
  · intro p below other
    change p < (conn.sqlResults.alloc rows).next at below
    change (conn.sqlResults.alloc rows).frees p = 1 ∨
      (conn.sqlResults.alloc rows).frees p = 0 ∧ (conn.sqlResults.alloc rows).get? p = some []
    rw [ObjectHeap.next_alloc] at below
    rw [ObjectHeap.frees_alloc, ObjectHeap.get?_alloc, if_neg other]
    exact rested.freed p (by omega)

/-- A reader decodes the rows and frees the copy, except for an empty one that it leaves. -/
theorem Fetched.decode {rows : SqlRows} {q : ℕ} (fetched : conn.Fetched rconn rows q)
    (place : ReadPlace) :
    (conn.decode place).1 = some rows ∧
      (conn.decode place).2.Rested rconn (place.keepsEmpty && rows.isEmpty) := by
  have read : conn.resultRows = some rows := by
    rw [resultRows, fetched.result, Option.map_some, fetched.rows_eq, Option.getD_some]
  have unfreed : ∀ p ∈ [q], conn.sqlResults.frees p = 0 := by
    intro p member
    rw [List.mem_singleton.mp member, fetched.unfreed]
  have allocated := ObjectHeap.lt_next_of_get? fetched.rows_eq
  obtain ⟨connected, res, result, pgResults, sqlResults⟩ := conn
  obtain rfl : result = some q := fetched.result
  simp only [DbConn.decode, ObjectHeap.use_eq unfreed, read, Option.some.injEq]
  by_cases kept : place.keepsEmpty ∧ rows = []
  · obtain ⟨keeps, rfl⟩ := kept
    rw [if_pos ⟨keeps, rfl⟩, keeps]
    refine ⟨rfl, { fetched with
      result := rfl
      held := fun p held => ?_
      freed := fun p below => ?_ }⟩
    · obtain rfl : q = p := Option.some.inj held
      exact ⟨fetched.rows_eq, fetched.unfreed⟩
    · by_cases same : p = q
      · subst same
        exact .inr ⟨fetched.unfreed, fetched.rows_eq⟩
      · exact fetched.freed p below same
  · rw [if_neg kept]
    have none_left : (place.keepsEmpty && rows.isEmpty) = false := by
      rw [Bool.and_eq_false_iff]
      by_contra! both
      exact kept (by simpa using both)
    rw [none_left]
    refine ⟨rfl, { fetched with
      result := rfl
      held := fun _ held => nomatch held
      freed := fun p below => ?_ }⟩
    rw [ObjectHeap.next_free] at below
    rw [ObjectHeap.frees_free _ _ _ allocated, ObjectHeap.get?_free]
    by_cases same : q = p
    · subst same
      rw [fetched.unfreed, if_pos rfl]
      exact .inl rfl
    · rw [if_neg same]
      exact fetched.freed p below (Ne.symm same)

theorem Rested.fetch (rested : conn.Rested rconn leftover) : conn.fetch.2 = conn := by
  simp only [DbConn.fetch, pgsqlFetchArray, rested.res]
  rfl

/-- A reader whose statement failed: it finds nothing, or an empty copy that was left behind. -/
theorem Rested.decode (rested : conn.Rested rconn leftover) (place : ReadPlace) :
    (conn.decode place).1 = (if leftover then some [] else none) ∧
      (conn.decode place).2.Rested rconn (leftover && place.keepsEmpty) := by
  cases leftover with
  | false =>
      have nothing : conn.result = none :=
        Option.not_isSome_iff_eq_none.mp (by simp [rested.result])
      simp only [DbConn.decode, nothing]
      exact ⟨rfl, rested⟩
  | true =>
      obtain ⟨q, fetched⟩ := rested.fetched
      obtain ⟨read, after⟩ := fetched.decode place
      refine ⟨read, ?_⟩
      rwa [List.isEmpty_nil, Bool.and_true] at after

/-- The statement of a place fails and changes nothing, or it leaves a `PGresult` with its rows. -/
theorem Rested.send_cases (rested : conn.Rested rconn leftover) (place : ReadPlace)
    (exec : PgExec) :
    (∃ ret < 0, conn.send place exec = (ret, conn) ∧
        (DbStatement.read place exec).own rconn = none) ∨
      ∃ rows, conn.send place exec = (0, conn.taken rows) ∧
        (DbStatement.read place exec).own rconn = some rows := by
  have refused (failed : conn.rconn = false ∨ exec = .lost) :
      (DbStatement.read place exec).own rconn = none := by
    rcases failed with unconnected | rfl
    · cases exec <;> simp [DbStatement.own, ← rested.rconn_eq, unconnected]
    · rfl
  have unfolded : conn.send place exec =
      if place.query.all (startsWith "select") then conn.pgsqlQuery exec else (-15, conn) := by
    rw [send]
    cases place.query with
    | none => rfl
    | some query => rfl
  rw [unfolded]
  by_cases selects : place.query.all (startsWith "select")
  · rw [if_pos selects]
    obtain ⟨ret, negative, sent, failed⟩ | ⟨rows, sent, connected, rfl⟩ :=
      conn.pgsqlQuery_cases exec
    · exact .inl ⟨ret, negative, sent, refused failed⟩
    · refine .inr ⟨rows, sent, ?_⟩
      rw [DbStatement.own, ← rested.rconn_eq, connected, selects]
      rfl
  · rw [if_neg selects]
    refine .inl ⟨-15, by decide, rfl, ?_⟩
    cases exec <;> simp [DbStatement.own, selects]

/-- A reader sees what the bit tells, and leaves the connection at rest. -/
theorem Rested.read (rested : conn.Rested rconn leftover) (place : ReadPlace) (exec : PgExec) :
    (conn.read place exec).1 = ((DbStatement.read place exec).seen rconn leftover).1 ∧
      (conn.read place exec).2.Rested rconn
        ((DbStatement.read place exec).seen rconn leftover).2 := by
  rw [DbConn.read, DbStatement.seen]
  obtain ⟨ret, negative, sent, own⟩ | ⟨rows, sent, own⟩ := rested.send_cases place exec
  · simp only [sent, own, negative, and_true]
    by_cases checked : place.isChecked
    · simp only [checked, if_true]
      exact ⟨trivial, rested⟩
    · simp only [checked, rested.fetch]
      exact rested.decode place
  · simp only [sent, own, lt_irrefl, and_false, if_false]
    exact (rested.fetch_taken rows).decode place

/-- A statement leaves the connection at rest, and its reader sees what the bit tells. -/
theorem Rested.step (rested : conn.Rested rconn leftover) (statement : DbStatement) :
    (conn.step statement).1 = (statement.seen rconn leftover).1 ∧
      (conn.step statement).2.Rested rconn (statement.seen rconn leftover).2 := by
  cases statement with
  | read place exec => exact rested.read place exec
  | insert query exec => exact ⟨rfl, rested.change _ query exec⟩
  | update query exec => exact ⟨rfl, rested.change _ query exec⟩
  | command exec => exact ⟨rfl, rested.query_clear exec⟩

/-- At the end nothing of the engine is used, and no copy is freed twice. -/
theorem Rested.free (rested : conn.Rested rconn leftover) : ∃ after, conn.free = some after ∧
    (∀ p < after.pgResults.next, after.pgResults.frees p = 1) ∧
      ∀ p < after.sqlResults.next, after.sqlResults.frees p = 1 ∨
        after.sqlResults.frees p = 0 ∧ after.sqlResults.get? p = some [] := by
  have freed : conn.free = some { conn with
      sqlResults := conn.result.elim conn.sqlResults conn.sqlResults.free } := by
    rw [DbConn.free, if_neg (by simp [rested.res])]
  refine ⟨_, freed, rested.cleared, fun p => ?_⟩
  change p < (conn.result.elim conn.sqlResults conn.sqlResults.free).next →
    (conn.result.elim conn.sqlResults conn.sqlResults.free).frees p = 1 ∨
      (conn.result.elim conn.sqlResults conn.sqlResults.free).frees p = 0 ∧
        (conn.result.elim conn.sqlResults conn.sqlResults.free).get? p = some []
  intro below
  cases result : conn.result with
  | none =>
      rw [result] at below
      exact rested.freed p below
  | some q =>
      obtain ⟨rows_eq, unfreed⟩ := rested.held q result
      rw [result, Option.elim_some, ObjectHeap.next_free] at below
      rw [Option.elim_some, ObjectHeap.get?_free,
        ObjectHeap.frees_free _ _ _ (ObjectHeap.lt_next_of_get? rows_eq)]
      by_cases same : q = p
      · subst same
        rw [unfreed, if_pos rfl]
        exact .inl rfl
      · rw [if_neg same]
        exact rested.freed p below

end DbConn

/-! ## Every run -/

/-- The reader of a statement sees its rows, or nothing or no row when there are none. -/
def DbStatement.Sees (rconn : Bool) (statement : DbStatement) (rows : Option SqlRows) : Prop :=
  rows = statement.own rconn ∨ statement.own rconn = none ∧ rows = some []

theorem DbStatement.sees (rconn leftover : Bool) (statement : DbStatement) :
    statement.Sees rconn (statement.seen rconn leftover).1 := by
  unfold Sees
  cases statement with
  | read place exec =>
      rw [seen]
      cases own : (read place exec).own rconn with
      | some rows => exact .inl rfl
      | none =>
          cases leftover <;> cases place.isChecked <;> simp
  | insert query exec => exact .inl rfl
  | update query exec => exact .inl rfl
  | command exec => exact .inl rfl

/-- In every run of the statements on a connection, with the connection lost at any of them, no
reader decodes a row of another statement: it finds the rows of its own, or nothing, or the empty
copy that `rt_data_q_tariff_sql` has left behind, just as one bit tells.  Every `PGresult` is
cleared once, none is used afterwards, no copy is freed twice, only copies without rows are lost,
and `db_free` may free the engine before it looks at the results. -/
theorem dbConn_readers (rconn : Bool) (statements : List DbStatement) :
    let run := runOutputs DbConn.step (DbConn.start rconn) statements
    run.1 = (runOutputs (DbStatement.seen rconn) false statements).1 ∧
      (∀ pair ∈ statements.zip run.1, pair.1.Sees rconn pair.2) ∧
      run.2.pgResults.faults = 0 ∧ run.2.sqlResults.faults = 0 ∧
      ∃ after, run.2.free = some after ∧
        (∀ p < after.pgResults.next, after.pgResults.frees p = 1) ∧
        ∀ p < after.sqlResults.next, after.sqlResults.frees p = 1 ∨
          after.sqlResults.frees p = 0 ∧ after.sqlResults.get? p = some [] := by
  intro run
  have steps {conn : DbConn} {leftover : Bool} (statement : DbStatement)
      (rested : conn.Rested rconn leftover) := rested.step statement
  obtain ⟨same, rested⟩ := runOutputs_simulation steps (DbConn.Rested.start rconn) statements
  refine ⟨same, ?_, rested.pgFaults, rested.sqlFaults, rested.free⟩
  rw [show run.1 = _ from same]
  exact forall_zip_runOutputs (fun leftover statement => statement.sees rconn leftover) false
    statements

end RateEngine
