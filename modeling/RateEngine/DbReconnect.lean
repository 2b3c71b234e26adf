import Mathlib.Tactic.Cases
import RateEngine.Lib.GuardedRun

/-!
# Commands with reconnection

`db_command` sends a command to the NoSQL engine and reconnects when it fails.  The two jumps share
two counters: `n` counts the failed connections and is never set back, `c` counts the connections
that were followed by the command again.  What the engine answers is any function of the calls that
it has had.
-/

namespace RateEngine

/-! ## The engine -/

/-- A call that `db_command` makes, with its result. -/
inductive NosqlCall where
  | command (ret : ℤ)
  | connect (ret : ℤ)
  | status (ret : ℤ)
deriving DecidableEq, Repr

/-- `db_nosql_t` as far as `db_command`: the result of a call after the calls before it, when the
pointer of the engine is set. -/
structure DbNosqlApi where
  connect : Option (List NosqlCall → ℤ)
  command : Option (List NosqlCall → ℤ)
  status : Option (List NosqlCall → ℤ)

/-- `db_type_t`. -/
inductive DbType where
  | sql
  | nosql
  | other
deriving DecidableEq, Repr

/-- `db_t`: `conn` says whether the pointer is set. -/
structure DbInterface where
  t : DbType
  nosql : Option DbNosqlApi
  conn : Bool

/-- `DB_ERR_DBP_NUL`, `DB_ERR_CONN_NUL`, `DB_ERR_CONN_NOOK`, `DB_ERR_NOSQL_NUL`, `DB_ERR_TYPE_UNK`
and `DB_ERR_FUNC_NUL`. -/
inductive DbErr where
  | dbpNul
  | connNul
  | connNook
  | nosqlNul
  | typeUnk
  | funcNul
deriving DecidableEq, Repr

/-- The code of an error. -/
def DbErr.code : DbErr → ℤ
  | dbpNul => -1
  | connNul => -2
  | connNook => -3
  | nosqlNul => -13
  | typeUnk => -14
  | funcNul => -16

theorem DbErr.code_neg (err : DbErr) : err.code < 0 := by
  cases err <;> decide

/-- `db_connect` and `db_status` of a NoSQL interface: the pointer is checked, then called. -/
def nosqlCall (api : Option (List NosqlCall → ℤ)) (calls : List NosqlCall) : ℤ :=
  match api with
  | none => DbErr.funcNul.code
  | some call => call calls

/-! ## `db_command` -/

/-- The labels of `db_command`, and its return. -/
inductive CommandLabel where
  | again
  | loop
  | returned (ret : ℤ)
deriving DecidableEq, Repr

/-- The variables of `db_command` and the calls that it has made. -/
structure CommandState where
  label : CommandLabel
  n : ℕ := 5
  c : ℕ := 5
  calls : List NosqlCall := []
deriving DecidableEq, Repr

/-- From the label `again`: the command, unless it was sent five times. -/
def CommandState.again (s : CommandState) (command : List NosqlCall → ℤ) : CommandState :=
  if s.c = 0 then { s with label := .returned DbErr.connNook.code }
  else
    let ret := command s.calls
    { s with
      label := if ret < 0 then .loop else .returned ret
      calls := s.calls ++ [.command ret] }

/-- From the label `loop`: a connection, unless five have failed. -/
def CommandState.loop (s : CommandState) (api : DbNosqlApi) : CommandState :=
  if s.n = 0 then { s with label := .returned DbErr.connNook.code }
  else
    let ret := nosqlCall api.connect s.calls
    let calls := s.calls ++ [.connect ret]
    if ret < 0 then { s with n := s.n - 1, calls }
    else
      { s with
        label := .again
        c := s.c - 1
        calls := calls ++ [.status (nosqlCall api.status calls)] }

/-- From one label to the next. -/
def CommandState.next (api : DbNosqlApi) (command : List NosqlCall → ℤ) (s : CommandState) :
    CommandState :=
  match s.label with
  | .again => s.again command
  | .loop => s.loop api
  | .returned _ => s

/-- `db_command` after some jumps. -/
def dbCommand (ptr : Option DbInterface) (jumps : ℕ) : CommandState :=
  match ptr with
  | none => { label := .returned DbErr.dbpNul.code }
  | some ptr =>
      if ¬ ptr.conn then { label := .returned DbErr.connNul.code }
      else if ptr.t = .nosql then
        match ptr.nosql with
        | none => { label := .returned DbErr.nosqlNul.code }
        | some api =>
            match api.command with
            | none => { label := .returned DbErr.funcNul.code }
            | some command => (CommandState.next api command)^[jumps] { label := .again }
      else { label := .returned DbErr.typeUnk.code }

/-! ## The bounds -/

/-- The results of the commands among the calls, in order. -/
def commands (calls : List NosqlCall) : List ℤ :=
  calls.filterMap fun
    | .command ret => some ret
    | _ => none

/-- The results of the connections among the calls, in order. -/
def connections (calls : List NosqlCall) : List ℤ :=
  calls.filterMap fun
    | .connect ret => some ret
    | _ => none

/-- What the counters say of the calls made so far, for each label. -/
structure CommandState.Counted (s : CommandState) : Prop where
  connected : (connections s.calls).length + s.n + s.c = 10
  sent : match s.label with
    | .again => (commands s.calls).length + s.c = 5
    | .loop => (commands s.calls).length + s.c = 6 ∧ 0 < s.c
    | .returned ret => (commands s.calls).length ≤ 5 ∧
        (0 ≤ ret → (commands s.calls).getLast? = some ret)

namespace CommandState

variable {api : DbNosqlApi} {command : List NosqlCall → ℤ} {s : CommandState}

theorem Counted.again (counted : s.Counted) (at_again : s.label = .again) :
    (s.again command).Counted := by
  have sent := counted.sent
  rw [at_again] at sent
  rw [CommandState.again]
  split
  · refine ⟨counted.connected, ?_⟩
    have negative := DbErr.connNook.code_neg
    exact ⟨by dsimp only; omega, fun nonneg => absurd nonneg (by omega)⟩
  · refine ⟨by simpa [connections] using counted.connected, ?_⟩
    by_cases failed : command s.calls < 0
    · simp only [if_pos failed]
      exact ⟨by simp [commands] at sent ⊢; omega, by omega⟩
    · simp only [if_neg failed]
      exact ⟨by simp [commands] at sent ⊢; omega, fun _ => by simp [commands]⟩

theorem Counted.loop (counted : s.Counted) (at_loop : s.label = .loop) :
    (s.loop api).Counted := by
  have connected := counted.connected
  have sent := counted.sent
  rw [at_loop] at sent
  obtain ⟨sent, open_c⟩ := sent
  rw [CommandState.loop]
  split
  · refine ⟨connected, ?_⟩
    have negative := DbErr.connNook.code_neg
    exact ⟨by dsimp only; omega, fun nonneg => absurd nonneg (by omega)⟩
  · dsimp only
    split
    · refine ⟨by simp [connections] at connected ⊢; omega, ?_⟩
      simp only [at_loop]
      exact ⟨by simpa [commands] using sent, open_c⟩
    · refine ⟨by simp [connections] at connected ⊢; omega, ?_⟩
      dsimp only
      simp [commands] at sent ⊢
      omega

theorem Counted.next (counted : s.Counted) : (s.next api command).Counted := by
  rw [CommandState.next]
  split
  · exact counted.again ‹_›
  · exact counted.loop ‹_›
  · exact counted

/-- The jumps that are left. -/
def measure (s : CommandState) : ℕ :=
  match s.label with
  | .again => 2 * s.c + s.n + 2
  | .loop => 2 * s.c + s.n + 1
  | .returned _ => 0

theorem measure_again_lt (at_again : s.label = .again) :
    (s.again command).measure < s.measure := by
  have before : s.measure = 2 * s.c + s.n + 2 := by rw [measure, at_again]
  rw [before, CommandState.again]
  split
  · simp [measure]
  · by_cases failed : command s.calls < 0
    · simp [measure, failed]
    · simp [measure, failed]

/-- A failed connection lowers `n` and another one lowers `c`. -/
theorem measure_loop_lt (at_loop : s.label = .loop) (open_c : 0 < s.c) :
    (s.loop api).measure < s.measure := by
  have before : s.measure = 2 * s.c + s.n + 1 := by rw [measure, at_loop]
  rw [before, CommandState.loop]
  split
  · simp [measure]
  · dsimp only
    split
    · simp only [measure, at_loop]
      omega
    · simp only [measure]
      omega

theorem measure_next_lt (counted : s.Counted) (open_run : ¬ ∃ ret, s.label = .returned ret) :
    (s.next api command).measure < s.measure := by
  have sent := counted.sent
  cases at_label : s.label with
  | again =>
      rw [next, at_label]
      exact measure_again_lt at_label
  | loop =>
      rw [at_label] at sent
      rw [next, at_label]
      exact measure_loop_lt at_label sent.2
  | returned ret => exact absurd ⟨ret, at_label⟩ open_run

end CommandState

/-- `db_command` returns after at most five commands and ten connections; its result is not an error
only when the last command gave it. -/
theorem dbCommand_returns (ptr : Option DbInterface) :
    ∃ jumps ret, (dbCommand ptr jumps).label = .returned ret ∧
      (commands (dbCommand ptr jumps).calls).length ≤ 5 ∧
        (connections (dbCommand ptr jumps).calls).length ≤ 10 ∧
          (0 ≤ ret → (commands (dbCommand ptr jumps).calls).getLast? = some ret) := by
  have refused (err : DbErr) : 0 ≤ err.code → (commands []).getLast? = some err.code :=
    fun nonneg => absurd err.code_neg (by omega)
  simp only [dbCommand]
  split
  · exact ⟨0, _, rfl, by decide, by decide, refused _⟩
  split
  · exact ⟨0, _, rfl, by decide, by decide, refused _⟩
  split
  · split
    · exact ⟨0, _, rfl, by decide, by decide, refused _⟩
    split
    · exact ⟨0, _, rfl, by decide, by decide, refused _⟩
    · rename_i api _ _ command _
      have start : ({ label := .again } : CommandState).Counted := ⟨rfl, rfl⟩
      obtain ⟨jumps, -, ⟨ret, returned⟩, connected, sent⟩ :=
        @exists_iterate_stopped _ (CommandState.next api command) _ _ _
          (fun _ counted => counted.next) (fun _ => CommandState.measure_next_lt) _ start
      rw [returned] at sent
      exact ⟨jumps, ret, returned, sent.1, by omega, sent.2⟩
  · exact ⟨0, _, rfl, by decide, by decide, refused _⟩

end RateEngine
