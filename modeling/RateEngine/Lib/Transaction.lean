import Mathlib.Data.List.Basic
import Mathlib.Tactic.Common

/-!
# Transactions with a fault

A session of a client with a database.  Inside a transaction the statements work on a copy that the
commit makes durable; a statement that fails aborts the transaction, whose commit then rolls back;
outside a transaction a statement is durable at once.  The client meets one fault at most: one of
its statements fails, or it stops before one of them.
-/

namespace Transaction

variable {State : Type*}

/-- A statement of a client. -/
inductive Stmt (State : Type*)
  | start
  | exec (effect : State → State)
  | commit

/-- The transaction of a session, with the state that its statements have made. -/
inductive Work (State : Type*)
  | idle
  | active (state : State)
  | aborted

/-- A session: what the database keeps, and the transaction. -/
structure Session (State : Type*) where
  durable : State
  work : Work State

/-- Perform a statement, which may fail. -/
def Session.step (succeeds : Bool) (session : Session State) : Stmt State → Session State
  | .start =>
      match session.work with
      | .idle => if succeeds then { session with work := .active session.durable } else session
      | .active state => { session with work := if succeeds then .active state else .aborted }
      | .aborted => session
  | .exec effect =>
      match session.work with
      | .idle => if succeeds then { session with durable := effect session.durable } else session
      | .active state =>
          { session with work := if succeeds then .active (effect state) else .aborted }
      | .aborted => session
  | .commit =>
      match session.work with
      | .idle => session
      | .active state => ⟨if succeeds then state else session.durable, .idle⟩
      | .aborted => { session with work := .idle }

/-- What goes wrong: nothing, the statement after so many others fails, or the client stops before
it. -/
inductive Fault
  | none
  | fails (before : ℕ)
  | stops (before : ℕ)
deriving DecidableEq, Repr

namespace Fault

/-- The fault is not met in the first statements. -/
def Beyond (count : ℕ) : Fault → Prop
  | none => True
  | fails before => count ≤ before
  | stops before => count ≤ before

/-- The statements of a transaction take effect: the fault is behind them, or the transaction
does not start. -/
def Spares (count : ℕ) : Fault → Prop
  | none => True
  | fails before => before = 0 ∨ count ≤ before
  | stops before => count ≤ before

/-- The fault that is left behind the first statements. -/
def after (count : ℕ) : Fault → Fault
  | none => none
  | fails before => if before < count then none else fails (before - count)
  | stops before => stops (before - count)

end Fault

/-- A client: the fault that it has yet to meet, and its session. -/
structure Client (State : Type*) where
  fault : Fault
  session : Session State

/-- Perform a statement, unless the client has stopped. -/
def Client.step (client : Client State) (stmt : Stmt State) : Client State :=
  match client.fault with
  | .none => ⟨.none, client.session.step true stmt⟩
  | .fails 0 => ⟨.none, client.session.step false stmt⟩
  | .fails (before + 1) => ⟨.fails before, client.session.step true stmt⟩
  | .stops 0 => client
  | .stops (before + 1) => ⟨.stops before, client.session.step true stmt⟩

/-- Perform the statements in order. -/
def Client.run (client : Client State) (stmts : List (Stmt State)) : Client State :=
  stmts.foldl Client.step client

/-- A transaction; the statements of its second part depend on what is durable before them. -/
def Client.transaction (client : Client State) (first : List (State → State))
    (next : State → List (State → State)) : Client State :=
  let opened := client.run (.start :: first.map .exec)
  opened.run ((next opened.session.durable).map .exec ++ [.commit])

/-- Apply the effects in order. -/
def applyAll (effects : List (State → State)) (state : State) : State :=
  effects.foldl (fun state effect => effect state) state

theorem applyAll_append (effects more : List (State → State)) (state : State) :
    applyAll (effects ++ more) state = applyAll more (applyAll effects state) :=
  List.foldl_append

namespace Client

theorem run_append (client : Client State) (stmts more : List (Stmt State)) :
    client.run (stmts ++ more) = (client.run stmts).run more :=
  List.foldl_append

theorem run_cons (client : Client State) (stmt : Stmt State) (rest : List (Stmt State)) :
    client.run (stmt :: rest) = (client.step stmt).run rest := rfl

/-- A client that has stopped performs nothing. -/
theorem run_stopped (session : Session State) (stmts : List (Stmt State)) :
    (⟨.stops 0, session⟩ : Client State).run stmts = ⟨.stops 0, session⟩ := by
  induction stmts with
  | nil => rfl
  | cons stmt rest induction => exact induction

/-- The effects change the copy of an open transaction, or nothing when it has been aborted. -/
theorem run_exec_none (session : Session State) (effects : List (State → State)) :
    (⟨.none, session⟩ : Client State).run (effects.map .exec) =
      ⟨.none,
        match session.work with
        | .idle => { session with durable := applyAll effects session.durable }
        | .active state => { session with work := .active (applyAll effects state) }
        | .aborted => session⟩ := by
  induction effects generalizing session with
  | nil => rcases session with ⟨durable, _ | state | _⟩ <;> rfl
  | cons effect rest induction =>
      rw [List.map_cons, run_cons]
      rcases session with ⟨durable, _ | state | _⟩ <;> exact induction _

/-- A fault behind the statements does not touch them. -/
theorem run_of_beyond {fault : Fault} {stmts : List (Stmt State)}
    (beyond : fault.Beyond stmts.length)
    (session : Session State) :
    (⟨fault, session⟩ : Client State).run stmts =
      ⟨fault.after stmts.length, ((⟨.none, session⟩ : Client State).run stmts).session⟩ := by
  induction stmts generalizing fault session with
  | nil => cases fault <;> rfl
  | cons stmt rest induction =>
      have first : (⟨fault, session⟩ : Client State).step stmt =
          ⟨fault.after 1, session.step true stmt⟩ := by
        rcases fault with _ | (_ | before) | (_ | before)
        · rfl
        · exact absurd beyond (Nat.not_succ_le_zero _)
        · simp [step, Fault.after]
        · exact absurd beyond (Nat.not_succ_le_zero _)
        · rfl
      have left : (fault.after 1).Beyond rest.length ∧
          (fault.after 1).after rest.length = fault.after (stmt :: rest).length := by
        rcases fault with _ | before | before
        · exact ⟨trivial, rfl⟩
        · have behind : rest.length + 1 ≤ before := beyond
          have later : ¬ before < 1 := by omega
          have later' : ¬ before - 1 < rest.length := by omega
          have later'' : ¬ before < rest.length + 1 := by omega
          simp only [Fault.after, Fault.Beyond, List.length_cons, if_neg later, if_neg later',
            if_neg later'']
          exact ⟨by omega, congrArg Fault.fails (by omega)⟩
        · have behind : rest.length + 1 ≤ before := beyond
          exact ⟨Nat.le_sub_one_of_lt behind, congrArg Fault.stops (by
            rw [List.length_cons]
            omega)⟩
      rw [run_cons, first, induction left.1, left.2]
      rfl

/-- Nothing is durable before the commit. -/
theorem durable_run_exec {client : Client State} (opened : client.session.work ≠ .idle)
    (effects : List (State → State)) :
    (client.run (effects.map .exec)).session.durable = client.session.durable ∧
      (client.run (effects.map .exec)).session.work ≠ .idle := by
  have kept (client : Client State) (opened : client.session.work ≠ .idle)
      (effect : State → State) :
      (client.step (.exec effect)).session.durable = client.session.durable ∧
        (client.step (.exec effect)).session.work ≠ .idle := by
    rcases client with ⟨_ | (_ | before) | (_ | before), durable, _ | state | _⟩ <;>
      simp_all [step, Session.step]
  induction effects generalizing client with
  | nil => exact ⟨rfl, opened⟩
  | cons effect rest induction =>
      obtain ⟨durable_eq, still⟩ := kept client opened effect
      rw [List.map_cons, run_cons, ← durable_eq]
      exact induction still

/-- A statement that fails aborts the transaction. -/
theorem run_exec_fails {before : ℕ} {effects : List (State → State)}
    (inside : before < effects.length)
    (durable state : State) :
    (⟨.fails before, ⟨durable, .active state⟩⟩ : Client State).run (effects.map .exec) =
      ⟨.none, ⟨durable, .aborted⟩⟩ := by
  induction effects generalizing before state with
  | nil => exact absurd inside (Nat.not_lt_zero _)
  | cons effect rest induction =>
      rw [List.map_cons, run_cons]
      cases before with
      | zero => exact run_exec_none ⟨durable, .aborted⟩ rest
      | succ before => exact induction (Nat.lt_of_succ_lt_succ inside) (effect state)

theorem fault_run_stops (before : ℕ) (session : Session State) (stmts : List (Stmt State)) :
    ((⟨.stops before, session⟩ : Client State).run stmts).fault = .stops
      (before - stmts.length) := by
  induction stmts generalizing before session with
  | nil => rfl
  | cons stmt rest induction =>
      rw [run_cons]
      rcases before with _ | before
      · rw [show (⟨.stops 0, session⟩ : Client State).step stmt = ⟨.stops 0, session⟩ from rfl,
          induction, Nat.zero_sub, Nat.zero_sub]
      · rw [show (⟨.stops (before + 1), session⟩ : Client State).step stmt =
          ⟨.stops before, session.step true stmt⟩ from rfl, induction, List.length_cons,
          Nat.add_sub_add_right]

section Blocks

variable {fault : Fault} (durable : State) (first : List (State → State))
  (next : State → List (State → State))

/-- The second part sees nothing of the first one, unless the transaction has not started. -/
theorem transaction_eq_run (starts : fault ≠ .fails 0) :
    (⟨fault, ⟨durable, .idle⟩⟩ : Client State).transaction first next =
      (⟨fault, ⟨durable, .idle⟩⟩ : Client State).run
        (.start :: (first ++ next durable).map .exec ++ [.commit]) := by
  have unseen : ((⟨fault, ⟨durable, .idle⟩⟩ : Client State).run
      (.start :: first.map .exec)).session.durable = durable := by
    rw [run_cons]
    rcases fault with _ | (_ | before) | (_ | before)
    · exact (durable_run_exec (by simp [step, Session.step]) first).1
    · exact absurd rfl starts
    · exact (durable_run_exec (by simp [step, Session.step]) first).1
    · rw [show (⟨.stops 0, ⟨durable, .idle⟩⟩ : Client State).step .start =
        ⟨.stops 0, ⟨durable, .idle⟩⟩ from rfl, run_stopped]
    · exact (durable_run_exec (by simp [step, Session.step]) first).1
  rw [transaction, unseen, ← run_append, List.map_append]
  congr 1
  simp

/-- A transaction that does not start leaves its statements durable one by one. -/
theorem transaction_fails_start :
    (⟨.fails 0, ⟨durable, .idle⟩⟩ : Client State).transaction first next =
      ⟨.none, ⟨applyAll (next (applyAll first durable)) (applyAll first durable), .idle⟩⟩ := by
  have opened : (⟨.fails 0, ⟨durable, .idle⟩⟩ : Client State).run (.start :: first.map .exec) =
      ⟨.none, ⟨applyAll first durable, .idle⟩⟩ := run_exec_none ⟨durable, .idle⟩ first
  rw [transaction, opened, run_append, run_exec_none]
  rfl

/-- A transaction before the fault is committed. -/
theorem transaction_of_beyond (beyond : fault.Beyond ((first ++ next durable).length + 2)) :
    (⟨fault, ⟨durable, .idle⟩⟩ : Client State).transaction first next =
      ⟨fault.after ((first ++ next durable).length + 2),
        ⟨applyAll (next durable) (applyAll first durable), .idle⟩⟩ := by
  have starts : fault ≠ .fails 0 := by
    rintro rfl
    exact absurd (show _ + 2 ≤ 0 from beyond) (by omega)
  let stmts : List (Stmt State) := .start :: (first ++ next durable).map .exec ++ [.commit]
  have size : stmts.length = (first ++ next durable).length + 2 := by
    simp only [stmts, List.length_append, List.length_cons, List.length_map, List.length_nil]
  have performed : (⟨.none, ⟨durable, .idle⟩⟩ : Client State).run stmts =
      ⟨.none, ⟨applyAll (first ++ next durable) durable, .idle⟩⟩ := by
    rw [show stmts = .start :: ((first ++ next durable).map .exec ++ [.commit]) from rfl, run_cons,
      show (⟨.none, ⟨durable, .idle⟩⟩ : Client State).step .start =
        ⟨.none, ⟨durable, .active durable⟩⟩ from rfl, run_append, run_exec_none]
    rfl
  rw [transaction_eq_run durable first next starts, run_of_beyond (size ▸ beyond), performed, size,
    applyAll_append]

/-- A transaction of which a statement behind the start fails is rolled back. -/
theorem transaction_fails {before : ℕ} (inside : before < (first ++ next durable).length + 1) :
    (⟨.fails (before + 1), ⟨durable, .idle⟩⟩ : Client State).transaction first next =
      ⟨.none, ⟨durable, .idle⟩⟩ := by
  have starts : Fault.fails (before + 1) ≠ .fails 0 := by simp
  rw [transaction_eq_run durable first next starts, List.cons_append, run_cons]
  generalize first ++ next durable = effects at inside
  rw [show (⟨.fails (before + 1), ⟨durable, .idle⟩⟩ : Client State).step .start =
    ⟨.fails before, ⟨durable, .active durable⟩⟩ from rfl, run_append]
  rcases Nat.lt_or_eq_of_le (Nat.le_of_lt_succ inside) with body | rfl
  · rw [run_exec_fails body]
    rfl
  · -- the commit itself fails
    have reached : Fault.Beyond (effects.map Stmt.exec).length (.fails effects.length) :=
      Nat.le_of_eq (List.length_map _)
    rw [run_of_beyond reached, run_exec_none]
    simp [Fault.after, run, step, Session.step]

/-- A client that has stopped starts no transaction. -/
theorem transaction_stopped (session : Session State) :
    (⟨.stops 0, session⟩ : Client State).transaction first next = ⟨.stops 0, session⟩ := by
  rw [transaction, run_stopped, run_stopped]

/-- A transaction that is not committed when the client stops leaves nothing durable. -/
theorem transaction_stops {before : ℕ} (inside : before < (first ++ next durable).length + 2) :
    ∃ work, (⟨.stops before, ⟨durable, .idle⟩⟩ : Client State).transaction first next =
      ⟨.stops 0, ⟨durable, work⟩⟩ := by
  cases before with
  | zero => exact ⟨.idle, transaction_stopped first next _⟩
  | succ before =>
      have starts : Fault.stops (before + 1) ≠ .fails 0 := nofun
      rw [transaction_eq_run durable first next starts, List.cons_append, run_cons]
      generalize first ++ next durable = effects at inside
      rw [show (⟨.stops (before + 1), ⟨durable, .idle⟩⟩ : Client State).step .start =
        ⟨.stops before, ⟨durable, .active durable⟩⟩ from rfl, run_append]
      have opened :
          (⟨.stops before, ⟨durable, .active durable⟩⟩ : Client State).session.work ≠ .idle :=
        nofun
      have kept := (durable_run_exec opened effects).1
      have stopped := fault_run_stops before ⟨durable, .active durable⟩ (effects.map .exec)
      have spent : before - effects.length = 0 := by omega
      rw [List.length_map, spent] at stopped
      generalize (⟨.stops before, ⟨durable, .active durable⟩⟩ : Client State).run
        (effects.map .exec) = client at kept stopped
      obtain ⟨fault, ⟨kept_durable, work⟩⟩ := client
      obtain rfl : fault = .stops 0 := stopped
      obtain rfl : kept_durable = durable := kept
      exact ⟨work, run_stopped _ _⟩

/-- A transaction is atomic, whatever the fault. -/
theorem durable_transaction (fault : Fault) :
    (fault.Spares ((first ++ next durable).length + 2) ∧ ∃ seen,
      ((⟨fault, ⟨durable, .idle⟩⟩ : Client State).transaction first next).session.durable =
        applyAll (next seen) (applyAll first durable)) ∨
    ¬ fault.Spares ((first ++ next durable).length + 2) ∧
      ((⟨fault, ⟨durable, .idle⟩⟩ : Client State).transaction first next).session.durable =
        durable := by
  rcases fault with _ | (_ | before) | before
  · have beyond : Fault.none.Beyond ((first ++ next durable).length + 2) := trivial
    exact .inl ⟨trivial, durable, congrArg (·.session.durable)
      (transaction_of_beyond durable first next beyond)⟩
  · exact .inl ⟨.inl rfl, applyAll first durable, congrArg (·.session.durable)
      (transaction_fails_start durable first next)⟩
  · by_cases inside : before < (first ++ next durable).length + 1
    · refine .inr ⟨?_, congrArg (·.session.durable) (transaction_fails durable first next inside)⟩
      simp only [Fault.Spares]
      omega
    · have beyond : Fault.Beyond ((first ++ next durable).length + 2) (.fails (before + 1)) := by
        simp only [Fault.Beyond]
        omega
      exact .inl ⟨.inr beyond, durable, congrArg (·.session.durable)
        (transaction_of_beyond durable first next beyond)⟩
  · by_cases inside : before < (first ++ next durable).length + 2
    · obtain ⟨work, stopped⟩ := transaction_stops durable first next inside
      exact .inr ⟨Nat.not_le.mpr inside, congrArg (·.session.durable) stopped⟩
    · have beyond : Fault.Beyond ((first ++ next durable).length + 2) (.stops before) :=
        Nat.not_lt.mp inside
      exact .inl ⟨beyond, durable, congrArg (·.session.durable)
        (transaction_of_beyond durable first next beyond)⟩

end Blocks

end Client

end Transaction
