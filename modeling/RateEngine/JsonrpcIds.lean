import Mathlib.Data.List.Nodup
import Mathlib.Logic.Function.Basic
import RateEngine.Lib.GuardedRun

/-!
# The ids of JSON-RPC transactions

`json_rpc_gen_id` increments a global counter under a mutex and reads the value to return after it
has unlocked the mutex.  The ids are distinct as long as no other thread increments the counter
between the increment of a call and its read.
-/

namespace RateEngine.Jsonrpc

/-! ## Threads -/

/-- The next step of a thread in `json_rpc_gen_id`: to lock, to increment, to
unlock or to return. -/
inductive GenIdPc where
  | lock
  | increment
  | unlock
  | read
deriving DecidableEq, Repr

/-- The globals, the threads, and the ids that were returned. -/
structure GenIdState where
  transactionId : UInt32
  mutex : Option ℕ := none
  pc : ℕ → GenIdPc := fun _ => .lock
  /-- The calls that have incremented the counter. -/
  calls : ℕ := 0
  returned : List (ℕ × UInt32) := []

/-- A step of the thread `t`; the lock waits while another thread has the mutex. -/
def genIdStep (s : GenIdState) (t : ℕ) : Option GenIdState :=
  match s.pc t with
  | .lock =>
      if s.mutex = none then
        some { s with mutex := some t, pc := Function.update s.pc t .increment }
      else none
  | .increment =>
      some { s with
        transactionId := s.transactionId + 1
        calls := s.calls + 1
        pc := Function.update s.pc t .unlock }
  | .unlock => some { s with mutex := none, pc := Function.update s.pc t .read }
  | .read =>
      some { s with
        returned := s.returned ++ [(t, s.transactionId)]
        pc := Function.update s.pc t .lock }

/-- The thread has incremented the counter and has not read it. -/
def GenIdState.Pending (s : GenIdState) (t : ℕ) : Prop := s.pc t = .unlock ∨ s.pc t = .read

/-- The thread does not increment the counter while another one is about to read it. -/
def Undisturbed (s : GenIdState) (t : ℕ) : Prop := s.pc t = .increment → ∀ u, ¬ s.Pending u

/-- No two calls have returned the same id, when there were fewer of them than ids. -/
def GenIdState.Distinct (s : GenIdState) : Prop :=
  s.calls < 2 ^ 32 → (s.returned.map Prod.snd).Nodup

/-! ## Numbered calls -/

/-- The returned ids are those of different increments, and the last increment is still to be read
while a thread is about to read it. -/
structure Numbered (first : UInt32) (s : GenIdState) : Prop where
  counter : s.transactionId = first + UInt32.ofNat s.calls
  one : ∀ t u, s.Pending t → s.Pending u → t = u
  ids : ∃ numbers : List ℕ,
    s.returned.map Prod.snd = numbers.map (fun k => first + UInt32.ofNat k) ∧ numbers.Nodup ∧
      (∀ k ∈ numbers, k ≤ s.calls) ∧ ∀ t, s.Pending t → s.calls ∉ numbers

section Steps

variable {first : UInt32} {s after : GenIdState} {t : ℕ}

/-- The step of a thread leaves the others where they are. -/
theorem pending_update {pc : GenIdPc} (pc_eq : after.pc = Function.update s.pc t pc) (u : ℕ) :
    after.Pending u ↔ if u = t then pc = .unlock ∨ pc = .read else s.Pending u := by
  rw [GenIdState.Pending, pc_eq]
  by_cases same : u = t
  · rw [if_pos same, same, Function.update_self]
  · rw [if_neg same, Function.update_of_ne same, GenIdState.Pending]

/-- Steps that leave the counter and the ids, and after which no further thread is about to read. -/
theorem Numbered.of_pending (numbered : Numbered first s)
    (id_eq : after.transactionId = s.transactionId) (calls_eq : after.calls = s.calls)
    (returned_eq : after.returned = s.returned)
    (pending : ∀ u, after.Pending u → s.Pending u) : Numbered first after := by
  obtain ⟨numbers, ids, nodup, le_calls, unread⟩ := numbered.ids
  refine ⟨?_, fun u v left right => numbered.one u v (pending u left) (pending v right),
    numbers, ?_, nodup, ?_, fun u waits => ?_⟩
  · rw [id_eq, calls_eq, numbered.counter]
  · rw [returned_eq, ids]
  · rwa [calls_eq]
  · rw [calls_eq]
    exact unread u (pending u waits)

theorem Numbered.increment (numbered : Numbered first s) (undisturbed : ∀ u, ¬ s.Pending u) :
    Numbered first { s with
      transactionId := s.transactionId + 1
      calls := s.calls + 1
      pc := Function.update s.pc t .unlock } := by
  obtain ⟨numbers, ids, nodup, le_calls, -⟩ := numbered.ids
  have only (u : ℕ) (waits : GenIdState.Pending { s with
      transactionId := s.transactionId + 1
      calls := s.calls + 1
      pc := Function.update s.pc t .unlock } u) : u = t := by
    rw [pending_update (s := s) (t := t) rfl] at waits
    by_contra other
    rw [if_neg other] at waits
    exact undisturbed u waits
  refine ⟨?_, fun u v left right => (only u left).trans (only v right).symm, numbers, ids, nodup,
    fun k member => Nat.le_succ_of_le (le_calls k member), fun u _ member => ?_⟩
  · simp only [numbered.counter, UInt32.ofNat_add, UInt32.add_assoc]
    rfl
  · exact absurd (le_calls _ member) (Nat.not_succ_le_self s.calls)

theorem Numbered.read (numbered : Numbered first s) (waits : s.pc t = .read) :
    Numbered first { s with
      returned := s.returned ++ [(t, s.transactionId)]
      pc := Function.update s.pc t .lock } := by
  obtain ⟨numbers, ids, nodup, le_calls, unread⟩ := numbered.ids
  have pending : s.Pending t := .inr waits
  have none_left (u : ℕ) : ¬ GenIdState.Pending { s with
      returned := s.returned ++ [(t, s.transactionId)]
      pc := Function.update s.pc t .lock } u := by
    rw [pending_update (s := s) (t := t) rfl]
    split
    · simp
    · rename_i other
      exact fun waits => other (numbered.one u t waits pending)
  refine ⟨numbered.counter, fun u _ left => absurd left (none_left u), numbers ++ [s.calls], ?_, ?_,
    ?_, fun u left => absurd left (none_left u)⟩
  · rw [List.map_append, List.map_append, ids, List.map_singleton, List.map_singleton,
      numbered.counter]
  · exact List.nodup_append.mpr ⟨nodup, List.nodup_singleton _, fun k member l last => by
      rintro rfl
      rw [List.mem_singleton.mp last] at member
      exact unread t pending member⟩
  · intro k member
    rcases List.mem_append.mp member with before | last
    · exact le_calls k before
    · exact Nat.le_of_eq (List.mem_singleton.mp last)

/-- Each step of a thread that disturbs no other keeps the calls numbered. -/
theorem Numbered.step (undisturbed : Undisturbed s t) (steps : genIdStep s t = some after)
    (numbered : Numbered first s) : Numbered first after := by
  rw [genIdStep] at steps
  cases at_pc : s.pc t with
  | lock =>
      rw [at_pc] at steps
      dsimp only at steps
      split at steps
      · obtain rfl := Option.some.inj steps
        refine numbered.of_pending rfl rfl rfl fun u waits => ?_
        rw [pending_update (s := s) (t := t) rfl] at waits
        split at waits
        · simp at waits
        · exact waits
      · cases steps
  | increment =>
      rw [at_pc] at steps
      obtain rfl := Option.some.inj steps
      exact numbered.increment (undisturbed at_pc)
  | unlock =>
      rw [at_pc] at steps
      obtain rfl := Option.some.inj steps
      refine numbered.of_pending rfl rfl rfl fun u waits => ?_
      rw [pending_update (s := s) (t := t) rfl] at waits
      split at waits
      · rename_i same
        rw [same]
        exact .inl at_pc
      · exact waits
  | read =>
      rw [at_pc] at steps
      obtain rfl := Option.some.inj steps
      exact numbered.read at_pc

/-- Different increments give different ids, as long as the counter does not come round. -/
theorem Numbered.distinct (numbered : Numbered first s) : s.Distinct := by
  intro few
  obtain ⟨numbers, ids, nodup, le_calls, -⟩ := numbered.ids
  rw [ids]
  refine nodup.map_on fun k k_mem l l_mem same => ?_
  have k_le := le_calls k k_mem
  have l_le := le_calls l l_mem
  have numbers_eq := congrArg UInt32.toNat ((UInt32.add_right_inj first).mp same)
  rwa [UInt32.toNat_ofNat_of_lt' (by simp [UInt32.size]; omega),
    UInt32.toNat_ofNat_of_lt' (by simp [UInt32.size]; omega)] at numbers_eq

end Steps

/-- The threads at the start, with any value of the counter. -/
def GenIdState.start (transactionId : UInt32) : GenIdState := { transactionId }

theorem Numbered.start (transactionId : UInt32) :
    Numbered transactionId (.start transactionId) where
  counter := (UInt32.add_zero _).symm
  one t _ waits := by
    rcases waits with waits | waits
    all_goals cases waits
  ids := ⟨[], rfl, List.nodup_nil, by simp, fun t _ member => by cases member⟩

/-- In every run in which no thread increments the counter while another one is about to read it,
the returned ids are distinct. -/
theorem genId_distinct {transactionId : UInt32} {schedule : List ℕ} {s : GenIdState}
    (run : GuardedRun genIdStep Undisturbed (.start transactionId) schedule s) : s.Distinct := by
  have numbered : Numbered transactionId s :=
    run.preserves Numbered.step (Numbered.start transactionId)
  exact numbered.distinct

/-- Two calls, one after the other. -/
theorem genId_distinct_twice : ∃ s : GenIdState,
    s.returned = [(0, 1), (1, 2)] ∧ (s.returned.map Prod.snd).Nodup := by
  have free (s : GenIdState) (t : ℕ) (s_pc : ∀ u, s.pc u = if u = t then .increment else .lock) :
      Undisturbed s t := by
    rintro - u (waits | waits)
    all_goals
      rw [s_pc u] at waits
      split at waits <;> cases waits
  have run : GuardedRun genIdStep Undisturbed (.start 0) [0, 0, 0, 0, 1, 1, 1, 1] _ :=
    .cons nofun rfl
      (.cons (free _ 0 fun u => by simp [GenIdState.start, Function.update_apply]) rfl
        (.cons nofun rfl (.cons nofun rfl (.cons nofun rfl
          (.cons (free _ 1 fun u => by simp [GenIdState.start, Function.update_apply]) rfl
            (.cons nofun rfl (.cons nofun rfl (.nil _))))))))
  exact ⟨_, rfl, genId_distinct run (by decide)⟩

/-- Two threads increment the counter before one of them reads it. -/
theorem not_genId_distinct : ¬ ∀ transactionId schedule s,
    execAll genIdStep (.start transactionId) schedule = some s → s.Distinct := by
  intro claim
  have distinct := claim 0 [0, 0, 0, 1, 1, 1, 0, 1] _ rfl (by decide)
  revert distinct
  decide

end RateEngine.Jsonrpc
