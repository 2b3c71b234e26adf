import RateEngine.Lib.Backlog
import RateEngine.WorkerPartition

/-!
# The cycle of the rating thread

`RateEngine` calls `rt_loop` for its leg, or for both legs in turn, and starts again at once when a
batch had a CDR, else it sleeps.  The mediator inserts CDRs meanwhile.  A CDR for which `rt_main`
looks up no account keeps its place in every batch, so the thread is a server of a backlog, and what
stays in the backlog is told by the CDRs before it.
-/

namespace RateEngine

open Backlog (Reaches goodBefore)

/-! ## The thread -/

/-- `rt_main` has a lookup for the CDR on the leg. -/
def Cdr.LooksUp (cdr : Cdr) (leg : Leg) : Prop :=
  cdr.recType ≠ .voipV ∧
    (leg = .b → cdr.recType = .unkn → cdr.dstContext ≠ "" ∨ cdr.dstTgroup ≠ "")

instance (cdr : Cdr) (leg : Leg) : Decidable (cdr.LooksUp leg) := inferInstanceAs (Decidable (_ ∧ _))

/-- Where the thread is. -/
inductive EnginePc where
  /-- In a cycle, with the legs that `rt_loop` has not been called for. -/
  | cycle (legs : List Leg)
  /-- In `rt_loop`, with the batch and the legs that are left to the cycle. -/
  | loop (leg : Leg) (batch : List Job) (legs : List Leg)
  | sleep
  | ended

/-- The thread `RateEngine`, the CDRs and the workers of `rt_loop`. -/
structure Engine where
  leg : Option Leg
  active : Bool
  numThreads : ℕ
  cdrs : List (String × Cdr)
  loop : RtLoop
  batchCount : ℕ := 0
  pc : EnginePc

/-- The steps of the process. -/
inductive EngineAction where
  /-- `rt_loop` fetches a batch. -/
  | fetch (envs : Cdr → { env : Env // env.Reliable })
  /-- A worker goes on. -/
  | work (w : ℕ)
  /-- `rt_loop` returns for a leg. -/
  | ret (leg : Leg)
  /-- The cycle is finished. -/
  | turn
  /-- The sleep is over. -/
  | wake
  /-- The mediator inserts a CDR. -/
  | insert (callUid : String) (cdr : Cdr)

/-- `rt_loop` returns for the leg. -/
def EngineAction.returns (leg : Leg) : EngineAction → Bool
  | ret leg' => leg = leg'
  | _ => false

/-- The legs of a cycle: both without a configured leg. -/
def cycleLegs : Option Leg → List Leg
  | none => [.a, .b]
  | some leg => [leg]

namespace Engine

/-- The table `cdrs`. -/
def store (s : Engine) : RatingSystem where
  db := s.loop.db
  cdrs := s.cdrs
  threads := []
  batches := []

/-- The CDRs of a fetch as the workers rate them. -/
def fetched (s : Engine) (leg : Leg) (envs : Cdr → { env : Env // env.Reliable }) : List Job :=
  (s.store.cdrGetCdrs leg).map fun cdr =>
    { env := (envs cdr).1, reliable := (envs cdr).2, leg, cdr }

/-- A new cycle. -/
def again (s : Engine) : Engine := { s with batchCount := 0, pc := .cycle (cycleLegs s.leg) }

/-- A step of the process, `none` when it is not enabled. -/
def step (s : Engine) (action : EngineAction) : Option Engine :=
  if s.loop.crashed then none
  else
    match action with
    | .fetch envs =>
        match s.pc with
        | .cycle (leg :: legs) =>
            let batch := s.fetched leg envs
            some { s with
              loop := .start s.loop.db (rtLoopQueues batch s.numThreads)
              pc := .loop leg batch legs }
        | _ => none
    | .work w =>
        match s.pc with
        | .loop _ _ _ => (s.loop.step w).map fun loop => { s with loop }
        | _ => none
    | .ret leg =>
        match s.pc with
        | .loop leg' batch legs =>
            if leg = leg' ∧ ∀ worker ∈ s.loop.workers, worker.jobs.isEmpty ∧ worker.call.isNone then
              some { s with batchCount := s.batchCount + batch.length, pc := .cycle legs }
            else none
        | _ => none
    | .turn =>
        match s.pc with
        | .cycle [] =>
            if s.active then
              -- a batch of which no CDR was marked counts as well
              if 0 < s.batchCount then some s.again else some { s with pc := .sleep }
            else some { s with pc := .ended }
        | _ => none
    | .wake =>
        match s.pc with
        | .sleep => some s.again
        | _ => none
    | .insert callUid cdr =>
        let store := s.store.cdrAddInDb callUid cdr
        some { s with cdrs := store.cdrs, loop := { s.loop with db := store.db } }

/-- The thread is not in `rt_loop`. -/
def Outside (s : Engine) : Prop := ∀ leg batch legs, s.pc ≠ .loop leg batch legs

/-- `rt_main` has a lookup for the stored CDR. -/
def LooksUp (s : Engine) (leg : Leg) (id : ℕ) : Prop :=
  ∃ row ∈ s.cdrs, row.2.id = id ∧ row.2.LooksUp leg

instance (s : Engine) (leg : Leg) : DecidablePred (s.LooksUp leg) := fun _ =>
  inferInstanceAs (Decidable (∃ row ∈ s.cdrs, _))

/-- The ids of the rows are serial, and each row has its CDR. -/
structure Stored (s : Engine) : Prop where
  ids : s.loop.db.cdrIds = s.cdrs.map fun row => row.2.id
  sorted : s.loop.db.cdrIds.Pairwise (· < ·)
  bound : ∀ id ∈ s.loop.db.cdrIds, 0 < id ∧ id ≤ s.cdrs.length

end Engine

/-- The ids of the CDRs whose leg is unmarked. -/
def Db.waiting (db : Db) (leg : Leg) : List ℕ :=
  (db.cdrs.filter fun row => row.mark leg = 0).map CdrRow.id

/-! ## What is waiting -/

section Waiting

variable {db db' : Db} {leg : Leg}

theorem Db.waiting_eq (distinct : db.cdrIds.Nodup) (leg : Leg) :
    db.waiting leg = db.cdrIds.filter fun id => ¬ db.Marked leg id := by
  rw [Db.waiting, Db.cdrIds, List.filter_map]
  refine congrArg _ (List.filter_congr fun row member => ?_)
  simp only [Function.comp_apply, decide_eq_decide]
  constructor
  · rintro unmarked ⟨other, other_mem, same, marked⟩
    obtain rfl := List.inj_on_of_nodup_map distinct other_mem member same
    exact marked unmarked
  · intro unmarked
    by_contra marked
    exact unmarked ⟨row, member, rfl, marked⟩

theorem Db.mem_waiting (distinct : db.cdrIds.Nodup) {id : ℕ} :
    id ∈ db.waiting leg ↔ id ∈ db.cdrIds ∧ ¬ db.Marked leg id := by
  rw [Db.waiting_eq distinct, List.mem_filter, decide_eq_true_iff]

/-- A CDR that is marked waits no more. -/
theorem Db.waiting_mark (distinct : db.cdrIds.Nodup) (same : db'.cdrIds = db.cdrIds) {id : ℕ}
    (marks : ∀ other, db'.Marked leg other ↔ db.Marked leg other ∨ other = id) :
    db'.waiting leg = (db.waiting leg).filter (· ≠ id) := by
  rw [Db.waiting_eq (same ▸ distinct), Db.waiting_eq distinct, same, List.filter_filter]
  refine List.filter_congr fun other _ => ?_
  simp only [marks]
  by_cases marked : db.Marked leg other <;> by_cases other_eq : other = id <;>
    simp [marked, other_eq]

theorem Db.waiting_congr (distinct : db.cdrIds.Nodup) (same : db'.cdrIds = db.cdrIds)
    (marks : ∀ other, db'.Marked leg other ↔ db.Marked leg other) :
    db'.waiting leg = db.waiting leg := by
  rw [Db.waiting_eq (same ▸ distinct), Db.waiting_eq distinct, same]
  refine List.filter_congr fun other _ => ?_
  simp only [marks]

end Waiting

namespace Engine

variable {s s' : Engine} {leg : Leg}

theorem Stored.distinct (stored : s.Stored) : s.loop.db.cdrIds.Nodup :=
  stored.sorted.imp fun lt => lt.ne

/-- A fetch takes the first CDRs that are waiting. -/
theorem Stored.cdrGetCdrs_ids (stored : s.Stored) (leg : Leg) :
    (s.store.cdrGetCdrs leg).map Cdr.id = (s.loop.db.waiting leg).take cdrBatchLimit := by
  rw [RatingSystem.cdrGetCdrs, List.map_take, Db.waiting]
  refine congrArg _ ?_
  have stored_rows : ∀ row ∈ s.loop.db.cdrs.filter fun row => row.mark leg = 0,
      ((s.cdrs.find? fun cdr => cdr.2.id = row.id).map Prod.snd).map Cdr.id = some row.id := by
    intro row member
    have id_mem : row.id ∈ s.loop.db.cdrIds := List.mem_map_of_mem (List.mem_of_mem_filter member)
    rw [stored.ids] at id_mem
    obtain ⟨pair, pair_mem, same⟩ := List.mem_map.mp id_mem
    cases found : s.cdrs.find? fun cdr => cdr.2.id = row.id with
    | none => exact absurd same (by simpa using List.find?_eq_none.mp found pair pair_mem)
    | some pair => simpa using List.find?_some found
  rw [List.map_filterMap, ← List.filterMap_eq_map]
  exact List.filterMap_congr stored_rows

end Engine

/-! ## A batch -/

namespace RtLoop

/-- What the workers keep: a CDR with a lookup is marked or still theirs. -/
structure Serving (batch : List Job) (s : RtLoop) : Prop where
  ofBatch : OfBatch s.db batch s
  marked : ∀ worker ∈ s.workers, ∀ job run, worker.call = some (job, run) →
    run.pc.afterMark = true → s.db.Marked job.leg job.cdr.id
  held : ∀ job ∈ batch, job.LooksUp →
    s.db.Marked job.leg job.cdr.id ∨ s.Holds (fun _ => True) job

theorem serving_start (db : Db) (queues : List (List Job)) :
    Serving queues.flatten (start db queues) := by
  have marking := marking_start db queues
  exact ⟨marking.ofBatch, fun worker member job run call => (marking.safe worker member job run
    call).2, fun job member _ => marking.held job member⟩

/-- The marks that a step of a worker writes: none, or that of a CDR with a lookup. -/
def MarksOne (batch : List Job) (db db' : Db) : Prop :=
  (∀ leg id, db'.Marked leg id ↔ db.Marked leg id) ∨
    ∃ job ∈ batch, job.LooksUp ∧
      ∀ leg id, db'.Marked leg id ↔ db.Marked leg id ∨ leg = job.leg ∧ id = job.cdr.id

theorem MarksOne.kept {batch : List Job} {db db' : Db} (marks : MarksOne batch db db') {leg : Leg}
    {id : ℕ} (marked : db.Marked leg id) : db'.Marked leg id := by
  obtain same | ⟨job, -, -, one⟩ := marks
  · exact (same leg id).mpr marked
  · exact (one leg id).mpr (.inl marked)

variable {batch : List Job} {s s' : RtLoop} {w : ℕ}

/-- A step keeps the ids, and marks no CDR without a lookup. -/
theorem Serving.step_marks (serving : Serving batch s)
    (stored : ∀ job ∈ batch, 0 < job.cdr.id ∧ job.cdr.id ∈ s.db.cdrIds)
    (steps : s.step w = some s') :
    s'.db.cdrIds = s.db.cdrIds ∧ MarksOne batch s.db s'.db := by
  refine ⟨(serving.ofBatch.step steps).ids, ?_⟩
  obtain ⟨-, worker, found, ⟨job, jobs, rfl, rfl⟩ | ⟨job, run, call, ⟨-, rfl⟩ | ⟨-, rfl⟩⟩⟩ :=
    step_cases steps
  · exact .inl fun _ _ => Iff.rfl
  · exact .inl fun _ _ => Iff.rfl
  · have call_ok := serving.ofBatch.calls worker (List.mem_of_getElem? found) job run call
    obtain ⟨positive, own_id⟩ := stored job call_ok.member
    have marks := fun leg id => RtExecRun.next_marked job.reliable s.db job.leg
      (call_ok.cdrId ▸ positive : 0 < run.rtp.pre.cdrId) leg id
    by_cases at_mark : run.pc = .mark
    · obtain ⟨rtp, record, -⟩ := call_ok.record
      refine .inr ⟨job, call_ok.member,
        job.record_isSome_iff.mp (Option.isSome_iff_exists.mpr ⟨rtp, record⟩), fun leg id => ?_⟩
      rw [marks leg id, call_ok.cdrId]
      refine or_congr_right ⟨fun ⟨_, same_leg, same, _⟩ => ⟨same_leg, same⟩, ?_⟩
      rintro ⟨same_leg, rfl⟩
      exact ⟨at_mark, same_leg, rfl, own_id⟩
    · refine .inl fun leg id => (marks leg id).trans (or_iff_left ?_)
      exact fun ⟨mark, _⟩ => at_mark mark

theorem Serving.step (serving : Serving batch s)
    (stored : ∀ job ∈ batch, 0 < job.cdr.id ∧ job.cdr.id ∈ s.db.cdrIds)
    (steps : s.step w = some s') : Serving batch s' := by
  have ok := serving.ofBatch
  obtain ⟨same_ids, marks_one⟩ := serving.step_marks stored steps
  have stepped := ok.step steps
  have ok' : OfBatch s'.db batch s' := ⟨rfl, stepped.jobs, stepped.calls⟩
  obtain ⟨-, worker, found, taken | ⟨job, run, call, moved⟩⟩ := step_cases steps
  · obtain ⟨job, jobs, rfl, rfl⟩ := taken
    refine ⟨ok', fun other member other_job run call after => ?_, fun other_job member looks => ?_⟩
    · rcases List.mem_or_eq_of_mem_set member with kept | rfl
      · exact serving.marked other kept other_job run call after
      · obtain ⟨rtp, -, pair⟩ := Option.map_eq_some_iff.mp call
        obtain ⟨rfl, rfl⟩ := Prod.mk.inj pair
        cases after
    · refine (serving.held other_job member looks).imp id fun held => held.set found ?_
      rintro (left | ⟨run, call, -⟩)
      · rcases List.mem_cons.mp left with rfl | later
        · obtain ⟨rtp, record⟩ := Option.isSome_iff_exists.mp (other_job.record_isSome_iff.mpr looks)
          exact .inr ⟨{ rtp }, by rw [record, Option.map_some], trivial⟩
        · exact .inl later
      · cases call
  obtain ⟨-, rfl⟩ | ⟨-, rfl⟩ := moved
  · exact ⟨ok', serving.marked, serving.held⟩
  have old := List.mem_of_getElem? found
  have call_ok := ok.calls worker old job run call
  have advances := run.next_advances job.env s.db job.leg
  obtain ⟨positive, own_id⟩ := stored job call_ok.member
  have marks := fun leg id => RtExecRun.next_marked job.reliable s.db job.leg
    (call_ok.cdrId ▸ positive : 0 < run.rtp.pre.cdrId) leg id
  -- at its mark or after it the call is marked after the step
  have marked (late : ∀ after ∈ (run.next job.env s.db job.leg).1, after.pc.afterMark = true) :
      (run.next job.env s.db job.leg).2.Marked job.leg job.cdr.id := by
    rw [marks]
    rcases advances.marked late with mark | after
    · exact .inr ⟨mark, rfl, call_ok.cdrId.symm, own_id⟩
    · exact .inl (serving.marked worker old job run call after)
  refine ⟨ok', fun other member other_job other_run other_call after => ?_,
    fun other_job member looks => ?_⟩
  · rcases List.mem_or_eq_of_mem_set member with kept | rfl
    · exact marks_one.kept (serving.marked other kept other_job other_run other_call after)
    · obtain ⟨next_run, goes, pair⟩ := Option.map_eq_some_iff.mp other_call
      obtain ⟨rfl, rfl⟩ := Prod.mk.inj pair
      refine marked fun other other_goes => ?_
      obtain rfl : next_run = other := Option.some.inj (goes.symm.trans other_goes)
      exact after
  · rcases serving.held other_job member looks with before | held
    · exact .inl (marks_one.kept before)
    by_cases ended : (run.next job.env s.db job.leg).1 = none ∧ other_job = job
    · obtain ⟨none, rfl⟩ := ended
      exact .inl (marked fun after goes => by rw [none] at goes; cases goes)
    · refine .inr (held.set found ?_)
      rintro (left | ⟨other_run, other_call, -⟩)
      · exact .inl left
      · rw [call] at other_call
        obtain ⟨rfl, rfl⟩ := Prod.mk.inj (Option.some.inj other_call)
        obtain ⟨after, goes⟩ := Option.ne_none_iff_exists'.mp fun none => ended ⟨none, rfl⟩
        exact .inr ⟨after, by rw [goes, Option.map_some], trivial⟩

/-- A CDR that is inserted is marked by nobody and takes no mark away. -/
theorem Serving.insert (serving : Serving batch s) {db : Db}
    (marks : ∀ leg id, s.db.Marked leg id → db.Marked leg id) : Serving batch { s with db } :=
  ⟨⟨rfl, serving.ofBatch.jobs, serving.ofBatch.calls⟩,
    fun worker member job run call after =>
      marks _ _ (serving.marked worker member job run call after),
    fun job member looks => (serving.held job member looks).imp (marks _ _) fun held => held⟩

end RtLoop

/-! ## Steps of the process -/

namespace Engine

variable {s s' : Engine}

theorem step_fetch {envs : Cdr → { env : Env // env.Reliable }}
    (steps : s.step (.fetch envs) = some s') :
    ∃ leg legs, s.pc = .cycle (leg :: legs) ∧
      s' = { s with
        loop := .start s.loop.db (rtLoopQueues (s.fetched leg envs) s.numThreads)
        pc := .loop leg (s.fetched leg envs) legs } := by
  simp only [step] at steps
  split at steps
  · cases steps
  split at steps <;> [rename_i pc_eq; cases steps]
  exact ⟨_, _, pc_eq, (Option.some.inj steps).symm⟩

theorem step_work {w : ℕ} (steps : s.step (.work w) = some s') :
    ∃ leg batch legs loop, s.pc = .loop leg batch legs ∧ s.loop.step w = some loop ∧
      s' = { s with loop } := by
  simp only [step] at steps
  split at steps
  · cases steps
  split at steps <;> [rename_i pc_eq; cases steps]
  obtain ⟨loop, worked, rfl⟩ := Option.map_eq_some_iff.mp steps
  exact ⟨_, _, _, loop, pc_eq, worked, rfl⟩

theorem step_ret {leg : Leg} (steps : s.step (.ret leg) = some s') :
    ∃ batch legs, s.pc = .loop leg batch legs ∧ s.loop.Returned ∧
      s' = { s with batchCount := s.batchCount + batch.length, pc := .cycle legs } := by
  simp only [step] at steps
  split at steps
  · cases steps
  split at steps <;> [rename_i pc_eq; cases steps]
  split at steps <;> [rename_i returned; cases steps]
  obtain ⟨rfl, idle⟩ := returned
  refine ⟨_, _, pc_eq, fun worker member => ?_, (Option.some.inj steps).symm⟩
  exact ⟨List.isEmpty_iff.mp (idle worker member).1,
    Option.isNone_iff_eq_none.mp (idle worker member).2⟩

theorem step_turn (steps : s.step .turn = some s') :
    s.pc = .cycle [] ∧
      (0 < s.batchCount ∧ s' = s.again ∨ s.batchCount = 0 ∧ s' = { s with pc := .sleep } ∨
        s' = { s with pc := .ended }) := by
  simp only [step] at steps
  split at steps
  · cases steps
  split at steps <;> [rename_i pc_eq; cases steps]
  refine ⟨pc_eq, ?_⟩
  split at steps
  · split at steps
    · rename_i found
      exact .inl ⟨found, (Option.some.inj steps).symm⟩
    · rename_i empty
      exact .inr (.inl ⟨Nat.eq_zero_of_not_pos empty, (Option.some.inj steps).symm⟩)
  · exact .inr (.inr (Option.some.inj steps).symm)

theorem step_wake (steps : s.step .wake = some s') : s.pc = .sleep ∧ s' = s.again := by
  simp only [step] at steps
  split at steps
  · cases steps
  split at steps <;> [rename_i pc_eq; cases steps]
  exact ⟨pc_eq, (Option.some.inj steps).symm⟩

/-- The row of an inserted CDR is the last one and has no mark. -/
theorem step_insert {callUid : String} {cdr : Cdr}
    (steps : s.step (.insert callUid cdr) = some s') :
    s' = s ∨ s' = { s with
      cdrs := s.cdrs ++ [(callUid, { cdr with id := s.cdrs.length + 1 })]
      loop := { s.loop with
        db := { s.loop.db with cdrs := s.loop.db.cdrs ++ [⟨s.cdrs.length + 1, 0, 0⟩] } } } := by
  simp only [step] at steps
  split at steps
  · cases steps
  obtain rfl := Option.some.inj steps
  by_cases taken : (s.cdrs.any fun row => row.1 = callUid) = true
  · have skipped : s.store.cdrAddInDb callUid cdr = s.store := if_pos taken
    rw [skipped]
    exact .inl rfl
  · have added : s.store.cdrAddInDb callUid cdr = { s.store with
        cdrs := s.cdrs ++ [(callUid, { cdr with id := s.cdrs.length + 1 })]
        db := { s.loop.db with cdrs := s.loop.db.cdrs ++ [⟨s.cdrs.length + 1, 0, 0⟩] } } :=
      if_neg taken
    rw [added]
    exact .inr rfl

/-! ## The backlog of a leg -/

/-- The ids of the batch that the workers have of the leg. -/
def taken (s : Engine) (leg : Leg) : Option (List ℕ) :=
  match s.pc with
  | .loop leg' batch _ => if leg' = leg then some (batch.map fun job => job.cdr.id) else none
  | _ => none

/-- What the workers and the table keep. -/
structure Ok (s : Engine) : Prop where
  stored : s.Stored
  threads : 0 < s.numThreads
  serving : ∀ leg batch legs, s.pc = .loop leg batch legs →
    RtLoop.Serving batch s.loop ∧ ∀ job ∈ batch, job.leg = leg ∧ ∃ row ∈ s.cdrs, row.2 = job.cdr

/-- The jobs of a batch have rows. -/
theorem Ok.rows (ok : s.Ok) {leg : Leg} {batch : List Job} {legs : List Leg}
    (at_loop : s.pc = .loop leg batch legs) :
    ∀ job ∈ batch, 0 < job.cdr.id ∧ job.cdr.id ∈ s.loop.db.cdrIds := by
  intro job member
  obtain ⟨-, row, row_mem, row_eq⟩ := (ok.serving leg batch legs at_loop).2 job member
  have id_mem : job.cdr.id ∈ s.loop.db.cdrIds := by
    rw [ok.stored.ids, ← row_eq]
    exact List.mem_map_of_mem row_mem
  exact ⟨(ok.stored.bound _ id_mem).1, id_mem⟩

theorem Stored.append (stored : s.Stored) (callUid : String) (cdr : Cdr) (pc : EnginePc) :
    Stored { s with
      cdrs := s.cdrs ++ [(callUid, { cdr with id := s.cdrs.length + 1 })]
      loop := { s.loop with
        db := { s.loop.db with cdrs := s.loop.db.cdrs ++ [⟨s.cdrs.length + 1, 0, 0⟩] } }
      pc } := by
  have ids_eq : (s.loop.db.cdrs ++ [CdrRow.mk (s.cdrs.length + 1) 0 0]).map CdrRow.id =
      s.loop.db.cdrIds ++ [s.cdrs.length + 1] := List.map_append
  refine ⟨?_, ?_, ?_⟩
  · rw [Db.cdrIds, ids_eq, stored.ids, List.map_append]
    rfl
  · rw [Db.cdrIds, ids_eq]
    refine List.pairwise_append.mpr ⟨stored.sorted, List.pairwise_singleton _ _, ?_⟩
    rintro id member new new_mem
    rw [List.mem_singleton.mp new_mem]
    exact Nat.lt_succ_of_le (stored.bound id member).2
  · rw [Db.cdrIds, ids_eq]
    rintro id member
    rw [List.length_append, List.length_singleton]
    rcases List.mem_append.mp member with old | new
    · exact ⟨(stored.bound id old).1, (stored.bound id old).2.trans (Nat.le_succ _)⟩
    · rw [List.mem_singleton.mp new]
      exact ⟨Nat.succ_pos _, le_rfl⟩

/-- The jobs of a fetch are the rows of their CDRs. -/
theorem fetched_rows {leg : Leg} {envs : Cdr → { env : Env // env.Reliable }} :
    ∀ job ∈ s.fetched leg envs, job.leg = leg ∧ ∃ row ∈ s.cdrs, row.2 = job.cdr := by
  intro job member
  obtain ⟨cdr, cdr_mem, rfl⟩ := List.mem_map.mp member
  refine ⟨rfl, ?_⟩
  obtain ⟨row, -, found⟩ := List.mem_filterMap.mp (List.mem_of_mem_take cdr_mem)
  obtain ⟨pair, pair_found, rfl⟩ := Option.map_eq_some_iff.mp found
  exact ⟨pair, List.mem_of_find?_eq_some pair_found, rfl⟩

/-- Every step keeps the table and the workers in order. -/
theorem Ok.step (ok : s.Ok) {action : EngineAction} (steps : s.step action = some s') : s'.Ok := by
  cases action with
  | fetch envs =>
      obtain ⟨leg, legs, -, rfl⟩ := step_fetch steps
      refine ⟨⟨ok.stored.ids, ok.stored.sorted, ok.stored.bound⟩, ok.threads, ?_⟩
      rintro _ _ _ ⟨⟩
      have handed : (rtLoopQueues (s.fetched leg envs) s.numThreads).flatten = s.fetched leg envs :=
        by rw [rtLoopQueues, ← List.flatMap_def, rtWorkerFunc_flatMap _ ok.threads]
      have serving := RtLoop.serving_start s.loop.db
        (rtLoopQueues (s.fetched leg envs) s.numThreads)
      rw [handed] at serving
      exact ⟨serving, fetched_rows⟩
  | work w =>
      obtain ⟨leg, batch, legs, loop, at_loop, worked, rfl⟩ := step_work steps
      obtain ⟨serving, rows⟩ := ok.serving leg batch legs at_loop
      have same_ids := (serving.step_marks (ok.rows at_loop) worked).1
      refine ⟨⟨same_ids.trans ok.stored.ids, ?_, ?_⟩, ok.threads, ?_⟩
      · rw [same_ids]
        exact ok.stored.sorted
      · rw [same_ids]
        exact ok.stored.bound
      · intro leg' batch' legs' at_loop'
        obtain ⟨rfl, rfl, rfl⟩ := EnginePc.loop.inj (at_loop.symm.trans at_loop')
        exact ⟨serving.step (ok.rows at_loop) worked, rows⟩
  | ret leg =>
      obtain ⟨batch, legs, -, -, rfl⟩ := step_ret steps
      exact ⟨⟨ok.stored.ids, ok.stored.sorted, ok.stored.bound⟩, ok.threads, by rintro _ _ _ ⟨⟩⟩
  | turn =>
      have stored := ok.stored
      obtain ⟨-, ⟨-, rfl⟩ | ⟨-, rfl⟩ | rfl⟩ := step_turn steps <;>
        exact ⟨⟨stored.ids, stored.sorted, stored.bound⟩, ok.threads, by rintro _ _ _ ⟨⟩⟩
  | wake =>
      obtain ⟨-, rfl⟩ := step_wake steps
      exact ⟨⟨ok.stored.ids, ok.stored.sorted, ok.stored.bound⟩, ok.threads, by rintro _ _ _ ⟨⟩⟩
  | insert callUid cdr =>
      obtain rfl | rfl := step_insert steps
      · exact ok
      refine ⟨ok.stored.append callUid cdr s.pc, ok.threads, fun leg batch legs at_loop => ?_⟩
      obtain ⟨serving, rows⟩ := ok.serving leg batch legs at_loop
      refine ⟨serving.insert fun leg id => ?_, fun job member => ?_⟩
      · rintro ⟨row, row_mem, own, marked⟩
        exact ⟨row, List.mem_append_left _ row_mem, own, marked⟩
      · obtain ⟨same_leg, row, row_mem, row_eq⟩ := rows job member
        exact ⟨same_leg, row, List.mem_append_left _ row_mem, row_eq⟩

/-! ## The thread serves the backlog -/

theorem taken_of_loop {leg leg' : Leg} {batch : List Job} {legs : List Leg}
    (at_loop : s.pc = .loop leg' batch legs) :
    s.taken leg = if leg' = leg then some (batch.map fun job => job.cdr.id) else none := by
  rw [taken, at_loop]

/-- What has become of the CDRs that were waiting at the start: whatever the CDRs
that come later are, the thread has served the backlog. -/
structure Tracks (leg : Leg) (start : List ℕ) (k : ℕ) (s : Engine) : Prop where
  ok : s.Ok
  known : ∀ id ∈ start, id ≤ s.cdrs.length
  reaches : ∀ good : ℕ → Prop, (∀ row ∈ s.cdrs, good row.2.id ↔ row.2.LooksUp leg) →
    Reaches cdrBatchLimit good start k (s.loop.db.waiting leg) (s.taken leg)

theorem taken_of_outside (s : Engine) {leg : Leg} (outside : s.Outside) : s.taken leg = none := by
  rw [taken]
  split
  · rename_i leg' batch legs at_loop
    exact absurd at_loop (outside leg' batch legs)
  · rfl

/-- Between the calls of `rt_loop` the thread moves on with the same backlog. -/
theorem Tracks.outside {leg : Leg} {start : List ℕ} {k : ℕ} (tracks : Tracks leg start k s)
    (before : s.Outside) {count : ℕ} {pc : EnginePc}
    (after : Outside { s with batchCount := count, pc })
    (ok : Ok { s with batchCount := count, pc }) :
    Tracks leg start k { s with batchCount := count, pc } := by
  refine ⟨ok, tracks.known, fun good agrees => ?_⟩
  have run := tracks.reaches good agrees
  rw [s.taken_of_outside before] at run
  rw [taken_of_outside _ after]
  exact run

theorem Tracks.step {leg : Leg} {start : List ℕ} {k : ℕ} (tracks : Tracks leg start k s)
    {action : EngineAction} (steps : s.step action = some s') :
    Tracks leg start (k + if action.returns leg then 1 else 0) s' := by
  have ok := tracks.ok
  have ok' := ok.step steps
  have known := tracks.known
  have reaches := tracks.reaches
  cases action with
  | fetch envs =>
      obtain ⟨own, legs, at_cycle, rfl⟩ := step_fetch steps
      refine ⟨ok', known, fun good agrees => ?_⟩
      have before := reaches good agrees
      have not_taken : s.taken leg = none := by rw [taken, at_cycle]
      rw [not_taken] at before
      by_cases same : own = leg
      · subst same
        have batch_ids : (s.fetched own envs).map (fun job => job.cdr.id) =
            (s.loop.db.waiting own).take cdrBatchLimit := by
          rw [← ok.stored.cdrGetCdrs_ids own, fetched, List.map_map]
          rfl
        have served := before.fetch
        rw [← batch_ids] at served
        simpa [taken, RtLoop.start, EngineAction.returns] using served
      · simpa [taken, RtLoop.start, EngineAction.returns, same] using before
  | work w =>
      obtain ⟨own, batch, legs, loop, at_loop, worked, rfl⟩ := step_work steps
      refine ⟨ok', known, fun good agrees => ?_⟩
      have before := reaches good agrees
      obtain ⟨serving, rows⟩ := ok.serving own batch legs at_loop
      obtain ⟨same_ids, marks⟩ := serving.step_marks (ok.rows at_loop) worked
      have distinct := ok.stored.distinct
      rw [taken_of_loop at_loop] at before
      have taken_eq : taken { s with loop } leg =
          if own = leg then some (batch.map fun job => job.cdr.id) else none :=
        taken_of_loop at_loop
      rw [taken_eq]
      simp only [EngineAction.returns, Bool.false_eq_true, if_false, Nat.add_zero]
      obtain same | ⟨job, member, looks, one⟩ := marks
      · rw [Db.waiting_congr distinct same_ids (same leg)]
        exact before
      obtain ⟨job_leg, row, row_mem, row_eq⟩ := rows job member
      by_cases own_leg : own = leg
      · subst own_leg
        have marks_own (id : ℕ) :
            loop.db.Marked own id ↔ s.loop.db.Marked own id ∨ id = job.cdr.id := by
          rw [one own id, job_leg, eq_self_iff_true, true_and]
        rw [Db.waiting_mark distinct same_ids marks_own]
        rw [if_pos rfl] at before ⊢
        refine before.serve (List.mem_map_of_mem member) ?_
        rw [← row_eq, agrees row row_mem, row_eq, ← job_leg]
        exact looks
      · rw [Db.waiting_congr distinct same_ids fun id => ?_]
        · exact before
        · rw [one, job_leg]
          exact or_iff_left fun other => own_leg other.1.symm
  | ret own =>
      obtain ⟨batch, legs, at_loop, returned, rfl⟩ := step_ret steps
      refine ⟨ok', known, fun good agrees => ?_⟩
      have before := reaches good agrees
      obtain ⟨serving, rows⟩ := ok.serving own batch legs at_loop
      rw [taken_of_loop at_loop] at before
      by_cases same : own = leg
      · subst same
        rw [if_pos rfl] at before
        have served := before.finish fun id id_mem looks => ?_
        · simpa [taken, EngineAction.returns] using served
        obtain ⟨job, member, rfl⟩ := List.mem_map.mp id_mem
        obtain ⟨job_leg, row, row_mem, row_eq⟩ := rows job member
        rw [← row_eq, agrees row row_mem, row_eq, ← job_leg] at looks
        have marked := (serving.held job member looks).resolve_right
          (RtLoop.not_holds_of_returned returned (fun _ => True) job)
        rw [Db.mem_waiting ok.stored.distinct, ← job_leg]
        exact fun waits => waits.2 marked
      · rw [if_neg same] at before
        simpa [taken, EngineAction.returns, Ne.symm same] using before
  | turn =>
      obtain ⟨at_end, moved⟩ := step_turn steps
      have before : s.Outside := by
        rintro leg batch legs at_loop
        rw [at_end] at at_loop
        cases at_loop
      obtain ⟨-, rfl⟩ | ⟨-, rfl⟩ | rfl := moved
      · exact tracks.outside before (by rintro _ _ _ ⟨⟩) ok'
      · exact tracks.outside before (by rintro _ _ _ ⟨⟩) ok'
      · exact tracks.outside before (by rintro _ _ _ ⟨⟩) ok'
  | wake =>
      obtain ⟨asleep, rfl⟩ := step_wake steps
      refine tracks.outside ?_ (by rintro _ _ _ ⟨⟩) ok'
      rintro leg batch legs at_loop
      rw [asleep] at at_loop
      cases at_loop
  | insert callUid cdr =>
      obtain rfl | rfl := step_insert steps
      · exact tracks
      refine ⟨ok', fun id member => ?_, fun good agrees => ?_⟩
      · rw [List.length_append]
        exact (known id member).trans (Nat.le_add_right _ _)
      · have before := reaches good fun row member => agrees row (List.mem_append_left _ member)
        have waits : (Db.mk s.loop.db.pcard s.loop.db.balance s.loop.db.rating
            s.loop.db.freeBillsecBalance
            (s.loop.db.cdrs ++ [⟨s.cdrs.length + 1, 0, 0⟩])).waiting leg =
              s.loop.db.waiting leg ++ [s.cdrs.length + 1] := by
          rw [Db.waiting, List.filter_append, List.map_append]
          cases leg <;> rfl
        rw [waits]
        refine before.add (fun id member => Nat.lt_succ_of_le (known id member)) fun id member => ?_
        exact Nat.lt_succ_of_le (ok.stored.bound id (Db.mem_waiting ok.stored.distinct |>.mp
          member).1).2

/-- Every run keeps track, and counts the calls of `rt_loop` that return for the leg. -/
theorem Tracks.run {leg : Leg} {start : List ℕ} {actions : List EngineAction} {t : Engine} :
    ∀ {k : ℕ} {s : Engine}, Tracks leg start k s → execAll Engine.step s actions = some t →
      Tracks leg start (k + actions.countP (EngineAction.returns leg)) t := by
  induction actions with
  | nil =>
      rintro k s tracks ⟨⟩
      exact tracks
  | cons action actions induction =>
      intro k s tracks run
      obtain ⟨next, steps, rest⟩ := Option.bind_eq_some_iff.mp run
      have later := induction (tracks.step steps) rest
      rw [List.countP_cons, add_comm (List.countP _ _), ← add_assoc]
      exact later

end Engine

/-! ## What is rated in the end -/

section Ends

variable {s t : Engine} {actions : List EngineAction} {leg : Leg} {id : ℕ}

/-- The unmarked CDRs before `id` for which the leg has no lookup. -/
def Engine.stuckBefore (s : Engine) (leg : Leg) (id : ℕ) : ℕ :=
  Backlog.stuckBefore (s.LooksUp leg) (s.loop.db.waiting leg) id

/-- The unmarked CDRs before `id` for which the leg has a lookup. -/
def Engine.ratedBefore (s : Engine) (leg : Leg) (id : ℕ) : ℕ :=
  goodBefore (s.LooksUp leg) (s.loop.db.waiting leg) id

theorem Engine.tracks_start (stored : s.Stored) (threads : 0 < s.numThreads) (outside : s.Outside)
    (leg : Leg) : s.Tracks leg (s.loop.db.waiting leg) 0 := by
  refine ⟨⟨stored, threads, fun own batch legs at_loop => ?_⟩, fun id member => ?_,
    fun good _ => ?_⟩
  · exact absurd at_loop (outside own batch legs)
  · exact (stored.bound id (Db.mem_waiting stored.distinct |>.mp member).1).2
  · rw [s.taken_of_outside outside]
    exact .start

theorem Engine.Stored.looksUp_iff (stored : s.Stored) {row : String × Cdr}
    (member : row ∈ s.cdrs) : s.LooksUp leg row.2.id ↔ row.2.LooksUp leg := by
  have distinct := stored.distinct
  rw [stored.ids] at distinct
  constructor
  · rintro ⟨other, other_mem, same, looks⟩
    obtain rfl := List.inj_on_of_nodup_map distinct other_mem member same
    exact looks
  · exact fun looks => ⟨row, member, rfl, looks⟩

/-- No CDR is deleted, and the configured leg stays. -/
theorem Engine.run_kept (run : execAll Engine.step s actions = some t) :
    t.leg = s.leg ∧ s.cdrs ⊆ t.cdrs := by
  let kept (a : Engine) : Prop := a.leg = s.leg ∧ s.cdrs ⊆ a.cdrs
  have start : kept s := ⟨rfl, List.Subset.refl _⟩
  refine (GuardedRun.true_iff_execAll.mpr run).preserves (fun {a b action} _ steps kept => ?_) start
  cases action with
  | fetch envs =>
      obtain ⟨_, _, _, rfl⟩ := step_fetch steps
      exact kept
  | work w =>
      obtain ⟨_, _, _, _, _, _, rfl⟩ := step_work steps
      exact kept
  | ret leg =>
      obtain ⟨_, _, _, _, rfl⟩ := step_ret steps
      exact kept
  | turn =>
      obtain ⟨-, ⟨-, rfl⟩ | ⟨-, rfl⟩ | rfl⟩ := step_turn steps <;> exact kept
  | wake =>
      obtain ⟨-, rfl⟩ := step_wake steps
      exact kept
  | insert callUid cdr =>
      obtain rfl | rfl := step_insert steps
      · exact kept
      · exact ⟨kept.1, List.subset_append_of_subset_left _ kept.2⟩

/-- A run as a run of a server of the backlog. -/
theorem Engine.reaches_of_run (stored : s.Stored) (threads : 0 < s.numThreads)
    (outside : s.Outside) (run : execAll Engine.step s actions = some t) (leg : Leg) :
    t.Ok ∧ (∀ other ∈ s.loop.db.cdrIds, t.LooksUp leg other ↔ s.LooksUp leg other) ∧
      Reaches cdrBatchLimit (t.LooksUp leg) (s.loop.db.waiting leg)
        (actions.countP (EngineAction.returns leg)) (t.loop.db.waiting leg) (t.taken leg) := by
  have tracks := (Engine.tracks_start stored threads outside leg).run run
  rw [Nat.zero_add] at tracks
  refine ⟨tracks.ok, fun other member => ?_, ?_⟩
  · rw [stored.ids] at member
    obtain ⟨row, row_mem, rfl⟩ := List.mem_map.mp member
    rw [tracks.ok.stored.looksUp_iff ((Engine.run_kept run).2 row_mem), stored.looksUp_iff row_mem]
  · exact tracks.reaches _ fun row member => tracks.ok.stored.looksUp_iff member

/-- The CDRs before `id` by the lookups at the end of the run. -/
theorem Engine.before_congr {waiting : List ℕ}
    (agrees : ∀ other ∈ waiting, t.LooksUp leg other ↔ s.LooksUp leg other) (id : ℕ) :
    Backlog.stuckBefore (t.LooksUp leg) waiting id = Backlog.stuckBefore (s.LooksUp leg) waiting id ∧
      goodBefore (t.LooksUp leg) waiting id = goodBefore (s.LooksUp leg) waiting id := by
  constructor
  · refine List.countP_congr fun other member => ?_
    rw [decide_eq_true_iff, decide_eq_true_iff, agrees other member]
  · refine List.countP_congr fun other member => ?_
    rw [decide_eq_true_iff, decide_eq_true_iff, agrees other member]

/-- The backlog of the leg at the start is in order. -/
theorem Engine.Stored.waiting_sorted (stored : s.Stored) (leg : Leg) :
    (s.loop.db.waiting leg).Pairwise (· < ·) := by
  rw [Db.waiting_eq stored.distinct]
  exact stored.sorted.filter _

/-- A CDR of a record type without a lookup, and a CDR of a call. -/
def videoAndVoice : Engine where
  leg := some .a
  active := true
  numThreads := 1
  cdrs := [("video", { (freeSecondsCall 0 1 "100" 60).cdr with recType := .voipV }),
    ("voice", (freeSecondsCall 0 2 "100" 60).cdr)]
  loop := { db := { cdrs := [⟨1, 0, 0⟩, ⟨2, 0, 0⟩] }, workers := [] }
  pc := .cycle [.a]

theorem videoAndVoice_stored : videoAndVoice.Stored := ⟨by decide, by decide, by decide⟩

/-- `rt_loop` on the two CDRs. -/
def videoAndVoiceBatch : List EngineAction :=
  .fetch (fun _ => ⟨freeSecondsEnv 0, fun _ => rfl⟩) :: List.replicate 7 (.work 0) ++ [.ret .a]

/-- When `rt_loop` has returned often enough, a CDR is marked exactly when the leg has a lookup for
it and a batch has room beside the CDRs before it that have none. -/
theorem engine_marks_iff (stored : s.Stored) (threads : 0 < s.numThreads) (outside : s.Outside)
    (run : execAll Engine.step s actions = some t) (waits : id ∈ s.loop.db.waiting leg)
    (enough : s.ratedBefore leg id / (cdrBatchLimit - s.stuckBefore leg id) <
      actions.countP (EngineAction.returns leg)) :
    t.loop.db.Marked leg id ↔ s.LooksUp leg id ∧ s.stuckBefore leg id < cdrBatchLimit := by
  obtain ⟨ok, agrees, reaches⟩ := Engine.reaches_of_run stored threads outside run leg
  have stored_waits : ∀ other ∈ s.loop.db.waiting leg, other ∈ s.loop.db.cdrIds :=
    fun other member => (Db.mem_waiting stored.distinct |>.mp member).1
  obtain ⟨stuck_eq, good_eq⟩ :=
    Engine.before_congr (fun other member => agrees other (stored_waits other member)) id
  have own : id ∈ t.loop.db.cdrIds := by
    have row_mem := stored_waits id waits
    rw [stored.ids] at row_mem
    rw [ok.stored.ids]
    exact List.map_subset _ (Engine.run_kept run).2 row_mem
  rw [Engine.ratedBefore, Engine.stuckBefore, ← stuck_eq, ← good_eq] at enough
  have left := reaches.waits_iff (stored.waiting_sorted leg) waits enough
  rw [Db.mem_waiting ok.stored.distinct, stuck_eq, agrees id (stored_waits id waits),
    and_iff_right own] at left
  exact not_iff_not.mp left

/-- One batch marks the CDR of the call. -/
theorem videoAndVoice_marked :
    ∃ t, execAll Engine.step videoAndVoice videoAndVoiceBatch = some t ∧
      (t.loop.db.Marked .a 2 ↔
        videoAndVoice.LooksUp .a 2 ∧ videoAndVoice.stuckBefore .a 2 < cdrBatchLimit) := by
  have runs : (execAll Engine.step videoAndVoice videoAndVoiceBatch).isSome = true := by
    decide +kernel
  obtain ⟨t, run⟩ := Option.isSome_iff_exists.mp runs
  refine ⟨t, run, engine_marks_iff videoAndVoice_stored (by decide) ?_ run ?_ ?_⟩
  · rintro _ _ _ ⟨⟩
  · decide
  · decide

/-- A CDR without a lookup, or without room in a batch, stays in the backlog. -/
theorem Engine.waits_of_starved (stored : s.Stored) (threads : 0 < s.numThreads)
    (outside : s.Outside) (run : execAll Engine.step s actions = some t)
    (waits : id ∈ s.loop.db.waiting leg)
    (starved : ¬ (s.LooksUp leg id ∧ s.stuckBefore leg id < cdrBatchLimit)) :
    id ∈ t.loop.db.waiting leg := by
  obtain ⟨-, agrees, reaches⟩ := Engine.reaches_of_run stored threads outside run leg
  have stored_waits : ∀ other ∈ s.loop.db.waiting leg, other ∈ s.loop.db.cdrIds :=
    fun other member => (Db.mem_waiting stored.distinct |>.mp member).1
  obtain ⟨stuck_eq, -⟩ :=
    Engine.before_congr (fun other member => agrees other (stored_waits other member)) id
  rw [Engine.stuckBefore, ← stuck_eq, ← agrees id (stored_waits id waits)] at starved
  exact (reaches.keeps (stored.waiting_sorted leg) waits).1.held starved

/-! ## The thread that does not sleep -/

/-- There is a CDR to fetch in the cycle, or one has been fetched. -/
def Engine.Busy (s : Engine) (leg : Leg) : Prop :=
  match s.pc with
  | .cycle legs => leg ∈ legs ∨ 0 < s.batchCount
  | .loop leg' batch legs => leg ∈ legs ∨ 0 < s.batchCount ∨ leg' = leg ∧ batch ≠ []
  | .sleep => False
  | .ended => True

theorem Engine.Busy.step {s' : Engine} {action : EngineAction} (busy : s.Busy leg)
    (stored : s.Stored) (waits : s.loop.db.waiting leg ≠ [])
    (configured : leg ∈ cycleLegs s.leg) (steps : s.step action = some s') : s'.Busy leg := by
  rw [Engine.Busy] at busy
  cases action with
  | fetch envs =>
      obtain ⟨own, legs, at_cycle, rfl⟩ := step_fetch steps
      rw [at_cycle] at busy
      simp only [Engine.Busy]
      rcases busy with member | found
      · rcases List.mem_cons.mp member with rfl | later
        · refine .inr (.inr ⟨rfl, fun empty => waits ?_⟩)
          have ids := stored.cdrGetCdrs_ids leg
          rw [Engine.fetched, List.map_eq_nil_iff] at empty
          rw [empty, List.map_nil, eq_comm, List.take_eq_nil_iff] at ids
          exact ids.resolve_left (by decide)
        · exact .inl later
      · exact .inr (.inl found)
  | work w =>
      obtain ⟨own, batch, legs, loop, at_loop, -, rfl⟩ := step_work steps
      rw [at_loop] at busy
      simp only [Engine.Busy, at_loop]
      exact busy
  | ret own =>
      obtain ⟨batch, legs, at_loop, -, rfl⟩ := step_ret steps
      rw [at_loop] at busy
      simp only [Engine.Busy]
      rcases busy with later | found | ⟨-, some⟩
      · exact .inl later
      · exact .inr (Nat.add_pos_left found _)
      · exact .inr (Nat.add_pos_right _ (List.length_pos_iff.mpr some))
  | turn =>
      obtain ⟨at_end, moved⟩ := step_turn steps
      rw [at_end] at busy
      have found : 0 < s.batchCount := busy.resolve_left List.not_mem_nil
      obtain ⟨-, rfl⟩ | ⟨empty, -⟩ | rfl := moved
      · exact .inl configured
      · exact absurd empty found.ne'
      · trivial
  | wake =>
      obtain ⟨asleep, -⟩ := step_wake steps
      rw [asleep] at busy
      exact busy.elim
  | insert callUid cdr =>
      obtain rfl | rfl := step_insert steps
      · exact busy
      · exact busy

/-- With such a CDR in a leg of its cycle the thread never sleeps. -/
theorem engine_never_sleeps (stored : s.Stored) (threads : 0 < s.numThreads)
    (top : s.pc = .cycle (cycleLegs s.leg)) (configured : leg ∈ cycleLegs s.leg)
    (waits : id ∈ s.loop.db.waiting leg)
    (starved : ¬ (s.LooksUp leg id ∧ s.stuckBefore leg id < cdrBatchLimit))
    (run : execAll Engine.step s actions = some t) : t.pc ≠ .sleep := by
  have outside : s.Outside := fun _ _ _ at_loop => by rw [top] at at_loop; cases at_loop
  let kept (a : Engine) : Prop :=
    a.Busy leg ∧ ∃ before, GuardedRun Engine.step (fun _ _ => True) s before a
  have start : kept s := by
    refine ⟨?_, [], .nil s⟩
    simp only [Engine.Busy, top]
    exact .inl configured
  have stays : kept t := by
    refine (GuardedRun.true_iff_execAll.mpr run).preserves (fun {a b action} _ steps kept => ?_)
      start
    obtain ⟨busy, before, reached⟩ := kept
    have so_far := GuardedRun.true_iff_execAll.mp reached
    have ok := (Engine.reaches_of_run stored threads outside so_far leg).1
    have left := Engine.waits_of_starved stored threads outside so_far waits starved
    refine ⟨busy.step ok.stored (List.ne_nil_of_mem left) ?_ steps, before ++ [action], ?_⟩
    · rw [(Engine.run_kept so_far).1]
      exact configured
    · exact reached.append (.cons trivial steps (.nil b))
  intro asleep
  have busy := stays.1
  rw [Engine.Busy, asleep] at busy
  exact busy

/-- After the batch the thread starts over, with the CDR that has no lookup. -/
theorem videoAndVoice_awake :
    ∃ t, execAll Engine.step videoAndVoice (videoAndVoiceBatch ++ [.turn]) = some t ∧
      t.pc ≠ .sleep := by
  have runs : (execAll Engine.step videoAndVoice (videoAndVoiceBatch ++ [.turn])).isSome = true := by
    decide +kernel
  obtain ⟨t, run⟩ := Option.isSome_iff_exists.mp runs
  have waits : 1 ∈ videoAndVoice.loop.db.waiting .a := by decide
  exact ⟨t, run, engine_never_sleeps videoAndVoice_stored (by decide) rfl (by decide) waits
    (by decide) run⟩

end Ends

end RateEngine
