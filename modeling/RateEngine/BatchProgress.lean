import RateEngine.CardlessAccounts
import RateEngine.CdrRaters
import RateEngine.Lib.GuardedRun
import RateEngine.Lib.Slots

/-!
# Progress of the batch rater

`rt_loop` fetches the CDRs whose leg is unmarked, in the order of their ids and no more than the
limit, and its workers rate them.  A CDR leaves the next batches by its mark, which is written at
the end of `rt_exec`.  This file follows the marks over all schedules of the workers: every CDR of a
batch is marked when the loop returns exactly when `rt_main` looks up an account for it and
`rt_exec` does not need a card that is absent.
-/

namespace RateEngine

open Slots

/-! ## Marks -/

/-- The leg of the CDR is marked. -/
def Db.Marked (db : Db) (leg : Leg) (id : ℕ) : Prop :=
  ∃ row ∈ db.cdrs, row.id = id ∧ row.mark leg ≠ 0

instance (db : Db) (leg : Leg) (id : ℕ) : Decidable (db.Marked leg id) :=
  inferInstanceAs (Decidable (∃ row ∈ db.cdrs, _))

/-- The ids in `cdrs`. -/
def Db.cdrIds (db : Db) : List ℕ := db.cdrs.map CdrRow.id

theorem Db.Marked.of_cdrs {db db' : Db} (same : db'.cdrs = db.cdrs) (leg : Leg) (id : ℕ) :
    db'.Marked leg id ↔ db.Marked leg id := by
  rw [Db.Marked, Db.Marked, same]

section Update

variable {env : Env} (reliable : env.Reliable) (db : Db) {mark : ℤ} (cdrId : ℕ) (leg : Leg)
include reliable

theorem cdrUpdateCdr_cdrIds : (cdrUpdateCdr env db mark cdrId leg).cdrIds = db.cdrIds := by
  rw [cdrUpdateCdr]
  split
  · simp only [reliable.exec, Db.cdrIds, List.map_map]
    refine List.map_congr_left fun row _ => ?_
    simp only [Function.comp_apply]
    split
    · cases leg <;> rfl
    · rfl
  · rfl

/-- An update marks the leg of its CDR and leaves the other marks. -/
theorem cdrUpdateCdr_marked (mark_ne : mark ≠ 0) (stored : 0 < cdrId) (leg' : Leg) (id : ℕ) :
    (cdrUpdateCdr env db mark cdrId leg).Marked leg' id ↔
      db.Marked leg' id ∨ leg' = leg ∧ id = cdrId ∧ id ∈ db.cdrIds := by
  rw [cdrUpdateCdr, if_pos stored, reliable.exec]
  simp only [Db.Marked, Db.cdrIds, List.mem_map, exists_exists_and_eq_and]
  constructor
  · rintro ⟨row, member, own, marked⟩
    split at own
    · rename_i updated
      have row_id : row.id = id := by cases leg <;> exact own
      by_cases same : leg' = leg
      · exact .inr ⟨same, row_id.symm.trans updated, row, member, row_id⟩
      · refine .inl ⟨row, member, row_id, ?_⟩
        rw [if_pos updated] at marked
        cases leg <;> cases leg' <;> first | exact absurd rfl same | exact marked
    · rename_i other
      rw [if_neg other] at marked
      exact .inl ⟨row, member, own, marked⟩
  · rintro (⟨row, member, own, marked⟩ | ⟨rfl, rfl, row, member, own⟩)
    · refine ⟨row, member, ?_, ?_⟩
      · split
        · cases leg <;> exact own
        · exact own
      · split
        · cases leg <;> cases leg' <;> first | exact mark_ne | exact marked
        · exact marked
    · refine ⟨row, member, ?_, ?_⟩
      · rw [if_pos own]
        cases leg' <;> exact own
      · rw [if_pos own]
        cases leg' <;> exact mark_ne

end Update

/-! ## Steps of a call -/

namespace RtExecRun

/-- The next step reads the id of a card that is absent. -/
def Crashes (run : RtExecRun) : Prop := (∃ rest, run.pc = .check rest) ∧ ¬ run.rtp.RowSafe

instance (run : RtExecRun) : Decidable run.Crashes :=
  match run with
  | ⟨rtp, .check rest⟩ =>
      decidable_of_iff (¬ rtp.RowSafe) ⟨fun needed => ⟨⟨rest, rfl⟩, needed⟩, And.right⟩
  | ⟨_, .load⟩ | ⟨_, .add _⟩ | ⟨_, .splitCharge⟩ | ⟨_, .splitCount⟩ | ⟨_, .mark⟩ | ⟨_, .charge⟩
  | ⟨_, .count⟩ => isFalse fun ⟨⟨_, at_check⟩, _⟩ => RtExecPc.noConfusion at_check

end RtExecRun

/-- The steps of `rt_exec` that are left, at most. -/
def RtExecPc.rank : RtExecPc → ℕ
  | load => 11
  | check (some _) => 10
  | add (some _) => 9
  | splitCharge => 8
  | splitCount => 7
  | check none => 6
  | add none => 5
  | mark => 4
  | charge => 3
  | count => 2

/-- The call has been marked. -/
def RtExecPc.afterMark : RtExecPc → Bool
  | charge | count => true
  | load | check _ | add _ | splitCharge | splitCount | mark => false

namespace RtExecRun

/-- A step goes on with the same call of the same account, or ends it at or after its mark. -/
structure Advances (run : RtExecRun) (run' : Option RtExecRun) : Prop where
  cdrId : ∀ after ∈ run', after.rtp.pre.cdrId = run.rtp.pre.cdrId
  bacc : ∀ after ∈ run', after.rtp.bacc = run.rtp.bacc
  rank : ∀ after ∈ run', after.pc.rank < run.pc.rank
  marked : (∀ after ∈ run', after.pc.afterMark = true) → run.pc = .mark ∨ run.pc.afterMark = true

/-- A run of the call of a record. -/
structure Keeps (rtp : Racc) (run : RtExecRun) : Prop where
  cdrId : run.rtp.pre.cdrId = rtp.pre.cdrId
  bacc : run.rtp.bacc = rtp.bacc

theorem Keeps.of_sameCall {rtp rtp' : Racc} {run : RtExecRun} (keeps : run.Keeps rtp')
    (same : rtp.SameCall rtp') : run.Keeps rtp :=
  ⟨keeps.cdrId.trans same.pre.cdrId, keeps.bacc.trans same.bacc⟩

theorem Keeps.rowSafe_iff {rtp : Racc} {run : RtExecRun} (keeps : run.Keeps rtp) :
    run.rtp.RowSafe ↔ rtp.RowSafe := by
  rw [Racc.RowSafe, Racc.RowSafe, keeps.cdrId, keeps.bacc]

/-- A step that goes on with a call that is not marked. -/
theorem Advances.of_keeps {run after : RtExecRun} (keeps : after.Keeps run.rtp)
    (rank : after.pc.rank < run.pc.rank) (unmarked : after.pc.afterMark = false) :
    run.Advances (some after) := by
  refine ⟨?_, ?_, ?_, fun all => ?_⟩
  · rintro _ ⟨⟩
    exact keeps.cdrId
  · rintro _ ⟨⟩
    exact keeps.bacc
  · rintro _ ⟨⟩
    exact rank
  · rw [all after rfl] at unmarked
    cases unmarked

/-- A step of a call that is marked. -/
theorem Advances.of_marked {run : RtExecRun} {run' : Option RtExecRun}
    (marked : run.pc = .mark ∨ run.pc.afterMark = true)
    (keeps : ∀ after ∈ run', after.Keeps run.rtp ∧ after.pc.rank < run.pc.rank) :
    run.Advances run' :=
  ⟨fun after member => (keeps after member).1.cdrId,
    fun after member => (keeps after member).1.bacc,
    fun after member => (keeps after member).2, fun _ => marked⟩

section Pricing

variable (rtp : Racc)

/-- Pricing without a further split leaves the call at its last row or at its mark. -/
theorem pricePaid_keeps : rtp.pricePaid.Keeps rtp ∧
    (rtp.pricePaid.pc = .check none ∨ rtp.pricePaid.pc = .mark) := by
  have same := calcCpriceGroup_sameCall rtp
  rw [Racc.pricePaid]
  rcases priced_eq : calcCpriceGroup rtp with ⟨ret, priced⟩
  rw [priced_eq] at same
  dsimp only
  split
  · exact ⟨⟨same.pre.cdrId, same.bacc⟩, .inr rfl⟩
  · exact ⟨⟨same.pre.cdrId, same.bacc⟩, .inl rfl⟩

theorem priceSplit_keeps : rtp.priceSplit.Keeps rtp ∧
    ((∃ rest, rtp.priceSplit.pc = .check rest) ∨ rtp.priceSplit.pc = .mark) := by
  have paid (rtp' : Racc) (same : rtp.SameCall rtp') : rtp'.pricePaid.Keeps rtp ∧
      ((∃ rest, rtp'.pricePaid.pc = .check rest) ∨ rtp'.pricePaid.pc = .mark) := by
    obtain ⟨keeps, pc⟩ := pricePaid_keeps rtp'
    exact ⟨keeps.of_sameCall same, pc.imp_left fun check => ⟨none, check⟩⟩
  rw [Racc.priceSplit]
  split
  · have same := calcCpriceGroup_sameCall (rtp.withBillsec rtp.freeSec)
    rcases free_eq : calcCpriceGroup (rtp.withBillsec rtp.freeSec) with ⟨ret, free⟩
    rw [free_eq] at same
    have free_same : rtp.SameCall free :=
      ⟨same.bacc, same.bplan, same.pre.cdrId, same.pre.rateId, same.pre.ratingId⟩
    dsimp only
    split
    · exact ⟨⟨same.pre.cdrId, same.bacc⟩, .inl ⟨_, rfl⟩⟩
    split
    · exact paid _ (free_same.trans ⟨rfl, rfl, rfl, rfl, rfl⟩)
    · exact ⟨⟨same.pre.cdrId, same.bacc⟩, .inr rfl⟩
  · exact paid rtp (.refl rtp)

/-- Pricing leaves the call at a row or at its mark. -/
theorem price_keeps : rtp.price.Keeps rtp ∧
    ((∃ rest, rtp.price.pc = .check rest) ∨ rtp.price.pc = .mark) := by
  rw [Racc.price]
  cases rtp.bplan.calcFuncs with
  | none => exact ⟨⟨rfl, rfl⟩, .inr rfl⟩
  | some tr =>
      have same := calcCpriceGroup_sameCall rtp
      rcases priced_eq : calcCpriceGroup rtp with ⟨ret, priced⟩
      rw [priced_eq] at same
      dsimp only
      split
      · exact ⟨⟨same.pre.cdrId, same.bacc⟩, .inl ⟨_, rfl⟩⟩
      split
      · obtain ⟨keeps, pc⟩ := priceSplit_keeps priced
        exact ⟨keeps.of_sameCall same, pc⟩
      · exact ⟨⟨same.pre.cdrId, same.bacc⟩, .inr rfl⟩

/-- After its row the call is at a later step, before or at its mark. -/
theorem saved_keeps (rest : Option ℤ) : (rtp.saved rest).Keeps rtp ∧
    (rtp.saved rest).pc.rank < (RtExecPc.add rest).rank ∧
      (rtp.saved rest).pc.afterMark = false := by
  cases rest with
  | none => exact ⟨⟨rfl, rfl⟩, by simp [Racc.saved, RtExecPc.rank], rfl⟩
  | some noFreeSec =>
      simp only [Racc.saved]
      split
      · exact ⟨⟨rfl, rfl⟩, by simp [RtExecPc.rank], rfl⟩
      · obtain ⟨keeps, pc⟩ := pricePaid_keeps (rtp.withBillsec noFreeSec)
        refine ⟨⟨keeps.cdrId, keeps.bacc⟩, ?_⟩
        rcases pc with pc | pc <;> rw [pc] <;> simp [RtExecPc.rank, RtExecPc.afterMark]

end Pricing

/-- A step after which the rest of a split is priced. -/
theorem Advances.of_pricePaid {run : RtExecRun} {rtp : Racc} (same : run.rtp.SameCall rtp)
    (late : (RtExecPc.check none).rank < run.pc.rank) : run.Advances (some rtp.pricePaid) := by
  obtain ⟨keeps, pc⟩ := pricePaid_keeps rtp
  refine .of_keeps (keeps.of_sameCall same) ?_ ?_
  · refine lt_of_le_of_lt ?_ late
    rcases pc with pc | pc <;> simp [pc, RtExecPc.rank]
  · rcases pc with pc | pc <;> rw [pc] <;> rfl

/-- Every step of `rt_exec` advances. -/
theorem next_advances (env : Env) (db : Db) (leg : Leg) (run : RtExecRun) :
    run.Advances (run.next env db leg).1 := by
  rcases run with ⟨rtp, pc⟩
  cases pc with
  | load =>
      obtain ⟨bacc_eq, kept, -⟩ := rtExecLoad_kept env db rtp
      obtain ⟨keeps, pc⟩ := price_keeps (rtExecLoad env db rtp).1
      have loads : (next env db leg ⟨rtp, .load⟩).1 = some (rtExecLoad env db rtp).1.price := rfl
      rw [loads]
      refine .of_keeps ⟨keeps.cdrId.trans kept.cdrId, keeps.bacc.trans bacc_eq⟩ ?_ ?_
      · rcases pc with ⟨rest, pc⟩ | pc
        · cases rest <;> simp [pc, RtExecPc.rank]
        · simp [pc, RtExecPc.rank]
      · rcases pc with ⟨rest, pc⟩ | pc <;> rw [pc] <;> rfl
  | check rest =>
      have later : (RtExecPc.add rest).rank < (RtExecPc.check rest).rank := by
        cases rest <;> simp [RtExecPc.rank]
      simp only [next]
      split
      · split
        · obtain ⟨keeps, rank, unmarked⟩ := saved_keeps (rtp.withRatingId 0) rest
          exact .of_keeps ⟨keeps.cdrId, keeps.bacc⟩ (rank.trans later) unmarked
        · exact .of_keeps ⟨rfl, rfl⟩ later rfl
      · obtain ⟨keeps, rank, unmarked⟩ := saved_keeps rtp rest
        exact .of_keeps keeps (rank.trans later) unmarked
  | add rest =>
      simp only [next]
      split
      · obtain ⟨keeps, rank, unmarked⟩ := saved_keeps rtp rest
        exact .of_keeps keeps rank unmarked
      · obtain ⟨keeps, rank, unmarked⟩ := saved_keeps (rtp.withRatingId db.rating.next) rest
        exact .of_keeps ⟨keeps.cdrId, keeps.bacc⟩ rank unmarked
  | splitCharge =>
      simp only [next]
      split
      · exact .of_pricePaid (.refl rtp) (by simp [RtExecPc.rank])
      · rename_i card _
        have same := rtBalanceExec_sameCall env db rtp card.start card.stop
        split
        · exact .of_keeps ⟨same.pre.cdrId, same.bacc⟩ (by simp [RtExecPc.rank]) rfl
        · exact .of_pricePaid same (by simp [RtExecPc.rank])
  | splitCount =>
      simp only [next]
      split
      · exact .of_pricePaid (.refl rtp) (by simp [RtExecPc.rank])
      · rename_i card _
        exact .of_pricePaid (freeBillsecExec_sameCall env db rtp card.start card.stop)
          (by simp [RtExecPc.rank])
  | mark =>
      refine .of_marked (.inl rfl) fun after member => ?_
      simp only [next] at member
      split at member
      · cases member
      · split at member
        · cases member
          exact ⟨⟨rfl, rfl⟩, by simp [RtExecPc.rank]⟩
        · cases member
  | charge =>
      refine .of_marked (.inr rfl) fun after member => ?_
      simp only [next] at member
      split at member
      · cases member
      · rename_i card _
        have same := rtBalanceExec_sameCall env db rtp card.start card.stop
        split at member
        · cases member
          exact ⟨⟨same.pre.cdrId, same.bacc⟩, by simp [RtExecPc.rank]⟩
        · cases member
  | count =>
      refine .of_marked (.inr rfl) fun after member => ?_
      simp only [next] at member
      split at member <;> cases member

/-- Only the mark of a call writes `cdrs`. -/
theorem next_cdrs (env : Env) (db : Db) (leg : Leg) (run : RtExecRun) :
    (run.next env db leg).2.cdrs =
      if run.pc = .mark then
        (cdrUpdateCdr env db (if run.rtp.pre.ratingId = 0 then -1 else run.rtp.pre.ratingId)
          run.rtp.pre.cdrId leg).cdrs
      else db.cdrs := by
  have charged (rtp : Racc) (start stop : String) :
      (rtBalanceExec env db rtp start stop).2.cdrs = db.cdrs := by
    simp only [rtBalanceExec, rtDataQBalAdd, Env.exec]
    split <;> rfl
  have counted (db : Db) (rtp : Racc) (start stop : String) :
      (freeBillsecExec env db rtp start stop).2.cdrs = db.cdrs := by
    simp only [freeBillsecExec]
    split
    · simp only [updateFreeBillsecBalance, Env.exec]
      split
      · split <;> rfl
      · rfl
    · simp only [createFreeBillsecBalance, Env.exec]
      split <;> rfl
  rcases run with ⟨rtp, pc⟩
  cases pc with
  | load =>
      obtain ⟨db_eq, -⟩ := rtExecLoad_frame env db rtp
      have loads : (next env db leg ⟨rtp, .load⟩).2 = (rtExecLoad env db rtp).2 := rfl
      have blocked (cardId : ℕ) : (rtDataQPcardSet env db cardId .block).cdrs = db.cdrs := by
        simp only [rtDataQPcardSet, Env.exec]
        split <;> rfl
      rw [loads, db_eq, if_neg (by simp)]
      simp only [rtRateSearching]
      split
      · simp only [rtPreratingProcess]
        split
        · exact blocked _
        split
        · split
          · exact blocked _
          · rfl
        · rfl
      · rfl
  | check rest =>
      simp only [next]
      split
      · split <;> rfl
      · rfl
  | add rest =>
      simp only [next]
      split <;> rfl
  | splitCharge =>
      simp only [next]
      split
      · rfl
      · exact charged _ _ _
  | splitCount =>
      simp only [next]
      split
      · rfl
      · exact counted _ _ _ _
  | mark =>
      simp only [next, if_true]
      split <;> rfl
  | charge =>
      simp only [next]
      split
      · rfl
      · exact charged _ _ _
  | count =>
      simp only [next]
      split
      · rfl
      · exact counted _ _ _ _

/-- A step marks the leg of its CDR when it is at the mark, and leaves the other marks. -/
theorem next_marked {env : Env} (reliable : env.Reliable) (db : Db) (leg : Leg) {run : RtExecRun}
    (stored : 0 < run.rtp.pre.cdrId) (leg' : Leg) (id : ℕ) :
    (run.next env db leg).2.Marked leg' id ↔
      db.Marked leg' id ∨
        run.pc = .mark ∧ leg' = leg ∧ id = run.rtp.pre.cdrId ∧ id ∈ db.cdrIds := by
  have cdrs_eq := next_cdrs env db leg run
  by_cases at_mark : run.pc = .mark
  · have mark_ne : (if run.rtp.pre.ratingId = 0 then -1 else run.rtp.pre.ratingId) ≠ 0 := by
      split
      · decide
      · assumption
    rw [if_pos at_mark] at cdrs_eq
    rw [Db.Marked.of_cdrs cdrs_eq, cdrUpdateCdr_marked reliable db _ leg mark_ne stored,
      and_iff_right at_mark]
  · rw [if_neg at_mark] at cdrs_eq
    rw [Db.Marked.of_cdrs cdrs_eq]
    simp [at_mark]

theorem next_cdrIds {env : Env} (reliable : env.Reliable) (db : Db) (leg : Leg) (run : RtExecRun) :
    (run.next env db leg).2.cdrIds = db.cdrIds := by
  rw [Db.cdrIds, next_cdrs]
  split
  · exact cdrUpdateCdr_cdrIds reliable db _ leg
  · rfl

end RtExecRun

/-! ## `rt_loop` -/

/-- A worker of `rt_loop`: the CDRs that it has not started, and the call that it
has in `rt_exec`. -/
structure LoopWorker where
  jobs : List Job
  call : Option (Job × RtExecRun) := none

/-- The workers of `rt_loop` at their batch.  The mutexes of the process only exclude some of the
schedules. -/
structure RtLoop where
  db : Db
  workers : List LoopWorker
  crashed : Bool := false

namespace RtLoop

/-- The CDRs of the batch are handed to the workers. -/
def start (db : Db) (queues : List (List Job)) : RtLoop where
  db
  workers := queues.map fun jobs => { jobs }

/-- A step of a worker: `rt_main` up to `rt_exec` on its next CDR, or a step of `rt_exec`. -/
def step (s : RtLoop) (w : ℕ) : Option RtLoop :=
  if s.crashed then none
  else
    match s.workers[w]? with
    | some { jobs := job :: jobs, call := none } =>
        some { s with
          workers := s.workers.set w
            { jobs, call := job.record.map fun rtp => (job, { rtp }) } }
    | some { jobs, call := some (job, run) } =>
        if run.Crashes then some { s with crashed := true }
        else
          match run.next job.env s.db job.leg with
          | (run', db) =>
              some { s with db, workers := s.workers.set w { jobs, call := run'.map (job, ·) } }
    | _ => none

/-- `rt_loop` returns: the workers are done. -/
def Returned (s : RtLoop) : Prop := ∀ worker ∈ s.workers, worker.jobs = [] ∧ worker.call = none

end RtLoop

/-- Under every schedule the loop goes on, and has marked every CDR of its batch when it returns. -/
def LoopMarks (db : Db) (queues : List (List Job)) : Prop :=
  ∀ schedule s, execAll RtLoop.step (RtLoop.start db queues) schedule = some s →
    s.crashed = false ∧
      (s.Returned → ∀ job ∈ queues.flatten, s.db.Marked job.leg job.cdr.id)

/-- `rt_main` has a lookup for the record type and the leg, and for an unknown type a context or a
trunk group on leg b. -/
def Job.LooksUp (job : Job) : Prop :=
  job.cdr.recType ≠ .voipV ∧
    (job.leg = .b → job.cdr.recType = .unkn → job.cdr.dstContext ≠ "" ∨ job.cdr.dstTgroup ≠ "")

instance (job : Job) : Decidable job.LooksUp := inferInstanceAs (Decidable (_ ∧ _))

/-- An account is looked up for the call, and there is a card for its row or it gets no price. -/
def Job.Progresses (job : Job) : Prop :=
  job.LooksUp ∧ ∀ rtp ∈ job.record,
    rtp.RowSafe ∨ (rtExecLoad job.env {} rtp).1.price.pc = .mark

/-- `rt_main` makes a record for the calls that it looks up. -/
theorem Job.record_isSome_iff (job : Job) : job.record.isSome = true ↔ job.LooksUp := by
  have tried : job.record.isSome =
      (triedMode job.leg job.cdr.recType (rtCdrToRating job.env job.cdr)).isSome := by
    rw [Job.record, rtMainRecord, Option.isSome_map, rtMainRacc_eq]
    cases triedMode job.leg job.cdr.recType (rtCdrToRating job.env job.cdr) with
    | none => rfl
    | some mode =>
        obtain ⟨rtp, found, -⟩ :=
          rtDataQRacc_baccId job.env mode (rtCdrToRating job.env job.cdr)
        rw [Option.bind_some, found]
        rfl
  have context : (rtCdrToRating job.env job.cdr).dstContext = job.cdr.dstContext := rfl
  have tgroup : (rtCdrToRating job.env job.cdr).dstTgroup = job.cdr.dstTgroup := rfl
  rw [tried, Job.LooksUp]
  cases job.leg <;> cases job.cdr.recType <;> simp [triedMode, fallbackOrder, context, tgroup]
  -- left: leg b of an unknown record type
  by_cases no_context : job.cdr.dstContext = "" <;> by_cases no_tgroup : job.cdr.dstTgroup = "" <;>
    simp [no_context, no_tgroup]

/-! ## Loading without a card -/

/-- Without a card the load of a call reads no table. -/
theorem rtExecLoad_cardless {env : Env} {rtp : Racc}
    (cardless : rtp.bacc.pcardPtr = none) (db : Db) :
    (rtExecLoad env db rtp).1 = (rtExecLoad env {} rtp).1 := by
  have searched (db : Db) :
      rtRateSearching env db { rtp with bplan := rtChkBplanPeriods rtp.bplan rtp.pre.ts } =
        (rtDataQRate env { rtp with bplan := rtChkBplanPeriods rtp.bplan rtp.pre.ts }, db) := by
    obtain ⟨-, bacc_eq, -⟩ :=
      rtDataQRate_frame env { rtp with bplan := rtChkBplanPeriods rtp.bplan rtp.pre.ts }
    have no_card := (congrArg Bacc.pcardPtr bacc_eq).trans cardless
    simp only [rtRateSearching]
    split
    · rename_i card _ card_eq
      rw [no_card] at card_eq
      cases card_eq
    · rfl
  obtain ⟨-, bacc_eq, -⟩ :=
    rtDataQRate_frame env { rtp with bplan := rtChkBplanPeriods rtp.bplan rtp.pre.ts }
  simp only [rtExecLoad, searched]
  generalize rtDataQRate env
    { rtp with bplan := rtChkBplanPeriods rtp.bplan rtp.pre.ts } = found at *
  have no_card : found.rounded.bacc.pcardPtr = none := by
    rw [(rounded_kept found).2.1, bacc_eq]
    exact cardless
  split
  · rfl
  · rw [no_card]
    cases found.rounded.rtm <;> rfl

/-! ## Calls of the workers -/

namespace RtLoop

/-- A call of a batch: the run of its record. -/
structure CallOk (batch : List Job) (job : Job) (run : RtExecRun) : Prop where
  member : job ∈ batch
  record : ∃ rtp ∈ job.record, run.Keeps rtp ∧ (run.pc = .load → run.rtp = rtp)

theorem CallOk.cdrId {batch : List Job} {job : Job} {run : RtExecRun} (ok : CallOk batch job run) :
    run.rtp.pre.cdrId = job.cdr.id := by
  obtain ⟨rtp, record, keeps, -⟩ := ok.record
  obtain ⟨-, mode, pre_eq⟩ := job.record_frame record
  rw [keeps.cdrId, pre_eq]
  rfl

theorem CallOk.next {batch : List Job} {job : Job} {run after : RtExecRun} {db : Db}
    (ok : CallOk batch job run) (goes : after ∈ (run.next job.env db job.leg).1) :
    CallOk batch job after := by
  obtain ⟨rtp, record, keeps, -⟩ := ok.record
  have advances := run.next_advances job.env db job.leg
  refine ⟨ok.member, rtp, record, ⟨?_, ?_⟩, fun load => ?_⟩
  · exact (advances.cdrId after goes).trans keeps.cdrId
  · exact (advances.bacc after goes).trans keeps.bacc
  · have rank := advances.rank after goes
    have top : run.pc.rank ≤ RtExecPc.rank .load := by
      cases run.pc with
      | check rest => cases rest <;> simp [RtExecPc.rank]
      | add rest => cases rest <;> simp [RtExecPc.rank]
      | _ => simp [RtExecPc.rank]
    rw [load] at rank
    omega

/-- What a step of a worker does. -/
theorem step_cases {s s' : RtLoop} {w : ℕ} (steps : s.step w = some s') :
    s.crashed = false ∧ ∃ worker, s.workers[w]? = some worker ∧
      ((∃ job jobs, worker = { jobs := job :: jobs } ∧
          s' = { s with
            workers := s.workers.set w
              { jobs, call := job.record.map fun rtp => (job, { rtp }) } }) ∨
        ∃ job run, worker.call = some (job, run) ∧
          (run.Crashes ∧ s' = { s with crashed := true } ∨
            ¬ run.Crashes ∧ s' = { s with
              db := (run.next job.env s.db job.leg).2
              workers := s.workers.set w { worker with
                call := (run.next job.env s.db job.leg).1.map (job, ·) } })) := by
  rw [step] at steps
  split at steps
  · cases steps
  · rename_i alive
    refine ⟨Bool.eq_false_iff.mpr alive, ?_⟩
    split at steps
    · rename_i job jobs found
      exact ⟨_, found, .inl ⟨job, jobs, rfl, (Option.some.inj steps).symm⟩⟩
    · rename_i jobs job run found
      refine ⟨_, found, .inr ⟨job, run, rfl, ?_⟩⟩
      split at steps
      · rename_i crashes
        exact .inl ⟨crashes, (Option.some.inj steps).symm⟩
      · rename_i goes
        exact .inr ⟨goes, (Option.some.inj steps).symm⟩
    · cases steps

/-- The ids stay, the CDRs left to the workers and their calls are of the batch. -/
structure OfBatch (db : Db) (batch : List Job) (s : RtLoop) : Prop where
  ids : s.db.cdrIds = db.cdrIds
  jobs : ∀ worker ∈ s.workers, ∀ job ∈ worker.jobs, job ∈ batch
  calls : ∀ worker ∈ s.workers, ∀ job run, worker.call = some (job, run) → CallOk batch job run

theorem ofBatch_start (db : Db) (queues : List (List Job)) :
    OfBatch db queues.flatten (start db queues) := by
  refine ⟨rfl, fun worker member job job_mem => ?_, fun worker member job run call => ?_⟩
  · obtain ⟨jobs, jobs_mem, rfl⟩ := List.mem_map.mp member
    exact List.mem_flatten.mpr ⟨jobs, jobs_mem, job_mem⟩
  · obtain ⟨jobs, -, rfl⟩ := List.mem_map.mp member
    cases call

theorem OfBatch.step {db : Db} {batch : List Job} {s s' : RtLoop} {w : ℕ} (ok : OfBatch db batch s)
    (steps : s.step w = some s') : OfBatch db batch s' := by
  obtain ⟨-, worker, found, ⟨job, jobs, rfl, rfl⟩ | ⟨job, run, call, ⟨-, rfl⟩ | ⟨-, rfl⟩⟩⟩ :=
    step_cases steps
  · have old := List.mem_of_getElem? found
    refine ⟨ok.ids, fun other member other_job job_mem => ?_,
      fun other member other_job run call => ?_⟩
    · rcases List.mem_or_eq_of_mem_set member with kept | rfl
      · exact ok.jobs other kept other_job job_mem
      · exact ok.jobs _ old other_job (List.mem_cons_of_mem job job_mem)
    · rcases List.mem_or_eq_of_mem_set member with kept | rfl
      · exact ok.calls other kept other_job run call
      · obtain ⟨rtp, record, pair⟩ := Option.map_eq_some_iff.mp call
        obtain ⟨rfl, rfl⟩ := Prod.mk.inj pair
        exact ⟨ok.jobs _ old job List.mem_cons_self, rtp, record, ⟨rfl, rfl⟩, fun _ => rfl⟩
  · exact ⟨ok.ids, ok.jobs, ok.calls⟩
  · have old := List.mem_of_getElem? found
    refine ⟨?_, fun other member other_job job_mem => ?_,
      fun other member other_job run' call' => ?_⟩
    · exact (RtExecRun.next_cdrIds job.reliable s.db job.leg run).trans ok.ids
    · rcases List.mem_or_eq_of_mem_set member with kept | rfl
      · exact ok.jobs other kept other_job job_mem
      · exact ok.jobs _ old other_job job_mem
    · rcases List.mem_or_eq_of_mem_set member with kept | rfl
      · exact ok.calls other kept other_job run' call'
      · obtain ⟨after, goes, pair⟩ := Option.map_eq_some_iff.mp call'
        obtain ⟨rfl, rfl⟩ := Prod.mk.inj pair
        exact (ok.calls _ old job run call).next goes

/-! ## The loop marks its batch -/

/-- The call has a card for its row, or is to be marked without one. -/
def SafeCall (run : RtExecRun) : Prop := run.rtp.RowSafe ∨ run.pc = .load ∨ run.pc = .mark

/-- The CDR is left to a worker, or a worker has its call in `rt_exec` and the call meets a
condition. -/
def Holds (s : RtLoop) (meets : RtExecRun → Prop) (job : Job) : Prop :=
  ∃ (w : ℕ) (worker : LoopWorker), s.workers[w]? = some worker ∧
    (job ∈ worker.jobs ∨ ∃ run, worker.call = some (job, run) ∧ meets run)

/-- A step of one worker takes nothing from the others. -/
theorem Holds.set {s : RtLoop} {meets : RtExecRun → Prop} {job : Job} {w : ℕ}
    {old new : LoopWorker} {db : Db} (held : s.Holds meets job) (found : s.workers[w]? = some old)
    (own : (job ∈ old.jobs ∨ ∃ run, old.call = some (job, run) ∧ meets run) →
      job ∈ new.jobs ∨ ∃ run, new.call = some (job, run) ∧ meets run) :
    Holds { s with db, workers := s.workers.set w new } meets job := by
  obtain ⟨i, worker, found_i, holds⟩ := held
  have in_range : w < s.workers.length := (List.getElem?_eq_some_iff.mp found).1
  by_cases same : w = i
  · subst same
    obtain rfl : old = worker := Option.some.inj (found.symm.trans found_i)
    exact ⟨w, new, by simp [in_range], own holds⟩
  · exact ⟨i, worker, by simp [List.getElem?_set_ne same, found_i], holds⟩

/-- A CDR that is left in no worker and no call is held by none. -/
theorem not_holds_of_returned {s : RtLoop} (returned : s.Returned) (meets : RtExecRun → Prop)
    (job : Job) : ¬ s.Holds meets job := by
  rintro ⟨w, worker, found, holds⟩
  obtain ⟨no_jobs, no_call⟩ := returned worker (List.mem_of_getElem? found)
  rcases holds with left | ⟨run, call, -⟩
  · rw [no_jobs] at left
    cases left
  · rw [no_call] at call
    cases call

section Marks

variable {db : Db} {batch : List Job}

/-- A call that makes progress does not crash, and goes on safely. -/
theorem SafeCall.next {job : Job} {run : RtExecRun} (safe : SafeCall run)
    (ok : CallOk batch job run) (progresses : job.Progresses) (db : Db) :
    ¬ run.Crashes ∧ ∀ after ∈ (run.next job.env db job.leg).1, SafeCall after := by
  have advances := run.next_advances job.env db job.leg
  by_cases row_safe : run.rtp.RowSafe
  · refine ⟨fun crashes => crashes.2 row_safe, fun after goes => .inl ?_⟩
    rw [Racc.RowSafe, advances.cdrId after goes, advances.bacc after goes]
    exact row_safe
  obtain ⟨cardless, -⟩ := not_or.mp row_safe
  rcases safe.resolve_left row_safe with load | mark
  · obtain ⟨rtp, record, keeps, started⟩ := ok.record
    have rtp_eq := started load
    have unpriced := (progresses.2 rtp record).resolve_left fun held =>
      row_safe (keeps.rowSafe_iff.mpr held)
    refine ⟨?_, fun after goes => .inr (.inr ?_)⟩
    · rintro ⟨⟨rest, check⟩, -⟩
      rw [load] at check
      cases check
    · rcases run with ⟨run_rtp, pc⟩
      obtain rfl : run_rtp = rtp := rtp_eq
      obtain rfl : pc = .load := load
      obtain rfl : (rtExecLoad job.env db run_rtp).1.price = after := Option.some.inj goes
      rw [rtExecLoad_cardless (not_not.mp cardless)]
      exact unpriced
  · refine ⟨?_, fun after goes => ?_⟩
    · rintro ⟨⟨rest, check⟩, -⟩
      rw [mark] at check
      cases check
    · have ends : (run.next job.env db job.leg).1 = none := by
        simp only [RtExecRun.next, mark, not_not.mp cardless]
        split <;> rfl
      rw [ends] at goes
      cases goes

/-- What the loop keeps while the calls of its batch make progress. -/
structure Marking (db : Db) (batch : List Job) (s : RtLoop) : Prop where
  ofBatch : OfBatch db batch s
  alive : s.crashed = false
  safe : ∀ worker ∈ s.workers, ∀ job run, worker.call = some (job, run) →
    SafeCall run ∧ (run.pc.afterMark = true → s.db.Marked job.leg job.cdr.id)
  held : ∀ job ∈ batch, s.db.Marked job.leg job.cdr.id ∨ s.Holds (fun _ => True) job

theorem marking_start (db : Db) (queues : List (List Job)) :
    Marking db queues.flatten (start db queues) := by
  refine ⟨ofBatch_start db queues, rfl, fun worker member job run call => ?_,
    fun job member => .inr ?_⟩
  · obtain ⟨jobs, -, rfl⟩ := List.mem_map.mp member
    cases call
  · obtain ⟨jobs, jobs_mem, job_mem⟩ := List.mem_flatten.mp member
    obtain ⟨w, found⟩ := List.getElem?_of_mem jobs_mem
    exact ⟨w, { jobs }, by simp [start, found], .inl job_mem⟩

theorem Marking.step {s s' : RtLoop} {w : ℕ} (marking : Marking db batch s)
    (stored : ∀ job ∈ batch, 0 < job.cdr.id ∧ job.cdr.id ∈ db.cdrIds)
    (progresses : ∀ job ∈ batch, job.Progresses) (steps : s.step w = some s') :
    Marking db batch s' := by
  have ok := marking.ofBatch
  have ok' := ok.step steps
  obtain ⟨-, worker, found, taken | ⟨job, run, call, moved⟩⟩ := step_cases steps
  · obtain ⟨job, jobs, rfl, rfl⟩ := taken
    have old := List.mem_of_getElem? found
    refine ⟨ok', marking.alive, fun other member other_job run call => ?_,
      fun other_job member => ?_⟩
    · rcases List.mem_or_eq_of_mem_set member with kept | rfl
      · exact marking.safe other kept other_job run call
      · obtain ⟨rtp, -, pair⟩ := Option.map_eq_some_iff.mp call
        obtain ⟨rfl, rfl⟩ := Prod.mk.inj pair
        exact ⟨.inr (.inl rfl), fun after => by cases after⟩
    · refine (marking.held other_job member).imp id fun held => held.set found ?_
      rintro (left | ⟨run, call, -⟩)
      · rcases List.mem_cons.mp left with rfl | later
        · have looked := (other_job.record_isSome_iff).mpr (progresses other_job member).1
          obtain ⟨rtp, record⟩ := Option.isSome_iff_exists.mp looked
          exact .inr ⟨{ rtp }, by rw [record, Option.map_some], trivial⟩
        · exact .inl later
      · cases call
  have old := List.mem_of_getElem? found
  have call_ok := ok.calls worker old job run call
  obtain ⟨safe, after_mark⟩ := marking.safe worker old job run call
  have job_mem := call_ok.member
  obtain ⟨alive, goes_safe⟩ := safe.next call_ok (progresses job job_mem) s.db
  obtain ⟨crashes, -⟩ | ⟨-, rfl⟩ := moved
  · exact absurd crashes alive
  have advances := run.next_advances job.env s.db job.leg
  have marks := fun leg id => RtExecRun.next_marked job.reliable s.db job.leg
    (call_ok.cdrId ▸ (stored job job_mem).1 : 0 < run.rtp.pre.cdrId) leg id
  have own_id : job.cdr.id ∈ s.db.cdrIds := by
    rw [ok.ids]
    exact (stored job job_mem).2
  -- at its mark or after it the call is marked after the step
  have marked (late : ∀ after ∈ (run.next job.env s.db job.leg).1, after.pc.afterMark = true) :
      (run.next job.env s.db job.leg).2.Marked job.leg job.cdr.id := by
    rw [marks]
    rcases advances.marked late with mark | after
    · exact .inr ⟨mark, rfl, call_ok.cdrId.symm, own_id⟩
    · exact .inl (after_mark after)
  refine ⟨ok', marking.alive, fun other member other_job other_run other_call => ?_,
    fun other_job member => ?_⟩
  · rcases List.mem_or_eq_of_mem_set member with kept | rfl
    · obtain ⟨other_safe, other_marked⟩ := marking.safe other kept other_job other_run other_call
      exact ⟨other_safe, fun after => (marks _ _).mpr (.inl (other_marked after))⟩
    · obtain ⟨after, goes, pair⟩ := Option.map_eq_some_iff.mp other_call
      obtain ⟨rfl, rfl⟩ := Prod.mk.inj pair
      refine ⟨goes_safe after goes, fun late => marked fun other other_goes => ?_⟩
      obtain rfl : after = other := Option.some.inj (goes.symm.trans other_goes)
      exact late
  · rcases marking.held other_job member with before | held
    · exact .inl ((marks _ _).mpr (.inl before))
    by_cases ended : (run.next job.env s.db job.leg).1 = none ∧ other_job = job
    · obtain ⟨none, rfl⟩ := ended
      exact .inl (marked fun after goes => by rw [none] at goes; cases goes)
    · refine .inr (held.set found ?_)
      rintro (left | ⟨other_run, other_call, -⟩)
      · exact .inl left
      · rw [call] at other_call
        obtain ⟨rfl, rfl⟩ := Prod.mk.inj (Option.some.inj other_call)
        obtain ⟨after, goes⟩ := Option.ne_none_iff_exists'.mp fun none => ended ⟨none, rfl⟩
        exact .inr ⟨after, by rw [goes, Option.map_some], trivial⟩

end Marks

/-! ## The loop returns -/

/-- The steps that a worker has left, at most. -/
def workerRank (worker : LoopWorker) : ℤ :=
  12 * worker.jobs.length + worker.call.elim 0 fun call => (call.2.pc.rank : ℤ)

/-- The steps that the loop has left, at most. -/
def rank (s : RtLoop) : ℕ := (total workerRank s.workers).toNat + if s.crashed then 0 else 1

theorem step_lowers_rank {s s' : RtLoop} {w : ℕ} (steps : s.step w = some s') :
    s'.rank < s.rank := by
  have nonneg (cells : List LoopWorker) : 0 ≤ total workerRank cells := by
    refine total_nonneg fun worker _ => ?_
    rw [workerRank]
    cases worker.call <;> simp only [Option.elim_none, Option.elim_some] <;> omega
  obtain ⟨alive, worker, found, ⟨job, jobs, rfl, rfl⟩ | ⟨job, run, call, ⟨-, rfl⟩ | ⟨-, rfl⟩⟩⟩ :=
    step_cases steps
  · have moved := total_set workerRank
      { jobs, call := job.record.map fun rtp => (job, { rtp }) } found
    have lowered : workerRank { jobs, call := job.record.map fun rtp => (job, { rtp }) } <
        workerRank { jobs := job :: jobs } := by
      cases job.record <;>
        simp only [workerRank, RtExecPc.rank, Option.map_none, Option.map_some, Option.elim_none,
          Option.elim_some, List.length_cons] <;>
        omega
    have before :=
      nonneg (s.workers.set w { jobs, call := job.record.map fun rtp => (job, { rtp }) })
    simp only [rank]
    omega
  · simp [rank, alive]
  · have advances := run.next_advances job.env s.db job.leg
    have moved := total_set workerRank
      { worker with call := (run.next job.env s.db job.leg).1.map (job, ·) } found
    have lowered : workerRank { worker with
        call := (run.next job.env s.db job.leg).1.map (job, ·) } < workerRank worker := by
      rw [workerRank, workerRank, call]
      cases goes : (run.next job.env s.db job.leg).1 with
      | none =>
          have rank_pos : 0 < run.pc.rank := by
            cases run.pc with
            | check rest => cases rest <;> simp [RtExecPc.rank]
            | add rest => cases rest <;> simp [RtExecPc.rank]
            | _ => simp [RtExecPc.rank]
          simp only [Option.map_none, Option.elim_none, Option.elim_some]
          omega
      | some after =>
          have := advances.rank after goes
          simp only [Option.map_some, Option.elim_some]
          omega
    have before := nonneg (s.workers.set w
      { worker with call := (run.next job.env s.db job.leg).1.map (job, ·) })
    simp only [rank]
    omega

/-- The loop that cannot go on has returned. -/
theorem returned_of_stuck {s : RtLoop} (alive : s.crashed = false) (stuck : ∀ w, s.step w = none) :
    s.Returned := by
  intro worker member
  obtain ⟨w, found⟩ := List.getElem?_of_mem member
  have no_step := stuck w
  rw [step, alive, if_neg Bool.false_ne_true, found] at no_step
  rcases worker with ⟨jobs, call⟩
  cases call with
  | none =>
      cases jobs with
      | nil => exact ⟨rfl, rfl⟩
      | cons job jobs => cases no_step
  | some held =>
      obtain ⟨job, run⟩ := held
      by_cases crashes : run.Crashes
      · simp [crashes] at no_step
      · simp [crashes] at no_step

/-! ## Calls that keep the loop from marking -/

section Unmarked

variable {db : Db} {batch : List Job}

/-- A CDR of the batch is not marked. -/
def Unmarked (db : Db) (batch : List Job) (job : Job) (s : RtLoop) : Prop :=
  OfBatch db batch s ∧ ¬ s.db.Marked job.leg job.cdr.id

/-- A CDR that is not looked up is marked by no call. -/
theorem Unmarked.step {s s' : RtLoop} {w : ℕ} {job : Job} (kept : Unmarked db batch job s)
    (stored : ∀ job ∈ batch, 0 < job.cdr.id)
    (distinct : ∀ job ∈ batch, ∀ job' ∈ batch, job.cdr.id = job'.cdr.id → job = job')
    (member : job ∈ batch) (unlooked : job.record = none) (steps : s.step w = some s') :
    Unmarked db batch job s' := by
  obtain ⟨ok, unmarked⟩ := kept
  refine ⟨ok.step steps, ?_⟩
  obtain ⟨-, worker, found, ⟨other, jobs, rfl, rfl⟩ | ⟨other, run, call, ⟨-, rfl⟩ | ⟨-, rfl⟩⟩⟩ :=
    step_cases steps
  · exact unmarked
  · exact unmarked
  · have call_ok := ok.calls worker (List.mem_of_getElem? found) other run call
    have run_stored : 0 < run.rtp.pre.cdrId := by
      rw [call_ok.cdrId]
      exact stored other call_ok.member
    rw [RtExecRun.next_marked other.reliable s.db other.leg run_stored]
    rintro (marked | ⟨-, -, own, -⟩)
    · exact unmarked marked
    · obtain rfl := distinct job member other call_ok.member (own.trans call_ok.cdrId)
      obtain ⟨rtp, record, -⟩ := call_ok.record
      rw [unlooked] at record
      cases record

/-- A call that needs a card gets no further than to its row. -/
def Needing (run : RtExecRun) : Prop :=
  ¬ run.rtp.RowSafe ∧ (run.pc = .load ∨ ∃ rest, run.pc = .check rest)

/-- The process has crashed, or a call that needs a card is held. -/
def Stopping (db : Db) (batch : List Job) (job : Job) (s : RtLoop) : Prop :=
  OfBatch db batch s ∧ (s.crashed = true ∨ s.Holds Needing job)

/-- A call that needs a card stays with its worker until the process crashes. -/
theorem Stopping.step {s s' : RtLoop} {w : ℕ} {job : Job} {rtp : Racc}
    (kept : Stopping db batch job s) (record : job.record = some rtp) (needed : ¬ rtp.RowSafe)
    (priced : (rtExecLoad job.env {} rtp).1.price.pc ≠ .mark) (steps : s.step w = some s') :
    Stopping db batch job s' := by
  obtain ⟨ok, crashed | held⟩ := kept
  · rw [RtLoop.step, if_pos crashed] at steps
    cases steps
  refine ⟨ok.step steps, ?_⟩
  obtain ⟨-, worker, found, ⟨other, jobs, rfl, rfl⟩ | ⟨other, run, call, ⟨-, rfl⟩ | ⟨goes, rfl⟩⟩⟩ :=
    step_cases steps
  · refine .inr (held.set found ?_)
    rintro (left | ⟨run, call, -⟩)
    · rcases List.mem_cons.mp left with rfl | later
      · exact .inr ⟨{ rtp }, by rw [record, Option.map_some], needed, .inl rfl⟩
      · exact .inl later
    · cases call
  · exact .inl rfl
  · refine .inr (held.set found ?_)
    rintro (left | ⟨own_run, own_call, own_needed, pc⟩)
    · exact .inl left
    rw [call] at own_call
    obtain ⟨rfl, rfl⟩ := Prod.mk.inj (Option.some.inj own_call)
    have call_ok := ok.calls worker (List.mem_of_getElem? found) other run call
    obtain ⟨own_rtp, own_record, keeps, started⟩ := call_ok.record
    obtain rfl : rtp = own_rtp := Option.some.inj (record.symm.trans own_record)
    rcases pc with load | check
    swap
    · exact absurd ⟨check, own_needed⟩ goes
    have cardless : rtp.bacc.pcardPtr = none := not_not.mp (not_or.mp needed).1
    have advances := run.next_advances other.env s.db other.leg
    have loads : (run.next other.env s.db other.leg).1 =
        some (rtExecLoad other.env {} rtp).1.price := by
      rw [← rtExecLoad_cardless cardless s.db, ← started load]
      simp only [RtExecRun.next, load]
    refine .inr ⟨(rtExecLoad other.env {} rtp).1.price, by rw [loads, Option.map_some], ?_, .inr ?_⟩
    · rw [Racc.RowSafe, advances.cdrId _ loads, advances.bacc _ loads]
      exact own_needed
    · exact (RtExecRun.price_keeps _).2.resolve_right priced

end Unmarked

end RtLoop

/-! ## Batches that are fetched -/

section Fetched

variable {s : RatingSystem} {leg : Leg}

/-- The CDRs of a fetch have unmarked rows of different ids. -/
theorem cdrGetCdrs_rows (serial : s.db.cdrIds.Nodup) :
    ((s.cdrGetCdrs leg).map Cdr.id).Nodup ∧
      ∀ cdr ∈ s.cdrGetCdrs leg, cdr.id ∈ s.db.cdrIds ∧ ¬ s.db.Marked leg cdr.id := by
  have same_id : ∀ (row : CdrRow) (cdr : Cdr),
      ((s.cdrs.find? fun cdr => cdr.2.id = row.id).map Prod.snd) = some cdr →
      cdr.id = row.id := by
    intro row cdr found
    obtain ⟨pair, pair_found, rfl⟩ := Option.map_eq_some_iff.mp found
    simpa only [decide_eq_true_eq] using List.find?_some pair_found
  have sublist : ∀ rows : List CdrRow, ((rows.filterMap fun row =>
      (s.cdrs.find? fun cdr => cdr.2.id = row.id).map Prod.snd).map Cdr.id).Sublist
        (rows.map CdrRow.id) := by
    intro rows
    induction rows with
    | nil => exact .slnil
    | cons row rest induction =>
        rw [List.filterMap_cons, List.map_cons]
        cases found : (s.cdrs.find? fun cdr => cdr.2.id = row.id).map Prod.snd with
        | none => exact induction.cons _
        | some cdr =>
            rw [List.map_cons, same_id row cdr found]
            exact induction.cons_cons _
  constructor
  · rw [RatingSystem.cdrGetCdrs, List.map_take]
    refine ((List.take_sublist _ _).trans ((sublist _).trans ?_)).nodup serial
    exact List.filter_sublist.map _
  · intro cdr member
    obtain ⟨row, row_mem, found⟩ := List.mem_filterMap.mp (List.mem_of_mem_take member)
    obtain ⟨row_mem, unmarked⟩ := List.mem_filter.mp row_mem
    have cdr_id := same_id row cdr found
    refine ⟨List.mem_map.mpr ⟨row, row_mem, cdr_id.symm⟩, ?_⟩
    rintro ⟨other, other_mem, other_id, marked⟩
    obtain rfl := List.inj_on_of_nodup_map serial other_mem row_mem (other_id.trans cdr_id)
    exact marked (by simpa using unmarked)

/-- A CDR whose leg is marked is in no later batch. -/
theorem not_fetched_of_marked (serial : s.db.cdrIds.Nodup) {id : ℕ} (marked : s.db.Marked leg id) :
    ∀ cdr ∈ s.cdrGetCdrs leg, cdr.id ≠ id := by
  rintro cdr member rfl
  exact ((cdrGetCdrs_rows serial).2 cdr member).2 marked

/-- Under every schedule the loop marks its whole batch exactly when each call of it
makes progress. -/
theorem loopMarks_iff_progresses (serial : s.db.cdrIds.Nodup)
    (positive : ∀ id ∈ s.db.cdrIds, 0 < id)
    {queues : List (List Job)} (fetched : queues.flatten.map Job.cdr = s.cdrGetCdrs leg)
    (legs : ∀ job ∈ queues.flatten, job.leg = leg) :
    LoopMarks s.db queues ↔ ∀ job ∈ queues.flatten, job.Progresses := by
  have fetched_rows : ((s.cdrGetCdrs leg).map Cdr.id).Nodup ∧
      ∀ cdr ∈ s.cdrGetCdrs leg, cdr.id ∈ s.db.cdrIds ∧ ¬ s.db.Marked leg cdr.id :=
    cdrGetCdrs_rows serial
  obtain ⟨ids_distinct, rows⟩ := fetched_rows
  rw [← fetched, List.map_map] at ids_distinct
  rw [← fetched] at rows
  have distinct : ∀ job ∈ queues.flatten, ∀ job' ∈ queues.flatten,
      job.cdr.id = job'.cdr.id → job = job' := fun job member job' member' same =>
    List.inj_on_of_nodup_map ids_distinct member member' same
  have stored : ∀ job ∈ queues.flatten, 0 < job.cdr.id ∧ job.cdr.id ∈ s.db.cdrIds := by
    intro job member
    have own := (rows job.cdr (List.mem_map_of_mem member)).1
    exact ⟨positive _ own, own⟩
  constructor
  · intro marks job member
    obtain ⟨schedule, ended, executed, stuck⟩ :=
      exists_execAll_stuck RtLoop.step_lowers_rank (RtLoop.start s.db queues)
    have run := GuardedRun.true_iff_execAll.mpr executed
    obtain ⟨alive, returns⟩ := marks schedule ended executed
    have returned := RtLoop.returned_of_stuck alive stuck
    constructor
    · refine (job.record_isSome_iff).mp (Option.isSome_iff_ne_none.mpr fun unlooked => ?_)
      have unmarked : RtLoop.Unmarked s.db queues.flatten job ended := by
        refine run.preserves (fun _ steps kept => ?_) ⟨RtLoop.ofBatch_start s.db queues, ?_⟩
        · exact kept.step (fun job member => (stored job member).1) distinct member unlooked steps
        · rw [legs job member]
          exact (rows job.cdr (List.mem_map_of_mem member)).2
      exact unmarked.2 (returns returned job member)
    · intro rtp record
      by_contra stops
      obtain ⟨needed, priced⟩ := not_or.mp stops
      have stopping : RtLoop.Stopping s.db queues.flatten job ended := by
        refine run.preserves (fun _ steps kept => kept.step record needed priced steps)
          ⟨RtLoop.ofBatch_start s.db queues, .inr ?_⟩
        obtain ⟨jobs, jobs_mem, job_mem⟩ := List.mem_flatten.mp member
        obtain ⟨w, found⟩ := List.getElem?_of_mem jobs_mem
        exact ⟨w, { jobs }, by simp [RtLoop.start, found], .inl job_mem⟩
      rcases stopping.2 with crashed | held
      · rw [alive] at crashed
        cases crashed
      · exact RtLoop.not_holds_of_returned returned RtLoop.Needing job held
  · intro progresses schedule ended executed
    have marking : RtLoop.Marking s.db queues.flatten ended :=
      (GuardedRun.true_iff_execAll.mpr executed).preserves
        (fun _ steps kept => kept.step stored progresses steps)
        (RtLoop.marking_start s.db queues)
    refine ⟨marking.alive, fun returned job member => ?_⟩
    exact (marking.held job member).resolve_right
      (RtLoop.not_holds_of_returned returned (fun _ => True) job)

end Fetched

/-- A batch of one CDR is marked. -/
theorem oneCall_marked :
    LoopMarks
      { cdrs := [⟨1, 0, 0⟩] }
      [[freeSecondsCall 0 1 "100" 60]] := by
  let s : RatingSystem :=
    { db := { cdrs := [⟨1, 0, 0⟩] }, cdrs := [("1", (freeSecondsCall 0 1 "100" 60).cdr)]
      threads := [], batches := [] }
  have fetched : [(freeSecondsCall 0 1 "100" 60).cdr] = s.cdrGetCdrs .a := by decide
  have progresses : (freeSecondsCall 0 1 "100" 60).Progresses := by
    refine ⟨by decide, fun rtp record => .inl (.inl ?_)⟩
    have card : ∀ rtp ∈ (freeSecondsCall 0 1 "100" 60).record, rtp.bacc.pcardPtr ≠ none := by
      decide +kernel
    exact card rtp record
  refine (@loopMarks_iff_progresses s .a (by decide) (by decide)
    [[freeSecondsCall 0 1 "100" 60]] fetched ?_).mpr ?_
  · simp [freeSecondsCall]
  · simpa using progresses

/-- A CDR of an unknown record type that names neither context nor trunk group of
its destination. -/
def unroutedCall : Job :=
  let call := freeSecondsCall 0 1 "100" 60
  { call with leg := .b, cdr := { call.cdr with recType := .unkn } }

/-- `rt_loop` returns with the unrouted CDR unmarked. -/
theorem unroutedCall_unmarked :
    ¬ ∀ (s : RatingSystem) (leg : Leg) (queues : List (List Job)), s.db.cdrIds.Nodup →
      (∀ id ∈ s.db.cdrIds, 0 < id) → queues.flatten.map Job.cdr = s.cdrGetCdrs leg →
        (∀ job ∈ queues.flatten, job.leg = leg) → LoopMarks s.db queues := by
  intro claim
  have marks := claim
    { db := { cdrs := [⟨1, 0, 0⟩] }, cdrs := [("1", unroutedCall.cdr)], threads := [],
      batches := [] }
    .b [[unroutedCall]] (by decide) (by decide) (by decide) (by simp [unroutedCall])
  have unlooked : unroutedCall.record = none := by decide +kernel
  obtain ⟨-, returns⟩ := marks [0]
    { db := { cdrs := [⟨1, 0, 0⟩] }, workers := [{ jobs := [] }] }
    (by simp [execAll, RtLoop.step, RtLoop.start, unlooked])
  have marked := returns (by simp [RtLoop.Returned]) unroutedCall (by simp)
  exact absurd marked (by decide)

end RateEngine
