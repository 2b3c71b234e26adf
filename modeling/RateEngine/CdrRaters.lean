import RateEngine.OnlineOffline
import RateEngine.RatingRefinement

/-!
# Raters of CDRs

The janitor of the call table inserts the CDR of an ended call and rates it at once; the batch rater
fetches the CDRs whose leg is unrated and rates them.  Both run `rt_exec`, and their statements
interleave: the mutex of the process covers the duplicate check with the insertion, and the charge.
This file takes `rt_exec` apart into those steps and puts the raters of all processes on one
database.
-/

namespace RateEngine

/-! ## `rt_exec` in steps -/

/-- The next step of `rt_exec`: load and price; check for an old row and insert the new one, with
the seconds that follow when the row is the free part of a split; charge and count the free part;
mark, charge and count the call. -/
inductive RtExecPc where
  | load
  | check (rest : Option ℤ)
  | add (rest : Option ℤ)
  | splitCharge
  | splitCount
  | mark
  | charge
  | count
deriving DecidableEq, Repr

/-- A call in `rt_exec`. -/
structure RtExecRun where
  rtp : Racc
  pc : RtExecPc := .load
deriving DecidableEq, Repr

namespace Racc

/-- Pricing has failed: no row, and the leg is marked `-1`. -/
def failed (rtp : Racc) : RtExecRun := ⟨rtp.withRatingId (-1), .mark⟩

/-- `rt_double_rating` from the label `no_free_billsec` on. -/
def pricePaid (rtp : Racc) : RtExecRun :=
  match calcCpriceGroup rtp with
  | (ret, rtp) => if ret = -1 then rtp.failed else ⟨rtp, .check none⟩

/-- `rt_double_rating` up to its first row. -/
def priceSplit (rtp : Racc) : RtExecRun :=
  if 0 < rtp.freeSec then
    match calcCpriceGroup (rtp.withBillsec rtp.freeSec) with
    | (ret, free) =>
        if ret = 0 then ⟨free, .check (some (rtp.pre.billsec - rtp.freeSec))⟩
        else if ret = 1 then (free.withBillsec rtp.pre.billsec).pricePaid
        else free.failed
  else rtp.pricePaid

/-- The `switch` of `rt_exec` up to its first row. -/
def price (rtp : Racc) : RtExecRun :=
  match rtp.bplan.calcFuncs with
  | none => rtp.failed
  | some _ =>
      match calcCpriceGroup rtp with
      | (ret, rtp) =>
          if ret = 0 then ⟨rtp, .check none⟩
          else if ret = 1 then rtp.priceSplit
          else rtp.failed

/-- After `rt_rating_save`: mark the call, or charge the free part of a split and price the rest. -/
def saved (rtp : Racc) : Option ℤ → RtExecRun
  | none => ⟨rtp, .mark⟩
  | some noFreeSec =>
      let rtp := rtp.withBillsec noFreeSec
      if rtp.datedCard.isSome then ⟨rtp, .splitCharge⟩ else rtp.pricePaid

end Racc

namespace RtExecRun

/-- One step of `rt_exec`; `none` when it returns. -/
def next (env : Env) (db : Db) (leg : Leg) (run : RtExecRun) : Option RtExecRun × Db :=
  let rtp := run.rtp
  match run.pc with
  | .load =>
      match rtExecLoad env db rtp with
      | (rtp, db) => (some rtp.price, db)
  | .check rest =>
      if 0 < rtp.pre.cdrId then
        match env.select .ratingDup
            (db.rating.select (RatingRow.isOf rtp.pre.cdrId rtp.bacc.id rtp.pre.rateId)) with
        | some (_ :: _) => (some ((rtp.withRatingId 0).saved rest), db)
        | _ => (some ⟨rtp, .add rest⟩, db)
      else (some (rtp.saved rest), db)
  | .add rest =>
      if env.lost .ratingAdd then (some (rtp.saved rest), db)
      else
        (some ((rtp.withRatingId db.rating.next).saved rest),
          { db with rating := db.rating.insert rtp.ratingRow })
  | .splitCharge =>
      match rtp.bacc.pcardPtr with
      | none => (some rtp.pricePaid, db)
      | some card =>
          match rtBalanceExec env db rtp card.start card.stop with
          | (rtp, db) =>
              (some (if rtp.pre.freeBillsecLimit ≠ 0 then ⟨rtp, .splitCount⟩ else rtp.pricePaid),
                db)
  | .splitCount =>
      match rtp.bacc.pcardPtr with
      | none => (some rtp.pricePaid, db)
      | some card =>
          match freeBillsecExec env db rtp card.start card.stop with
          | (rtp, db) => (some rtp.pricePaid, db)
  | .mark =>
      if rtp.pre.ratingId = 0 then (none, cdrUpdateCdr env db (-1) rtp.pre.cdrId leg)
      else
        (if rtp.bacc.pcardPtr.isSome ∧ 0 < rtp.pre.ratingId then some ⟨rtp, .charge⟩ else none,
          cdrUpdateCdr env db rtp.pre.ratingId rtp.pre.cdrId leg)
  | .charge =>
      match rtp.bacc.pcardPtr with
      | none => (none, db)
      | some card =>
          match rtBalanceExec env db rtp card.start card.stop with
          | (rtp, db) =>
              (if rtp.pre.freeBillsecLimit ≠ 0 ∧ rtp.pre.ratingModeId < RtMode.sms.id then
                some ⟨rtp, .count⟩
              else none, db)
  | .count =>
      match rtp.bacc.pcardPtr with
      | none => (none, db)
      | some card => (none, (freeBillsecExec env db rtp card.start card.stop).2)

/-- One step of a call that nothing else interleaves with. -/
def Goes (env : Env) (leg : Leg) (a b : Option RtExecRun × Db) : Prop :=
  ∃ run, a.1 = some run ∧ run.next env a.2 leg = b

/-- The steps of a call that is rated alone. -/
def Reaches (env : Env) (leg : Leg) : Option RtExecRun × Db → Option RtExecRun × Db → Prop :=
  Relation.ReflTransGen (Goes env leg)

section Alone

variable (env : Env) (db : Db) (leg : Leg) (rtp : Racc)

/-- From the mark on the steps are the end of `rt_exec`. -/
theorem reaches_settle :
    Reaches env leg (some ⟨rtp, .mark⟩, db) (none, (rtExecSettle env db rtp leg).2) := by
  have marks {next : Option RtExecRun × Db}
      (next_eq : RtExecRun.next env db leg ⟨rtp, .mark⟩ = next) :
      Reaches env leg (some ⟨rtp, .mark⟩, db) next := .single ⟨_, rfl, next_eq⟩
  simp only [rtExecSettle]
  by_cases unrated : rtp.pre.ratingId = 0
  · rw [if_pos unrated]
    exact marks (by simp only [next, if_pos unrated])
  rw [if_neg unrated]
  generalize marked : cdrUpdateCdr env db rtp.pre.ratingId rtp.pre.cdrId leg = db'
  cases card_eq : rtp.bacc.pcardPtr with
  | none => exact marks (by simp [next, if_neg unrated, card_eq, marked])
  | some card =>
      dsimp only
      by_cases rated : 0 < rtp.pre.ratingId
      · rw [if_pos rated]
        have first : Reaches env leg (some ⟨rtp, .mark⟩, db) (some ⟨rtp, .charge⟩, db') :=
          marks (by simp [next, if_neg unrated, card_eq, marked, rated])
        refine first.trans ?_
        obtain ⟨-, bacc_eq, -⟩ := rtBalanceExec_frame env db' rtp card.start card.stop
        rcases charged : rtBalanceExec env db' rtp card.start card.stop with ⟨rtp', db''⟩
        have card_eq' : rtp'.bacc.pcardPtr = some card := by
          rw [charged] at bacc_eq
          rw [← card_eq, ← bacc_eq]
        have charges {next : Option RtExecRun × Db}
            (next_eq : RtExecRun.next env db' leg ⟨rtp, .charge⟩ = next) :
            Reaches env leg (some ⟨rtp, .charge⟩, db') next := .single ⟨_, rfl, next_eq⟩
        dsimp only
        split
        · rename_i counts
          have first : Reaches env leg (some ⟨rtp, .charge⟩, db') (some ⟨rtp', .count⟩, db'') :=
            charges (by simp [next, card_eq, charged, counts])
          exact first.trans (.single ⟨_, rfl, by simp [next, card_eq']⟩)
        · rename_i uncounted
          exact charges (by simp [next, card_eq, charged, uncounted])
      · rw [if_neg rated]
        exact marks (by simp [next, if_neg unrated, card_eq, marked, rated])

/-- The check and the insertion are `rt_rating_save`. -/
theorem reaches_saved (rest : Option ℤ) :
    Reaches env leg (some ⟨rtp, .check rest⟩, db)
      (some ((rtRatingSave env db rtp).1.saved rest), (rtRatingSave env db rtp).2) := by
  have checks {next : Option RtExecRun × Db}
      (next_eq : RtExecRun.next env db leg ⟨rtp, .check rest⟩ = next) :
      Reaches env leg (some ⟨rtp, .check rest⟩, db) next := .single ⟨_, rfl, next_eq⟩
  by_cases stored : 0 < rtp.pre.cdrId
  · simp only [rtRatingSave, if_pos stored, rtDataQRatingAdd]
    split
    · rename_i found
      exact checks (by simp only [next, if_pos stored, found]; rfl)
    · rename_i absent
      have first : Reaches env leg (some ⟨rtp, .check rest⟩, db) (some ⟨rtp, .add rest⟩, db) := by
        refine checks ?_
        simp only [next, if_pos stored]
      refine first.trans (.single ⟨_, rfl, ?_⟩)
      simp only [next]
      split <;> rfl
  · simp only [rtRatingSave, if_neg stored]
    exact checks (by simp only [next, if_neg stored])

/-- The second part of a double rating and the end of `rt_exec`. -/
theorem reaches_pricePaid :
    Reaches env leg (some rtp.pricePaid, db)
      (none,
        (rtExecSettle env (afterDoubleRating (rtDoubleRatingPaid env db rtp)).2
          (afterDoubleRating (rtDoubleRatingPaid env db rtp)).1 leg).2) := by
  simp only [Racc.pricePaid, rtDoubleRatingPaid]
  rcases calcCpriceGroup rtp with ⟨ret, priced⟩
  dsimp only
  split
  · exact reaches_settle env db leg _
  · exact (reaches_saved env db leg priced none).trans (reaches_settle env _ leg _)

/-- The charge between the two parts of a double rating. -/
theorem reaches_splitCharge (noFreeSec : ℤ) :
    Reaches env leg (some (rtp.saved (some noFreeSec)), db)
      (some (rtDoubleRatingCharge env db (rtp.withBillsec noFreeSec)).1.pricePaid,
        (rtDoubleRatingCharge env db (rtp.withBillsec noFreeSec)).2) := by
  simp only [Racc.saved]
  generalize rtp.withBillsec noFreeSec = rtp
  cases card_eq : rtp.bacc.pcardPtr with
  | none =>
      simp only [Racc.datedCard, rtDoubleRatingCharge, card_eq]
      exact .refl
  | some card =>
      by_cases dated : card.start ≠ "" ∧ card.stop ≠ ""
      · have dated_card : rtp.datedCard.isSome = true := by
          simp [Racc.datedCard, card_eq, Option.filter_some, dated.1, dated.2]
        rw [if_pos dated_card]
        simp only [rtDoubleRatingCharge, card_eq, if_pos dated]
        obtain ⟨-, bacc_eq, -⟩ := rtBalanceExec_frame env db rtp card.start card.stop
        rcases charged : rtBalanceExec env db rtp card.start card.stop with ⟨rtp', db'⟩
        have card_eq' : rtp'.bacc.pcardPtr = some card := by
          rw [charged] at bacc_eq
          rw [← card_eq, ← bacc_eq]
        have charges {next : Option RtExecRun × Db}
            (next_eq : RtExecRun.next env db leg ⟨rtp, .splitCharge⟩ = next) :
            Reaches env leg (some ⟨rtp, .splitCharge⟩, db) next := .single ⟨_, rfl, next_eq⟩
        dsimp only
        split
        · rename_i counts
          have first : Reaches env leg (some ⟨rtp, .splitCharge⟩, db)
              (some ⟨rtp', .splitCount⟩, db') := charges (by simp [next, card_eq, charged, counts])
          exact first.trans (.single ⟨_, rfl, by simp [next, card_eq']⟩)
        · rename_i uncounted
          exact charges (by simp [next, card_eq, charged, uncounted])
      · have undated : ¬ rtp.datedCard.isSome = true := by
          simpa [Racc.datedCard, card_eq, Option.filter_some] using dated
        rw [if_neg undated]
        simp only [rtDoubleRatingCharge, card_eq, if_neg dated]
        exact .refl

/-- `rt_double_rating` and the end of `rt_exec`. -/
theorem reaches_priceSplit :
    Reaches env leg (some rtp.priceSplit, db)
      (none,
        (rtExecSettle env (afterDoubleRating (rtDoubleRating env db rtp)).2
          (afterDoubleRating (rtDoubleRating env db rtp)).1 leg).2) := by
  simp only [Racc.priceSplit, rtDoubleRating]
  split
  · rcases calcCpriceGroup (rtp.withBillsec rtp.freeSec) with ⟨ret, free⟩
    dsimp only
    split
    · exact ((reaches_saved env db leg free _).trans (reaches_splitCharge env _ leg _ _)).trans
        (reaches_pricePaid env _ leg _)
    split
    · exact reaches_pricePaid env db leg _
    · exact reaches_settle env db leg _
  · exact reaches_pricePaid env db leg rtp

/-- The `switch` of `rt_exec` and its end. -/
theorem reaches_price :
    Reaches env leg (some rtp.price, db)
      (none, (rtExecSettle env (rtExecPrice env db rtp).2 (rtExecPrice env db rtp).1 leg).2) := by
  simp only [Racc.price, rtExecPrice]
  cases rtp.bplan.calcFuncs with
  | none => exact reaches_settle env db leg _
  | some tr =>
      rcases calcCpriceGroup rtp with ⟨ret, priced⟩
      dsimp only
      split
      · exact (reaches_saved env db leg priced none).trans (reaches_settle env _ leg _)
      split
      · exact reaches_priceSplit env db leg priced
      · exact reaches_settle env db leg _

/-- A call that is rated alone goes through `rt_exec`. -/
theorem reaches_rtExec :
    Reaches env leg (some ⟨rtp, .load⟩, db) (none, (rtExec env db rtp leg).2) := by
  have loads : Reaches env leg (some ⟨rtp, .load⟩, db)
      (some (rtExecLoad env db rtp).1.price, (rtExecLoad env db rtp).2) :=
    .single ⟨_, rfl, rfl⟩
  exact loads.trans (reaches_price env _ leg _)

end Alone

end RtExecRun

/-! ## Threads and processes -/

/-- The step adds the price of the call to a balance. -/
def RtExecPc.charges : RtExecPc → Bool
  | splitCharge | charge => true
  | load | check _ | add _ | splitCount | mark | count => false

/-- The step is between the duplicate check and the insertion. -/
def RtExecPc.adds : RtExecPc → Bool
  | add _ => true
  | load | check _ | splitCharge | splitCount | mark | charge | count => false

/-- The step takes the mutex of the process, which an insertion already holds. -/
def RtExecPc.locks : RtExecPc → Bool
  | check _ | splitCharge | charge => true
  | load | add _ | splitCount | mark | count => false

/-- A slot of the call table whose call has ended, with the record that `rt_maxsec`
has left in it. -/
structure EndedCall where
  max : CcMax
  term : CcTerm
  rtp : Racc
  granted : ∃ env db server sim answer db',
    rtMaxsec env db (ccMaxsecPre server max) sim = (answer, some rtp, db')

/-- The slot of a call that was granted. -/
def EndedCall.ofMaxsec (env : Env) (db : Db) (server : ℕ) (max : CcMax) (sim : ℤ) (term : CcTerm) :
    Option EndedCall :=
  match answer_eq : rtMaxsec env db (ccMaxsecPre server max) sim with
  | (_, some rtp, _) => some { max, term, rtp, granted := ⟨env, db, server, sim, _, _, answer_eq⟩ }
  | _ => none

/-- The record with which `cc_server_thread` and `cc_call_rating` rate the call. -/
def EndedCall.record (env : Env) (call : EndedCall) (cdrId : ℕ) : Racc :=
  { call.rtp with
    pre :=
      { call.rtp.pre with
        timestamp := convertEpochToTs env call.rtp.pre.ts
        cdrId
        ratingModeId := RtMode.clg.id
        billsec := call.term.billsec } }

/-- What a thread is at: the janitor has inserted the CDR of a call, or a call is in `rt_exec`. -/
inductive RaterTask where
  | idle
  | added (env : Env) (call : EndedCall)
  | rating (leg : Leg) (run : RtExecRun)

/-- A thread that rates: a worker of the batch rater, or the janitor. -/
structure RaterThread where
  process : ℕ
  janitor : Bool
  task : RaterTask := .idle

/-- The database with the CDRs under their `call_uid`, the threads, the CDRs that the batch rater of
each process has fetched and not started, and the CDRs for which a balance was charged. -/
structure RatingSystem where
  db : Db := {}
  cdrs : List (String × Cdr) := []
  threads : List RaterThread
  batches : List (Leg × List Cdr)
  charges : List ℕ := []

/-- The steps of the system. -/
inductive RaterAction where
  /-- The mediator inserts a CDR. -/
  | mediate (callUid : String) (cdr : Cdr)
  /-- The janitor inserts the CDR of an ended call. -/
  | addCdr (w : ℕ) (env : Env) (call : EndedCall)
  /-- The janitor reads the id of the CDR and goes on to rate the call. -/
  | getCdrId (w : ℕ)
  /-- The batch rater of a process fetches the unrated CDRs of a leg. -/
  | fetch (process : ℕ) (leg : Leg)
  /-- A worker starts with a CDR that was fetched. -/
  | take (w : ℕ) (k : ℕ) (env : Env)
  /-- A call goes on in `rt_exec`. -/
  | advance (w : ℕ) (env : Env)

/-- The mark of a leg. -/
def CdrRow.mark (row : CdrRow) : Leg → ℤ
  | .a => row.legA
  | .b => row.legB

/-- `CDR_BATCH_LIMIT`. -/
def cdrBatchLimit : ℕ := 1000

namespace RatingSystem

/-- No CDRs, and idle threads in some processes. -/
def start (processes : ℕ) (threads : List (ℕ × Bool)) : RatingSystem where
  threads := threads.map fun (process, janitor) => { process, janitor }
  batches := List.replicate processes (.a, [])

/-- `cdr_add_in_db_query`: a CDR whose `call_uid` is taken is skipped. -/
def cdrAddInDb (s : RatingSystem) (callUid : String) (cdr : Cdr) : RatingSystem :=
  if s.cdrs.any fun row => row.1 = callUid then s
  else
    let id := s.cdrs.length + 1
    { s with
      cdrs := s.cdrs ++ [(callUid, { cdr with id })]
      db := { s.db with cdrs := s.db.cdrs ++ [{ id, legA := 0, legB := 0 }] } }

/-- `cdr_get_cdr_id`. -/
def cdrGetCdrId (s : RatingSystem) (callUid : String) (cdrServerId : ℕ) : ℕ :=
  ((s.cdrs.find? fun row => row.1 = callUid && row.2.cdrServerId = cdrServerId).map
    fun row => row.2.id).getD 0

/-- `cdr_get_cdrs`: the CDRs whose leg is marked `0`, in the order of their ids. -/
def cdrGetCdrs (s : RatingSystem) (leg : Leg) : List Cdr :=
  ((s.db.cdrs.filter fun row => row.mark leg = 0).filterMap fun row =>
    (s.cdrs.find? fun cdr => cdr.2.id = row.id).map Prod.snd).take cdrBatchLimit

/-- A thread of the process holds the mutex. -/
def locked (s : RatingSystem) (process : ℕ) : Bool :=
  s.threads.any fun thread => thread.process = process &&
    match thread.task with
    | .rating _ run => run.pc.adds
    | _ => false

/-- The workers of the process are done with their CDRs. -/
def idle (s : RatingSystem) (process : ℕ) : Bool :=
  s.threads.all fun thread => thread.process ≠ process || thread.janitor ||
    match thread.task with
    | .idle => true
    | _ => false

/-- Change the task of a thread. -/
def setTask (s : RatingSystem) (w : ℕ) (thread : RaterThread) (task : RaterTask) : RatingSystem :=
  { s with threads := s.threads.set w { thread with task } }

/-- `cc_server_add_cdr`: the janitor inserts the CDR of a call of some seconds that
ended normally. -/
def addCdr (s : RatingSystem) (w : ℕ) (thread : RaterThread) (env : Env) (call : EndedCall) :
    Option RatingSystem :=
  if call.term.status = .normalClear ∧ 0 < call.term.billsec then
    let cdr := ccServerAddCdr env call.rtp.pre call.max call.term 0
    some ((s.cdrAddInDb call.term.callUid cdr).setTask w thread (.added env call))
  else none

/-- `cc_server_thread` rates the call when its CDR is found. -/
def getCdrId (s : RatingSystem) (w : ℕ) (thread : RaterThread) (env : Env) (call : EndedCall) :
    RatingSystem :=
  let cdrId := s.cdrGetCdrId call.term.callUid call.rtp.pre.cdrServerId
  s.setTask w thread
    (if 0 < cdrId then .rating .a { rtp := call.record env cdrId } else .idle)

/-- A worker takes a fetched CDR as far as `rt_main` goes before `rt_exec`. -/
def take (s : RatingSystem) (w : ℕ) (thread : RaterThread) (k : ℕ) (env : Env) :
    Option RatingSystem :=
  match s.batches[thread.process]? with
  | none => none
  | some (leg, cdrs) =>
      cdrs[k]?.map fun cdr =>
        let task :=
          match rtMainRecord env leg cdr.recType (rtCdrToRating env cdr) with
          | none => .idle
          | some rtp => .rating leg { rtp }
        { s.setTask w thread task with
          batches := s.batches.set thread.process (leg, cdrs.eraseIdx k) }

/-- A step of a call in `rt_exec`. -/
def advance (s : RatingSystem) (w : ℕ) (thread : RaterThread) (leg : Leg) (run : RtExecRun)
    (env : Env) : RatingSystem :=
  match run.next env s.db leg with
  | (run', db) =>
      { s.setTask w thread (run'.elim .idle (.rating leg)) with
        db
        charges := if run.pc.charges then run.rtp.pre.cdrId :: s.charges else s.charges }

/-- A step of the system, `none` when it is not enabled. -/
def step (s : RatingSystem) : RaterAction → Option RatingSystem
  | .mediate callUid cdr => some (s.cdrAddInDb callUid cdr)
  | .addCdr w env call =>
      match s.threads[w]? with
      | some { process, janitor := true, task := .idle } =>
          s.addCdr w { process, janitor := true } env call
      | _ => none
  | .getCdrId w =>
      match s.threads[w]? with
      | some { process, janitor, task := .added env call } =>
          some (s.getCdrId w { process, janitor } env call)
      | _ => none
  | .fetch process leg =>
      match s.batches[process]? with
      | some (_, []) =>
          if s.idle process then
            some { s with batches := s.batches.set process (leg, s.cdrGetCdrs leg) }
          else none
      | _ => none
  | .take w k env =>
      match s.threads[w]? with
      | some { process, janitor := false, task := .idle } =>
          s.take w { process, janitor := false } k env
      | _ => none
  | .advance w env =>
      match s.threads[w]? with
      | some { process, janitor, task := .rating leg run } =>
          if run.pc.locks && s.locked process then none
          else some (s.advance w { process, janitor } leg run env)
      | _ => none

end RatingSystem

end RateEngine
