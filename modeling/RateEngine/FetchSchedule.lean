import Mathlib.Tactic

/-!
# The schedule of the remote fetches

`cdr_storage_reader` fetches the CDRs of a remote server from a lower bound on.  The bound of a
check comes from the schedule row of the server, which holds the start of the schedule, the time of
the last check and its bound, and from the day cycles since the start.  This file follows the row
over runs of checks: which calls are above the bound of every check after their end, and what a
failed fetch does to the row.
-/

namespace RateEngine

/-! ## `cdr_storage_sched` -/

/-- A row of `cdr_storage_sched`. -/
structure SchedRow where
  cdrServerId : ℕ
  ts : ℤ
  lastChkTs : ℤ
  startTs : ℤ
deriving DecidableEq, Repr

/-- `cdr_storage_sched_t`, zeroed by `cdr_storage_sched_init`. -/
structure Sched where
  ts : ℤ := 0
  last : ℤ := 0
  start : ℤ := 0
deriving DecidableEq, Repr

/-- The fields of `cdr_storage_profile_t` that the schedule reads, and the limit on call seconds. -/
structure FetchProfile where
  cdrServerId : ℕ
  /-- `cdr_sched_ts` as an epoch. -/
  cdrSchedTs : ℤ
  callMaxsecLimit : ℕ
deriving DecidableEq, Repr

/-- `CDR_STORAGE_SCHED_M`. -/
def cdrStorageSchedM : ℤ := 60

/-- `CDR_STORAGE_SCHED_D`. -/
def cdrStorageSchedD : ℤ := 86400

/-- `cdr_storage_sched_get` for the answer of the statement: the number of rows and the last one. -/
def cdrStorageSchedGet : Option (List SchedRow) → ℤ × Sched
  | none => (0, {})
  | some rows =>
      (rows.length,
        rows.foldl (fun _ row => { ts := row.ts, last := row.lastChkTs, start := row.startTs }) {})

namespace FetchProfile

variable (profile : FetchProfile)

/-- The rows of the server. -/
def rowsOf (table : List SchedRow) : List SchedRow :=
  table.filter fun row => row.cdrServerId = profile.cdrServerId

/-- `cfg->ts` of `cdr_storage_sched_set_ts`: the lower bound of a check. -/
def cdrStorageSchedSetTs (sched : Sched) (chk : ℤ) : ℤ :=
  let start := if sched.start = 0 then profile.cdrSchedTs else sched.start
  let last := if sched.last = 0 then start else sched.last
  if start = last then start
  else
    let currCycle := (chk - start).tdiv cdrStorageSchedD
    if 1 < currCycle then
      let currTs := currCycle * cdrStorageSchedD + start
      if last < currTs then
        let lastCycle := (last - start).tdiv cdrStorageSchedD
        if 1 < lastCycle then lastCycle * cdrStorageSchedD + start else start
      else if currTs ≤ sched.ts then last - (profile.callMaxsecLimit + cdrStorageSchedM)
      else currTs
    else start

/-- `cdr_storage_sched_insert`. -/
def cdrStorageSchedInsert (table : List SchedRow) (chk ts : ℤ) : List SchedRow :=
  table ++ [{ cdrServerId := profile.cdrServerId, ts, lastChkTs := chk,
              startTs := profile.cdrSchedTs }]

/-- `cdr_storage_sched_update`. -/
def cdrStorageSchedUpdate (table : List SchedRow) (chk ts : ℤ) : List SchedRow :=
  table.map fun row =>
    if row.cdrServerId = profile.cdrServerId then { row with lastChkTs := chk, ts } else row

end FetchProfile

/-! ## `cdr_storage_reader` -/

/-- What becomes of a fetched row in the local database: the statement is carried out, rejected, or
not sent.  The wrapper takes a rejected statement for a success. -/
inductive RowStore where
  | stored
  | rejected
  | unsent
deriving DecidableEq, Repr

/-- What becomes of the remote query. -/
inductive RemoteAnswer where
  | failed
  | noResult
  | rows (stores : List RowStore)
deriving DecidableEq, Repr

/-- `conn->result` after `db_select` and `db_fetch`: a failed query leaves a result without rows. -/
def RemoteAnswer.result : RemoteAnswer → Option (List RowStore)
  | failed => some []
  | noResult => none
  | rows stores => some stores

/-- `cdr_storage_get_remote_cdrs`: the number of rows that `cdr_add_in_db` took; `none` is the
missing connection structure. -/
def cdrStorageGetRemoteCdrs : Option RemoteAnswer → ℤ
  | none => -1
  | some answer =>
      match answer.result with
      | none => 0
      | some stores => (stores.filter fun store => store ≠ .unsent).length

/-- A check of the remote server and what becomes of its statements. -/
structure Check where
  /-- `time(NULL)`. -/
  chk : ℤ
  /-- The query of the schedule gives a result. -/
  scheduleRead : Bool := true
  connects : Bool := true
  answer : RemoteAnswer := .rows []
  /-- The statement that writes the schedule takes effect. -/
  scheduleWritten : Bool := true
deriving DecidableEq, Repr

/-- The query of the schedule. -/
def Check.schedule (profile : FetchProfile) (table : List SchedRow) (check : Check) : ℤ × Sched :=
  cdrStorageSchedGet (if check.scheduleRead then some (profile.rowsOf table) else none)

/-- The lower bound of a check. -/
def Check.bound (profile : FetchProfile) (table : List SchedRow) (check : Check) : ℤ :=
  profile.cdrStorageSchedSetTs (check.schedule profile table).2 check.chk

/-- `cdr_storage_reader`: the schedule after the check. -/
def cdrStorageReader (profile : FetchProfile) (table : List SchedRow) (check : Check) :
    List SchedRow :=
  let ts := check.bound profile table
  if check.connects then
    let ret := cdrStorageGetRemoteCdrs (some check.answer)
    let num := if ret = -1 then -1 else (check.schedule profile table).1
    if check.scheduleWritten then
      if 0 < num then profile.cdrStorageSchedUpdate table check.chk ts
      else if num = 0 then profile.cdrStorageSchedInsert table check.chk ts
      else table
    else table
  else table

/-! ## Runs of successful checks -/

section Run

variable (profile : FetchProfile)

/-- The schedule after successful checks at some times. -/
def afterChecks (table : List SchedRow) (chks : List ℤ) : List SchedRow :=
  chks.foldl (fun table chk => cdrStorageReader profile table { chk }) table

/-- The lower bound of a successful check after successful checks. -/
def boundAfter (table : List SchedRow) (chks : List ℤ) (chk : ℤ) : ℤ :=
  ({ chk } : Check).bound profile (afterChecks profile table chks)

/-- The day cycle of a time. -/
def FetchProfile.cycle (t : ℤ) : ℤ := (t - profile.cdrSchedTs) / cdrStorageSchedD

/-- The start of the day cycle of a time. -/
def FetchProfile.cycleStart (t : ℤ) : ℤ :=
  profile.cycle t * cdrStorageSchedD + profile.cdrSchedTs

/-- A call is queried for: the first or the second check after its end has a lower bound that is no
later than its start. -/
def FetchesCall (table : List SchedRow) (before : List ℤ) (first second callStart : ℤ) : Prop :=
  boundAfter profile table before first ≤ callStart ∨
    boundAfter profile table (before ++ [first]) second ≤ callStart

instance (table : List SchedRow) (before : List ℤ) (first second callStart : ℤ) :
    Decidable (FetchesCall profile table before first second callStart) :=
  inferInstanceAs (Decidable (_ ∨ _))

end Run

/-! ## The row of the server -/

section Row

variable {profile : FetchProfile} {table : List SchedRow}

theorem afterChecks_append (chks : List ℤ) (chk : ℤ) :
    afterChecks profile table (chks ++ [chk]) =
      cdrStorageReader profile (afterChecks profile table chks) { chk } := by
  rw [afterChecks, List.foldl_append]
  rfl

/-- A successful check inserts the row of the server or updates it. -/
theorem cdrStorageReader_success (chk : ℤ) :
    cdrStorageReader profile table { chk } =
      if profile.rowsOf table = [] then
        profile.cdrStorageSchedInsert table chk (({ chk } : Check).bound profile table)
      else profile.cdrStorageSchedUpdate table chk (({ chk } : Check).bound profile table) := by
  have answered : ¬ cdrStorageGetRemoteCdrs (some (.rows [])) = -1 := by decide
  simp only [cdrStorageReader, if_true, if_neg answered, Check.schedule, cdrStorageSchedGet]
  by_cases fresh : profile.rowsOf table = []
  · simp [fresh]
  · have known : 0 < ((profile.rowsOf table).length : ℤ) := by
      exact_mod_cast List.length_pos_of_ne_nil fresh
    rw [if_pos known, if_neg fresh]

/-- After a successful check a server with at most one row has one, with the time and the bound of
the check. -/
theorem rowsOf_success {chk : ℤ} (alone : ∀ row ∈ profile.rowsOf table,
    profile.rowsOf table = [row] ∧ row.startTs = profile.cdrSchedTs) :
    profile.rowsOf (cdrStorageReader profile table { chk }) =
      [{ cdrServerId := profile.cdrServerId, ts := ({ chk } : Check).bound profile table,
         lastChkTs := chk, startTs := profile.cdrSchedTs }] := by
  rw [cdrStorageReader_success]
  cases rows : profile.rowsOf table with
  | nil =>
      rw [if_pos rfl]
      rw [FetchProfile.rowsOf] at rows
      simp [FetchProfile.rowsOf, FetchProfile.cdrStorageSchedInsert, List.filter_append, rows]
  | cons row rest =>
      obtain ⟨one, started⟩ := alone row (rows ▸ List.mem_cons_self)
      have own : row.cdrServerId = profile.cdrServerId := by
        have member : row ∈ profile.rowsOf table := rows ▸ List.mem_cons_self
        simpa using (List.mem_filter.mp member).2
      have kept : ∀ other : SchedRow,
          ((if other.cdrServerId = profile.cdrServerId then
            { other with lastChkTs := chk, ts := ({ chk } : Check).bound profile table }
          else other).cdrServerId = profile.cdrServerId) ↔
            other.cdrServerId = profile.cdrServerId := by
        intro other
        split <;> simp_all
      rw [if_neg (List.cons_ne_nil _ _)]
      rw [FetchProfile.rowsOf] at one
      simp only [FetchProfile.rowsOf, FetchProfile.cdrStorageSchedUpdate, List.filter_map,
        Function.comp_def, kept, one, List.map_singleton, own, if_true, started]

/-- The schedule row of the server after a run of successful checks. -/
theorem rowsOf_afterChecks (fresh : profile.rowsOf table = []) (chks : List ℤ) (last : ℤ) :
    profile.rowsOf (afterChecks profile table (chks ++ [last])) =
      [{ cdrServerId := profile.cdrServerId, ts := boundAfter profile table chks last,
         lastChkTs := last, startTs := profile.cdrSchedTs }] := by
  rw [afterChecks_append]
  refine rowsOf_success fun row member => ?_
  induction chks using List.reverseRecOn generalizing row with
  | nil =>
      rw [afterChecks, List.foldl_nil, fresh] at member
      cases member
  | append_singleton chks last induction =>
      rw [afterChecks_append] at member ⊢
      rw [rowsOf_success induction] at member ⊢
      rw [List.mem_singleton.mp member]
      exact ⟨rfl, rfl⟩

end Row

/-! ## The bound of a check -/

section Bound

variable {profile : FetchProfile} {table : List SchedRow}

theorem boundAfter_nil (fresh : profile.rowsOf table = []) (chk : ℤ) :
    boundAfter profile table [] chk = profile.cdrSchedTs := by
  simp [boundAfter, Check.bound, Check.schedule, afterChecks, cdrStorageSchedGet, fresh,
    FetchProfile.cdrStorageSchedSetTs]

/-- The division of the code reaches the second cycle when the day cycle does, and gives it then. -/
theorem FetchProfile.tdiv_cycle (t : ℤ) :
    (1 < (t - profile.cdrSchedTs).tdiv cdrStorageSchedD ↔ 1 < profile.cycle t) ∧
      (1 < profile.cycle t →
        (t - profile.cdrSchedTs).tdiv cdrStorageSchedD = profile.cycle t) := by
  rw [FetchProfile.cycle]
  by_cases started : profile.cdrSchedTs ≤ t
  · have elapsed : 0 ≤ t - profile.cdrSchedTs := Int.sub_nonneg_of_le started
    rw [Int.tdiv_eq_ediv_of_nonneg elapsed]
    exact ⟨Iff.rfl, fun _ => rfl⟩
  · have early : 0 ≤ -(t - profile.cdrSchedTs) := by omega
    have quotient : 0 ≤ (-(t - profile.cdrSchedTs)).tdiv cdrStorageSchedD :=
      Int.tdiv_nonneg early (by decide)
    have first_cycle : (t - profile.cdrSchedTs) / cdrStorageSchedD ≤ 0 := by
      rw [cdrStorageSchedD]
      omega
    rw [Int.neg_tdiv] at quotient
    refine ⟨iff_of_false ?_ ?_, fun late => absurd late ?_⟩ <;> omega

theorem FetchProfile.cycleStart_congr {t u : ℤ} (same : profile.cycle t = profile.cycle u) :
    profile.cycleStart t = profile.cycleStart u := by
  rw [FetchProfile.cycleStart, same, FetchProfile.cycleStart]

/-- A time lies in its day cycle. -/
theorem FetchProfile.cycleStart_le (t : ℤ) :
    profile.cycleStart t ≤ t ∧ t < profile.cycleStart t + cdrStorageSchedD := by
  rw [FetchProfile.cycleStart, FetchProfile.cycle, cdrStorageSchedD]
  omega

/-- The bound of a check by the row of the server: the start of the schedule in the first two
cycles, the start of the cycle of the last check when that was in an earlier cycle, else the start
of the cycle or, when the last bound had reached it, the time of the last check less the margin. -/
theorem FetchProfile.setTs_eq {ts last : ℤ} (last_ne : last ≠ 0) (chk : ℤ) :
    profile.cdrStorageSchedSetTs { ts, last, start := profile.cdrSchedTs } chk =
      if profile.cycle chk ≤ 1 then profile.cdrSchedTs
      else if last < profile.cycleStart chk then
        if 1 < profile.cycle last then profile.cycleStart last else profile.cdrSchedTs
      else if profile.cycleStart chk ≤ ts then
        last - (profile.callMaxsecLimit + cdrStorageSchedM)
      else profile.cycleStart chk := by
  obtain ⟨late, cycle_eq⟩ := profile.tdiv_cycle chk
  obtain ⟨last_late, last_eq⟩ := profile.tdiv_cycle last
  simp only [FetchProfile.cdrStorageSchedSetTs, ite_self, if_neg last_ne, late, last_late]
  by_cases early : profile.cycle chk ≤ 1
  · rw [if_pos early, if_neg early.not_gt, ite_self]
  rw [if_neg early, if_pos (not_le.mp early), cycle_eq (not_le.mp early)]
  have past_start : profile.cdrSchedTs < profile.cycleStart chk := by
    rw [FetchProfile.cycleStart, cdrStorageSchedD]
    omega
  by_cases same : profile.cdrSchedTs = last
  · have not_late : ¬ 1 < profile.cycle last := by
      rw [FetchProfile.cycle, ← same, sub_self, Int.zero_ediv]
      decide
    rw [if_pos same, if_pos (same ▸ past_start), if_neg not_late]
  rw [if_neg same, FetchProfile.cycleStart]
  by_cases earlier_cycle : last < profile.cycle chk * cdrStorageSchedD + profile.cdrSchedTs
  · rw [if_pos earlier_cycle, if_pos earlier_cycle]
    by_cases last_cycle : 1 < profile.cycle last
    · rw [if_pos last_cycle, if_pos last_cycle, last_eq last_cycle, FetchProfile.cycleStart]
    · rw [if_neg last_cycle, if_neg last_cycle]
  · rw [if_neg earlier_cycle, if_neg earlier_cycle]

theorem boundAfter_append (fresh : profile.rowsOf table = []) (chks : List ℤ) {last : ℤ}
    (last_ne : last ≠ 0) (chk : ℤ) :
    boundAfter profile table (chks ++ [last]) chk =
      if profile.cycle chk ≤ 1 then profile.cdrSchedTs
      else if last < profile.cycleStart chk then
        if 1 < profile.cycle last then profile.cycleStart last else profile.cdrSchedTs
      else if profile.cycleStart chk ≤ boundAfter profile table chks last then
        last - (profile.callMaxsecLimit + cdrStorageSchedM)
      else profile.cycleStart chk := by
  rw [boundAfter, Check.bound, Check.schedule, if_pos rfl, rowsOf_afterChecks fresh]
  exact profile.setTs_eq last_ne chk

theorem FetchProfile.cycle_mono {t u : ℤ} (ordered : t ≤ u) :
    profile.cycle t ≤ profile.cycle u := by
  simp only [FetchProfile.cycle, cdrStorageSchedD]
  omega

/-- Times in order lie in one day cycle exactly when the earlier one is in the
cycle of the later. -/
theorem FetchProfile.cycleStart_le_iff {t u : ℤ} (ordered : t ≤ u) :
    profile.cycleStart u ≤ t ↔ profile.cycle t = profile.cycle u := by
  simp only [FetchProfile.cycleStart, FetchProfile.cycle, cdrStorageSchedD]
  omega

/-- While the checks of a day cycle are nearer to its start than the margin, every second one of
them has a bound in the cycle. -/
theorem cycleStart_le_boundAfter_iff (fresh : profile.rowsOf table = []) (chks : List ℤ) {last : ℤ}
    (positive : ∀ chk ∈ chks, 0 < chk) (increasing : (chks ++ [last]).Pairwise (· < ·))
    (late : 1 < profile.cycle last)
    (near : ∀ chk ∈ chks,
      chk < profile.cycleStart last + (profile.callMaxsecLimit + cdrStorageSchedM)) :
    profile.cycleStart last ≤ boundAfter profile table chks last ↔
      Even ((chks ++ [last]).countP fun chk => profile.cycleStart last ≤ chk) := by
  have last_in : profile.cycleStart last ≤ last := (profile.cycleStart_le last).1
  have past_start : profile.cdrSchedTs < profile.cycleStart last := by
    rw [FetchProfile.cycleStart, cdrStorageSchedD]
    omega
  induction chks using List.reverseRecOn generalizing last with
  | nil => simp [boundAfter_nil fresh, last_in, past_start]
  | append_singleton chks prev induction =>
      obtain ⟨earlier, -, before_last⟩ := List.pairwise_append.mp increasing
      have prev_mem : prev ∈ chks ++ [prev] := List.mem_append_right _ List.mem_cons_self
      have prev_lt : prev < last := before_last prev prev_mem last List.mem_cons_self
      have bound_eq := boundAfter_append fresh chks (positive prev prev_mem).ne' last
      rw [if_neg late.not_ge] at bound_eq
      have counted : (chks ++ [prev] ++ [last]).countP (fun chk => profile.cycleStart last ≤ chk) =
          (chks ++ [prev]).countP (fun chk => profile.cycleStart last ≤ chk) + 1 := by
        rw [List.countP_append, List.countP_singleton, if_pos (decide_eq_true last_in)]
      rw [counted]
      by_cases same : profile.cycleStart last ≤ prev
      · have cycle_eq := (profile.cycleStart_le_iff prev_lt.le).mp same
        have start_eq := profile.cycleStart_congr cycle_eq
        have by_turns : profile.cycleStart last ≤ boundAfter profile table chks prev ↔
            Even ((chks ++ [prev]).countP fun chk => profile.cycleStart last ≤ chk) := by
          rw [← start_eq]
          refine induction (fun chk member => positive chk (List.mem_append_left _ member)) earlier
            (cycle_eq ▸ late) (fun chk member => ?_) (start_eq ▸ same) (start_eq ▸ past_start)
          rw [start_eq]
          exact near chk (List.mem_append_left _ member)
        rw [Nat.even_add_one, ← by_turns, bound_eq, if_neg same.not_gt]
        have prev_near := near prev prev_mem
        split
        · rename_i reached
          exact iff_of_false (by omega) (not_not_intro reached)
        · rename_i unreached
          exact iff_of_true le_rfl unreached
      · have none_before : (chks ++ [prev]).countP
            (fun chk => profile.cycleStart last ≤ chk) = 0 := by
          refine List.countP_eq_zero.mpr fun chk member => ?_
          have chk_le : chk ≤ prev := by
            rcases List.mem_append.mp member with old | new
            · exact ((List.pairwise_append.mp earlier).2.2 chk old prev List.mem_cons_self).le
            · exact (List.mem_singleton.mp new).le
          simpa using chk_le.trans_lt (not_le.mp same)
        rw [none_before, bound_eq, if_pos (not_le.mp same)]
        refine iff_of_false ?_ (by decide)
        have prev_start := (profile.cycleStart_le prev).1
        split <;> omega

end Bound

/-! ## Calls that are queried for -/

/-- No call start falls behind the bounds.  The call does not reach back over the start of the
day cycle of the last check before its end, or that cycle is one of the first two; or the next
check is in the same cycle, and either that cycle has had an even number of checks or its third
check comes in time. -/
def CoversCall (profile : FetchProfile) (before : List ℤ) (first second callStart : ℤ) : Prop :=
  ∀ last ∈ before.getLast?,
    profile.cycle last ≤ 1 ∨ profile.cycleStart last ≤ callStart ∨
      profile.cycle first = profile.cycle last ∧
        (Even (before.countP fun chk => profile.cycleStart last ≤ chk) ∨
          profile.cycle second = profile.cycle first ∧
            first ≤ callStart + (profile.callMaxsecLimit + cdrStorageSchedM))

/-- A server whose schedule starts at some epoch, with the default limit on call seconds. -/
def hourlyServer : FetchProfile where
  cdrServerId := 1
  cdrSchedTs := 1700000000
  callMaxsecLimit := 3660

/-- The check does not get all its CDRs: there is no connection, the query fails or gives no result,
or a fetched row is not stored. -/
def Check.Fails (check : Check) : Prop :=
  check.connects = false ∨
    match check.answer with
    | .failed | .noResult => True
    | .rows stores => ∃ store ∈ stores, store ≠ .stored

instance (check : Check) : Decidable check.Fails := by
  rw [Check.Fails]
  cases check.answer <;> infer_instance

/-- A failed fetch leaves the schedule as it was. -/
def LeavesSchedule (profile : FetchProfile) (table : List SchedRow) (check : Check) : Prop :=
  check.Fails → cdrStorageReader profile table check = table

/-- The schedule cannot change: the reader does not connect, the statement that writes the schedule
has no effect, or the rows of the server hold the time and the bound of the check already. -/
def Check.KeepsSchedule (profile : FetchProfile) (table : List SchedRow) (check : Check) : Prop :=
  check.connects = false ∨ check.scheduleWritten = false ∨
    check.scheduleRead = true ∧ profile.rowsOf table ≠ [] ∧
      ∀ row ∈ profile.rowsOf table, row.lastChkTs = check.chk ∧ row.ts = check.bound profile table

/-- What the fetch returns is never an error: the wrappers and the count of rows swallow it. -/
theorem cdrStorageGetRemoteCdrs_nonneg (answer : RemoteAnswer) :
    0 ≤ cdrStorageGetRemoteCdrs (some answer) := by
  cases answer <;> simp [cdrStorageGetRemoteCdrs, RemoteAnswer.result]

/-- The reader writes the schedule whatever became of the fetch. -/
theorem cdrStorageReader_eq (profile : FetchProfile) (table : List SchedRow) {check : Check}
    (connects : check.connects = true) (written : check.scheduleWritten = true) :
    cdrStorageReader profile table check =
      if check.scheduleRead = true ∧ profile.rowsOf table ≠ [] then
        profile.cdrStorageSchedUpdate table check.chk (check.bound profile table)
      else profile.cdrStorageSchedInsert table check.chk (check.bound profile table) := by
  have unfailed := cdrStorageGetRemoteCdrs_nonneg check.answer
  have not_error : ¬ cdrStorageGetRemoteCdrs (some check.answer) = -1 := by omega
  simp only [cdrStorageReader, connects, written, if_true, if_neg not_error]
  by_cases known : check.scheduleRead = true ∧ profile.rowsOf table ≠ []
  · have counted : 0 < (check.schedule profile table).1 := by
      rw [Check.schedule, if_pos known.1]
      exact Int.natCast_pos.mpr (List.length_pos_of_ne_nil known.2)
    rw [if_pos counted, if_pos known]
  · have uncounted : (check.schedule profile table).1 = 0 := by
      rw [Check.schedule]
      split
      · rename_i read
        have absent : profile.rowsOf table = [] := by simpa [read] using known
        rw [absent]
        rfl
      · rfl
    rw [uncounted, if_neg (lt_irrefl 0), if_pos rfl, if_neg known]

/-- An update leaves the schedule alone exactly when the rows of the server hold its values. -/
theorem FetchProfile.cdrStorageSchedUpdate_eq_self_iff (profile : FetchProfile)
    (table : List SchedRow) (chk ts : ℤ) :
    profile.cdrStorageSchedUpdate table chk ts = table ↔
      ∀ row ∈ profile.rowsOf table, row.lastChkTs = chk ∧ row.ts = ts := by
  conv_lhs => rhs; rw [← List.map_id table]
  rw [FetchProfile.cdrStorageSchedUpdate, List.map_inj_left]
  simp only [FetchProfile.rowsOf, List.mem_filter, decide_eq_true_eq, and_imp, id_eq]
  refine forall₂_congr fun row _ => ?_
  split
  · rename_i own
    constructor
    · intro same _
      exact ⟨(congrArg SchedRow.lastChkTs same).symm, (congrArg SchedRow.ts same).symm⟩
    · intro holds
      obtain ⟨rfl, rfl⟩ := holds own
      rfl
  · rename_i other
    simp [other]

/-- A failed fetch leaves the schedule as it was exactly when the schedule cannot change. -/
theorem leavesSchedule_iff_keepsSchedule (profile : FetchProfile) (table : List SchedRow)
    (check : Check) :
    LeavesSchedule profile table check ↔ (check.Fails → check.KeepsSchedule profile table) := by
  refine forall_congr' fun _ => ?_
  rw [Check.KeepsSchedule]
  cases connects : check.connects with
  | false => simp [cdrStorageReader, connects]
  | true =>
      cases written : check.scheduleWritten with
      | false => simp [cdrStorageReader, written]
      | true =>
          rw [cdrStorageReader_eq profile table connects written]
          simp only [Bool.true_eq_false, false_or]
          by_cases known : check.scheduleRead = true ∧ profile.rowsOf table ≠ []
          · rw [if_pos known, profile.cdrStorageSchedUpdate_eq_self_iff, ← and_assoc,
              and_iff_right known]
          · rw [if_neg known, ← and_assoc]
            simp [FetchProfile.cdrStorageSchedInsert, known]

/-- The remote server rejects the query, and the schedule moves on by an hour. -/
theorem rejectedQuery_moves_schedule :
    ¬ ∀ profile table check, LeavesSchedule profile table check := by
  intro claim
  have left := claim hourlyServer [⟨1, 1700000000, 1700010000, 1700000000⟩]
    { chk := 1700013600, answer := .failed } (by decide)
  revert left
  decide

end RateEngine
