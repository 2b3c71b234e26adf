import RateEngine.DuckdbBatch
import RateEngine.Lib.Drawdown

/-!
# Free seconds across batches

The calls of an account draw from the allowance of their tariff in the order of their ids.  Inside a
batch a call finds the seconds of the calls before it, across batches the seconds billed in the free
rows that are stored, which pricing has rounded and which the sign of the price selects.  This file
says for which tariffs the two agree at every cut.
-/

namespace RateEngine

open Drawdown

/-! ## The total of a tariff -/

section Total

variable {calcFunction : ℕ → List CalcFunction} {pts : List Portion}

/-- A portion of some seconds on a tariff, of no call. -/
def bareCall (tariffId : ℕ) (sec : ℤ) : Portion where
  call := ⟨0, sec, "", 0, 0, tariffId, 0, 0, 0, 0, 0, ""⟩
  kind := .paid
  sec := sec
  sgn := 1
  fbidOut := 0

/-- The seconds that `price_walk` bills for some seconds on a tariff, and their price. -/
def tariffTotal (calcFunction : ℕ → List CalcFunction) (tariffId : ℕ) (sec : ℤ) : Option (ℤ × ℚ) :=
  (finalRow (priceWalk calcFunction [bareCall tariffId sec]) (bareCall tariffId sec).key).map
    fun row => (row.bsec, row.price)

/-- A row of the walk under the key of `bareCall`. -/
def PriceWalkRow.bare (row : PriceWalkRow) : PriceWalkRow := { row with cdrId := 0, kind := .paid }

theorem maxOn?_map_bare (walk : List PriceWalkRow) :
    (walk.map PriceWalkRow.bare).maxOn? PriceWalkRow.pos =
      (walk.maxOn? PriceWalkRow.pos).map PriceWalkRow.bare := by
  induction walk with
  | nil => rfl
  | cons row rest induction =>
      rw [List.map_cons, List.maxOn?_cons, List.maxOn?_cons, induction]
      cases rest.maxOn? PriceWalkRow.pos with
      | none => rfl
      | some other =>
          have same (row : PriceWalkRow) : row.bare.pos = row.pos := rfl
          simp only [Option.map_some, Option.elim_some, maxOn_eq_if, same]
          split <;> rfl

/-- What a portion is billed depends on its tariff and seconds only. -/
theorem finalRow_total (distinct : (pts.map Portion.key).Nodup) {pt : Portion} (member : pt ∈ pts) :
    (finalRow (priceWalk calcFunction pts) pt.key).map (fun row => (row.bsec, row.price)) =
      tariffTotal calcFunction pt.call.tariffId pt.sec := by
  have first : (bareCall pt.call.tariffId pt.sec).firstRows calcFunction =
      (pt.firstRows calcFunction).map PriceWalkRow.bare := by
    rw [Portion.firstRows, Portion.firstRows, List.map_map]
    rfl
  have commutes (row : PriceWalkRow) (own : row.key = pt.key) :
      row.bare.next calcFunction [bareCall pt.call.tariffId pt.sec] =
        (row.next calcFunction pts).map PriceWalkRow.bare := by
    have alone : [bareCall pt.call.tariffId pt.sec].filter (fun other => other.key = row.bare.key) =
        [bareCall pt.call.tariffId pt.sec] := rfl
    rw [PriceWalkRow.next, PriceWalkRow.next, alone, own,
      KeyedRows.filter_eq_singleton distinct member,
      List.flatMap_singleton, List.flatMap_singleton]
    cases done : row.done with
    | true => simp [PriceWalkRow.bare, done]
    | false =>
        simp only [PriceWalkRow.bare, done, Bool.false_eq_true, if_false, List.map_map]
        rfl
  have more : walkRounds calcFunction [bareCall pt.call.tariffId pt.sec] ≤
      walkRounds calcFunction pts := by
    have single := List.single_le_sum (fun _ _ => Nat.zero_le _) _
      (List.mem_map_of_mem
        (f := fun other : Portion => (calcFunction other.call.tariffId).length) member)
    simpa [walkRounds, bareCall] using single
  have bare_nodup : ([bareCall pt.call.tariffId pt.sec].map Portion.key).Nodup :=
    List.nodup_singleton _
  obtain ⟨extra, rounds_eq⟩ := Nat.exists_eq_add_of_le more
  have relabelled := RecursiveQuery.run_map
    (fun (row : PriceWalkRow) (own : row.key = pt.key) after after_mem =>
      (PriceWalkRow.key_of_mem_next after_mem).trans own) commutes (walkRounds calcFunction pts)
    fun row (row_mem : row ∈ pt.firstRows calcFunction) => Portion.key_of_mem_firstRows row_mem
  have ended : RecursiveQuery.run
      (PriceWalkRow.next calcFunction [bareCall pt.call.tariffId pt.sec])
      (walkRounds calcFunction [bareCall pt.call.tariffId pt.sec] + extra)
      ((bareCall pt.call.tariffId pt.sec).firstRows calcFunction) = _ :=
    RecursiveQuery.run_eq_of_rank (fun _ _ => PriceWalkRow.rank_of_mem_next) extra
      fun row _ => row.rank_lt_walkRounds
  rw [tariffTotal, finalRow, finalRow, filter_priceWalk distinct member,
    filter_priceWalk bare_nodup List.mem_cons_self, ← ended, ← rounds_eq, first, relabelled,
    maxOn?_map_bare, Option.map_map]
  rfl

end Total

/-! ## Batches one after the other -/

/-- The row of a portion. -/
def Portion.rated (calcFunction : ℕ → List CalcFunction) (pt : Portion) : Option RatedRow :=
  (tariffTotal calcFunction pt.call.tariffId pt.sec).map fun total =>
    ⟨pt, total.1, pt.sgn * total.2⟩

/-- What a call gets in a batch: the seconds of `split` and the rows. -/
structure CallSplit where
  call : FbRow
  freeSec : ℤ
  paidSec : ℤ
  rows : List RatedRow
deriving DecidableEq, Repr

namespace Dims

variable (dims : Dims)

/-- What a call gets in a batch. -/
def splitIn (rating : List RatingRow) (fb : List FbRow) (call : FbRow) : CallSplit where
  call := call
  freeSec := freeSec (dims.hist rating) fb call
  paidSec := call.billsec - freeSec (dims.hist rating) fb call
  rows := (ratedBatch dims.calcFunction (dims.hist rating) fb).filter fun rb =>
    rb.portion.call.cdrId = call.cdrId

/-- Batches one after the other; each reads the rating rows of those before it. -/
def rateBatches : List RatingRow → List (List FbRow) → List CallSplit
  | _, [] => []
  | rating, fb :: rest =>
      fb.map (dims.splitIn rating fb) ++
        rateBatches (rating ++
          (ratedBatch dims.calcFunction (dims.hist rating) fb).map RatedRow.values) rest

/-- The columns of a row of `fb` that come from the dimension tables. -/
structure Joins (call : FbRow) : Prop where
  startTs : call.startTs ≠ ""
  tariff : ∃ t ∈ dims.rates.tariff.rows, t.1 = call.tariffId ∧ t.2.freeBillsecId = call.fbid
  limit : call.fbLimit ∈ dims.fbLimits call.fbid
  period : ∃ ba ∈ dims.accountsOf call.baccId,
    call.pstart = dateText (dims.pstart ba.2 call.startTs)

/-- Calls of an account in a period in the order of their ids, on tariffs with free seconds. -/
structure CallSequence (baccId : ℕ) (pstart : String) (calls : List FbRow) : Prop where
  ordered : calls.Pairwise fun call later => call.cdrId < later.cdrId
  joins : ∀ call ∈ calls, dims.Joins call
  account : ∀ call ∈ calls, call.baccId = baccId
  period : ∀ call ∈ calls, call.pstart = pstart
  allowance : ∀ call ∈ calls, call.HasAllowance
  seconds : ∀ call ∈ calls, 0 ≤ call.billsec

/-- Every cut of the calls into batches gives each call the same seconds and prices. -/
def BatchSizeIndependent (rating : List RatingRow) (baccId : ℕ) (pstart : String) : Prop :=
  ∀ calls, dims.CallSequence baccId pstart calls → ∀ cuts cuts' : List (List FbRow),
    cuts.flatten = calls → cuts'.flatten = calls →
      dims.rateBatches rating cuts = dims.rateBatches rating cuts'

/-- On the tariff every part of what is left of the allowance costs something and is billed to the
second, and all that is left is billed at least. -/
def SellsBySecond (tariffId : ℕ) (left : ℤ) : Prop :=
  ∀ sec, 0 < sec → sec ≤ left →
    ∃ total ∈ tariffTotal dims.calcFunction tariffId sec,
      0 < total.2 ∧ sec ≤ total.1 ∧ (sec < left → total.1 = sec)

/-- The billed seconds that the history counts for some free seconds on a tariff. -/
def counted (tariffId : ℕ) (sec : ℤ) : ℤ :=
  match tariffTotal dims.calcFunction tariffId sec with
  | some total => if 0 < total.2 then total.1 else 0
  | none => 0

/-- The seconds of a rating row that count for a pool. -/
def poolSeconds (pool : ℕ × ℕ × String) (r : RatingRow) : ℤ :=
  (((dims.accountsOf r.baccId).filter fun ba =>
    r.callPrice < 0 && r.freeBillsecId ≠ 0 &&
      (r.baccId, r.freeBillsecId, dateText (dims.pstart ba.2 r.callTs)) = pool).map
        fun _ => r.callBillsec).sum

end Dims

/-! ## The rows of a batch -/

section Batch

variable {dims : Dims} {fb : List FbRow} {calcFunction : ℕ → List CalcFunction}
  {hist : ℕ × ℕ × String → ℤ}

/-- The rated rows are the rows of the portions. -/
theorem ratedBatch_eq (distinct : (fb.map FbRow.cdrId).Nodup) :
    ratedBatch calcFunction hist fb =
      (portions hist fb).filterMap (Portion.rated calcFunction) := by
  refine List.filterMap_congr fun pt member => ?_
  rw [Portion.rated, ← finalRow_total (portions_key_nodup distinct) member, Option.map_map]
  rfl

/-- The portions of a call with an allowance. -/
def FbRow.split (call : FbRow) (free : ℤ) : List Portion :=
  (if 0 < call.billsec - free then [⟨call, .paid, call.billsec - free, 1, 0⟩] else []) ++
    if 0 < free then [⟨call, .free, free, -1, call.fbid⟩] else []

theorem filter_portions (distinct : (fb.map FbRow.cdrId).Nodup) {call : FbRow} (member : call ∈ fb)
    (allowed : call.HasAllowance) :
    (portions hist fb).filter (fun pt => pt.call.cdrId = call.cdrId) =
      call.split (freeSec hist fb call) := by
  have own (meets : FbRow → Bool) (portion : FbRow → Portion)
      (same : ∀ other, (portion other).call = other) :
      ((fb.filter meets).map portion).filter (fun pt => pt.call.cdrId = call.cdrId) =
        if meets call then [portion call] else [] := by
    have alone : fb.filter (fun other => other.cdrId = call.cdrId) = [call] :=
      KeyedRows.filter_eq_singleton distinct member
    have comm : (fb.filter meets).filter (fun other => other.cdrId = call.cdrId) =
        [call].filter meets := by
      rw [← alone, List.filter_filter, List.filter_filter]
      exact List.filter_congr fun other _ => Bool.and_comm _ _
    rw [List.filter_map, Function.comp_def]
    simp only [same, comm, List.filter_singleton]
    cases meets call <;> rfl
  rw [portions, List.filter_append, List.filter_append, own _ _ fun _ => rfl]
  simp only [List.filter_filter]
  rw [own _ _ fun _ => rfl, own _ _ fun _ => rfl]
  simp [allowed, FbRow.split]

/-- The rows of a call depend on its free seconds only. -/
theorem filter_ratedBatch (distinct : (fb.map FbRow.cdrId).Nodup) {call : FbRow}
    (member : call ∈ fb) (allowed : call.HasAllowance) :
    (ratedBatch calcFunction hist fb).filter (fun rb => rb.portion.call.cdrId = call.cdrId) =
      (call.split (freeSec hist fb call)).filterMap (Portion.rated calcFunction) := by
  have kept (pt : Portion) : ∀ rb ∈ (pt.rated calcFunction).toList,
      rb.portion.call.cdrId = pt.call.cdrId := by
    intro rb rb_mem
    obtain ⟨total, -, rfl⟩ := Option.map_eq_some_iff.mp (Option.mem_toList.mp rb_mem)
    rfl
  rw [ratedBatch_eq distinct, List.filterMap_eq_flatMap_toList, KeyedRows.filter_flatMap kept,
    filter_portions distinct member allowed, List.filterMap_eq_flatMap_toList]

theorem hist_eq (rating : List RatingRow) (pool : ℕ × ℕ × String) :
    dims.hist rating pool = (rating.map (dims.poolSeconds pool)).sum := by
  rw [Dims.hist, List.flatMap_def, List.sum_flatten, List.map_map]
  rfl

theorem hist_append (rating more : List RatingRow) (pool : ℕ × ℕ × String) :
    dims.hist (rating ++ more) pool = dims.hist rating pool + dims.hist more pool := by
  rw [hist_eq, hist_eq, hist_eq, List.map_append, List.sum_append]

/-- A paid row does not count. -/
theorem poolSeconds_paid (pool : ℕ × ℕ × String) {r : RatingRow} (paid : r.freeBillsecId = 0) :
    dims.poolSeconds pool r = 0 := by
  simp [Dims.poolSeconds, paid]

theorem poolSeconds_of_account (pool : ℕ × ℕ × String) {r : RatingRow} {ba : ℕ × BillingAccountRow}
    (account : dims.accountsOf r.baccId = [ba]) :
    dims.poolSeconds pool r =
      if r.callPrice < 0 ∧ r.freeBillsecId ≠ 0 ∧
          (r.baccId, r.freeBillsecId, dateText (dims.pstart ba.2 r.callTs)) = pool then
        r.callBillsec
      else 0 := by
  rw [Dims.poolSeconds, account, List.filter_singleton]
  by_cases counts : r.callPrice < 0 ∧ r.freeBillsecId ≠ 0 ∧
      (r.baccId, r.freeBillsecId, dateText (dims.pstart ba.2 r.callTs)) = pool
  · rw [if_pos counts]
    simp [counts.1, counts.2.1, counts.2.2]
  · have unselected : (decide (r.callPrice < 0) && decide (r.freeBillsecId ≠ 0) &&
        decide ((r.baccId, r.freeBillsecId, dateText (dims.pstart ba.2 r.callTs)) = pool)) =
          false := by
      simpa only [Bool.and_eq_false_iff, decide_eq_false_iff_not, not_and_or, or_assoc] using counts
    rw [if_neg counts, unselected]
    rfl

theorem accountsOf_eq {call : FbRow} (joins : dims.Joins call) :
    ∃ ba, dims.accountsOf call.baccId = [ba] ∧
      call.pstart = dateText (dims.pstart ba.2 call.startTs) := by
  obtain ⟨ba, ba_mem, pstart_eq⟩ := joins.period
  have one : (dims.accountsOf call.baccId).length ≤ 1 := length_accountsOf _
  match rows : dims.accountsOf call.baccId, one with
  | [], _ => simp [rows] at ba_mem
  | [other], _ =>
      rw [rows, List.mem_singleton] at ba_mem
      exact ⟨other, rfl, ba_mem ▸ pstart_eq⟩

/-- The row of a free portion counts for the pool of its call. -/
theorem poolSeconds_free (pool : ℕ × ℕ × String) {call : FbRow} (joins : dims.Joins call)
    (allowed : call.HasAllowance) (free : ℤ) :
    (((⟨call, .free, free, -1, call.fbid⟩ : Portion).rated dims.calcFunction).map fun rb =>
        dims.poolSeconds pool rb.values).getD 0 =
      if call.pool = pool then dims.counted call.tariffId free else 0 := by
  obtain ⟨ba, account, pstart_eq⟩ := accountsOf_eq joins
  rw [Portion.rated, Dims.counted]
  cases found : tariffTotal dims.calcFunction call.tariffId free with
  | none => simp
  | some total =>
      have row_account : dims.accountsOf (RatedRow.values ⟨⟨call, .free, free, -1, call.fbid⟩,
          total.1, ((-1 : ℤ) : ℚ) * total.2⟩).baccId = [ba] := account
      have same_pool : (call.baccId, call.fbid, dateText (dims.pstart ba.2 call.startTs)) =
          call.pool := by
        rw [FbRow.pool, pstart_eq]
      simp only [Option.map_some, Option.getD_some, poolSeconds_of_account pool row_account]
      simp only [RatedRow.values, safeTs, joins.startTs, if_false, same_pool, allowed.1, ne_eq,
        not_false_eq_true, true_and, Int.cast_neg, Int.cast_one, neg_mul, one_mul, neg_neg_iff_pos]
      by_cases own : call.pool = pool <;> simp [own]

theorem sum_filterMap {Row Row' : Type*} (rows : List Row) (derive : Row → Option Row')
    (seconds : Row' → ℤ) :
    ((rows.filterMap derive).map seconds).sum =
      (rows.map fun row => ((derive row).map seconds).getD 0).sum := by
  induction rows with
  | nil => rfl
  | cons row rest induction =>
      rw [List.filterMap_cons, List.map_cons, List.sum_cons, ← induction]
      cases derive row <;> simp

theorem sum_filter {Row M : Type*} [AddCommMonoid M] (rows : List Row) (meets : Row → Prop)
    [DecidablePred meets] (weight : Row → M) :
    ((rows.filter fun row => meets row).map weight).sum =
      (rows.map fun row => if meets row then weight row else 0).sum := by
  induction rows with
  | nil => rfl
  | cons row rest induction =>
      by_cases met : meets row <;> simp [met, induction]

/-- The rows of `fb` come from such joins. -/
theorem joins_of_mem_fb {order : BatchOrder} {leg : Leg} {window : List ℕ} {call : FbRow}
    (member : call ∈ dims.fb order leg (dims.windowCdrs window)) : dims.Joins call := by
  simp only [Dims.fb, List.mem_flatMap, List.mem_map] at member
  obtain ⟨bm, bm_mem, t, t_mem, ba, ba_mem, limit, limit_mem, rfl⟩ := member
  obtain ⟨t_mem, own⟩ := List.mem_filter.mp t_mem
  exact {
    startTs := (mem_windowCdrs (mem_bestMatch bm_mem)).2
    tariff := ⟨t, t_mem, of_decide_eq_true own, rfl⟩
    limit := limit_mem
    period := ⟨ba, ba_mem, rfl⟩ }

/-- A batch on a window leaves the history that `rateBatches` gives the batch after it. -/
theorem hist_rtDuckdbRateBatch (dims : Dims) (order : BatchOrder) (leg : Leg) (limit : ℕ) (db : Db)
    (some_cdr : batchWindow leg limit db.cdrs ≠ []) :
    dims.hist ((dims.rtDuckdbRateBatch order leg limit db).2.2.rating.rows.map Prod.snd) =
      dims.hist (db.rating.rows.map Prod.snd ++ (ratedBatch dims.calcFunction
        (dims.hist (db.rating.rows.map Prod.snd))
        (dims.fb order leg (dims.windowCdrs (batchWindow leg limit db.cdrs)))).map
          RatedRow.values) := by
  funext pool
  have rows := (rtDuckdbRateBatch_of_window dims order leg limit db some_cdr).2.1
  have stored : (dims.added order leg limit db).map Prod.snd =
      (dims.rated order leg (batchWindow leg limit db.cdrs) (db.rating.rows.map Prod.snd)).map
        RatedRow.values := db.rating.map_snd_newRows _
  have any_order : ((dims.rated order leg (batchWindow leg limit db.cdrs)
      (db.rating.rows.map Prod.snd)).map RatedRow.values).Perm _ := (order.rated_perm _).map _
  rw [rows, List.map_append, stored, hist_append, hist_append, hist_eq _ pool, hist_eq _ pool,
    hist_eq _ pool, (any_order.map _).sum_eq]

/-- The seconds that a batch adds to the history of a pool. -/
theorem hist_ratedBatch (distinct : (fb.map FbRow.cdrId).Nodup)
    (joins : ∀ call ∈ fb, dims.Joins call)
    (allowed : ∀ call ∈ fb, call.HasAllowance) (pool : ℕ × ℕ × String) :
    dims.hist ((ratedBatch dims.calcFunction hist fb).map RatedRow.values) pool =
      ((fb.filter fun call => call.pool = pool).map fun call =>
        fee (dims.counted call.tariffId) (freeSec hist fb call)).sum := by
  have paid (pt : Portion) (unfree : pt.fbidOut = 0) :
      ((pt.rated dims.calcFunction).map fun rb => dims.poolSeconds pool rb.values).getD 0 = 0 := by
    rw [Portion.rated, Option.map_map]
    cases tariffTotal dims.calcFunction pt.call.tariffId pt.sec with
    | none => rfl
    | some total => exact poolSeconds_paid pool unfree
  have whole : fb.filter (fun call => call.HasAllowance) = fb :=
    List.filter_eq_self.mpr fun call member => decide_eq_true (allowed call member)
  have none_else : fb.filter (fun call => ¬ call.HasAllowance) = [] :=
    List.filter_eq_nil_iff.mpr fun call member => by simpa using allowed call member
  have composed : dims.poolSeconds pool ∘ RatedRow.values =
      fun rb => dims.poolSeconds pool rb.values :=
    rfl
  rw [hist_eq, List.map_map, ratedBatch_eq distinct, composed, sum_filterMap, portions, whole,
    none_else]
  simp only [List.map_nil, List.nil_append, List.map_append, List.sum_append, List.map_map,
    Function.comp_def]
  have paid_sum : ((fb.filter fun call => 0 < call.billsec - freeSec hist fb call).map fun call =>
      (((⟨call, .paid, call.billsec - freeSec hist fb call, 1, 0⟩ : Portion).rated
        dims.calcFunction).map fun rb => dims.poolSeconds pool rb.values).getD 0).sum = 0 :=
    List.sum_eq_zero fun seconds member => by
      obtain ⟨call, -, rfl⟩ := List.mem_map.mp member
      exact paid _ rfl
  rw [paid_sum, zero_add, sum_filter, sum_filter]
  refine congrArg List.sum (List.map_congr_left fun call member => ?_)
  rw [poolSeconds_free pool (joins call member) (allowed call member), fee]
  by_cases own : call.pool = pool <;> by_cases free : 0 < freeSec hist fb call <;> simp [own, free]

end Batch

/-! ## The order of the calls -/

/-- The seconds that the calls ask of a pool. -/
def asked (calls : List FbRow) (pool : ℕ × ℕ × String) : ℤ :=
  ((calls.filter fun call => call.pool = pool).map FbRow.billsec).sum

theorem asked_append (calls more : List FbRow) (pool : ℕ × ℕ × String) :
    asked (calls ++ more) pool = asked calls pool + asked more pool := by
  rw [asked, asked, asked, List.filter_append, List.map_append, List.sum_append]

section Sequence

variable {dims : Dims} {baccId : ℕ} {pstart : String} {calls : List FbRow}

theorem asked_nonneg (seconds : ∀ call ∈ calls, 0 ≤ call.billsec) (pool : ℕ × ℕ × String) :
    0 ≤ asked calls pool := by
  refine List.sum_nonneg fun sec member => ?_
  obtain ⟨call, call_mem, rfl⟩ := List.mem_map.mp member
  exact seconds call (List.mem_of_mem_filter call_mem)

namespace Dims.CallSequence

theorem nodup (sequence : dims.CallSequence baccId pstart calls) : (calls.map FbRow.cdrId).Nodup :=
  List.pairwise_map.mpr (sequence.ordered.imp fun less => Nat.ne_of_lt less)

/-- A part of the calls is such a sequence too. -/
theorem of_sublist (sequence : dims.CallSequence baccId pstart calls) {part : List FbRow}
    (sub : part.Sublist calls) : dims.CallSequence baccId pstart part where
  ordered := sequence.ordered.sublist sub
  joins call member := sequence.joins call (sub.subset member)
  account call member := sequence.account call (sub.subset member)
  period call member := sequence.period call (sub.subset member)
  allowance call member := sequence.allowance call (sub.subset member)
  seconds call member := sequence.seconds call (sub.subset member)

/-- The running sum of a call is what the calls before it ask of its pool. -/
theorem runningSeconds_eq {before after : List FbRow} {call : FbRow}
    (sequence : dims.CallSequence baccId pstart (before ++ call :: after)) :
    runningSeconds (before ++ call :: after) call = asked before call.pool := by
  obtain ⟨-, rest_ordered, across⟩ := List.pairwise_append.mp sequence.ordered
  have later := (List.pairwise_cons.mp rest_ordered).1
  have earlier_part : before.filter (fun other => other.HasAllowance ∧ other.pool = call.pool ∧
      other.cdrId < call.cdrId) = before.filter fun other => other.pool = call.pool := by
    refine List.filter_congr fun other member => ?_
    have allowed := sequence.allowance other (List.mem_append_left _ member)
    have less := across other member call List.mem_cons_self
    simp [allowed, less]
  have later_part : (call :: after).filter (fun other => other.HasAllowance ∧
      other.pool = call.pool ∧ other.cdrId < call.cdrId) = [] := by
    refine List.filter_eq_nil_iff.mpr fun other member => ?_
    rcases List.mem_cons.mp member with rfl | member
    · simp
    · have := later other member
      simp only [decide_eq_true_eq, not_and, not_lt]
      omega
  rw [runningSeconds, List.filter_append, earlier_part, later_part, List.append_nil, asked]

end Dims.CallSequence

/-- The calls that ask one pool spend it in the order of the batch. -/
theorem sum_fee_eq_spend (size booked : ℤ) (pool : ℕ × ℕ × String) {before rest : List FbRow}
    (sequence : dims.CallSequence baccId pstart (before ++ rest)) :
    ((rest.filter fun call => call.pool = pool).map fun call => fee (dims.counted call.tariffId)
        (grant (size - (booked + runningSeconds (before ++ rest) call)) call.billsec)).sum =
      spend size FbRow.billsec (fun call => dims.counted call.tariffId) (booked + asked before pool)
        (rest.filter fun call => call.pool = pool) := by
  induction rest generalizing before with
  | nil => rfl
  | cons call rest induction =>
      have moved : before ++ call :: rest = (before ++ [call]) ++ rest := by simp
      have later := induction (moved ▸ sequence)
      rw [← moved] at later
      by_cases own : call.pool = pool
      · have running : runningSeconds (before ++ call :: rest) call = asked before pool := by
          rw [← own]
          exact sequence.runningSeconds_eq
        have advanced : booked + asked (before ++ [call]) pool =
            booked + asked before pool + call.billsec := by
          simp [asked, own, add_assoc]
        rw [List.filter_cons_of_pos (by simpa using own), List.map_cons, List.sum_cons, later,
          running, advanced]
        rfl
      · have advanced : asked (before ++ [call]) pool = asked before pool := by
          simp [asked, own]
        rw [List.filter_cons_of_neg (by simpa using own), later, advanced]

end Sequence

/-! ## Every cut is the drawdown -/

section Independence

variable {dims : Dims} {baccId : ℕ} {pstart : String} {start rating : List RatingRow}

/-- The tariffs with free seconds sell what is left of their allowance by the second. -/
def Dims.AllowancesBySecond (dims : Dims) (start : List RatingRow) (baccId : ℕ) (pstart : String) :
    Prop :=
  ∀ t ∈ dims.rates.tariff.rows, t.2.freeBillsecId ≠ 0 →
    ∀ limit ∈ dims.fbLimits t.2.freeBillsecId, 0 < limit →
      dims.SellsBySecond t.1 (limit - dims.hist start (baccId, t.2.freeBillsecId, pstart))

/-- What the drawdown gives a call that finds the seconds of all calls before it. -/
def Dims.drawn (dims : Dims) (start : List RatingRow) (calls : List FbRow) (call : FbRow) :
    CallSplit where
  call := call
  freeSec := freeSec (dims.hist start) calls call
  paidSec := call.billsec - freeSec (dims.hist start) calls call
  rows := (call.split (freeSec (dims.hist start) calls call)).filterMap
    (Portion.rated dims.calcFunction)

theorem Dims.SellsBySecond.counted_eq {tariffId : ℕ} {left sec : ℤ}
    (sells : dims.SellsBySecond tariffId left) (positive : 0 < sec) (within : sec ≤ left) :
    sec ≤ dims.counted tariffId sec ∧ (sec < left → dims.counted tariffId sec = sec) := by
  obtain ⟨total, found, costs, billed⟩ := sells sec positive within
  have counted_eq : dims.counted tariffId sec = total.1 := by
    rw [Dims.counted, Option.mem_def.mp found]
    exact if_pos costs
  rw [counted_eq]
  exact billed

/-- The allowance of a call is that of its pool. -/
theorem fbLimit_eq {call other : FbRow} (joins : dims.Joins call) (joins' : dims.Joins other)
    (same : other.pool = call.pool) : other.fbLimit = call.fbLimit := by
  have fbid_eq : other.fbid = call.fbid := congrArg (·.2.1) same
  have one : (dims.fbLimits call.fbid).length = 1 := length_fbLimits call.fbid
  obtain ⟨limit, limits_eq⟩ := List.length_eq_one_iff.mp one
  have own := joins.limit
  have own' := joins'.limit
  rw [fbid_eq, limits_eq, List.mem_singleton] at own'
  rw [limits_eq, List.mem_singleton] at own
  rw [own, own']

/-- The free seconds of a call after some others. -/
theorem Dims.CallSequence.freeSec_eq {before after : List FbRow} {call : FbRow}
    (sequence : dims.CallSequence baccId pstart (before ++ call :: after))
    (hist : ℕ × ℕ × String → ℤ) :
    freeSec hist (before ++ call :: after) call =
      grant (call.fbLimit - (hist call.pool + asked before call.pool)) call.billsec := by
  rw [← sequence.runningSeconds_eq]
  rfl

theorem freeSec_eq_grant (hist : ℕ × ℕ × String → ℤ) (fb : List FbRow) (call : FbRow) :
    freeSec hist fb call =
      grant (call.fbLimit - (hist call.pool + runningSeconds fb call)) call.billsec := rfl

/-- The seconds of a batch by the books of the whole sequence. -/
theorem freeSec_of_agree {fb : List FbRow} {call : FbRow} {booked : ℤ}
    (agree : Agree (call.fbLimit - dims.hist start call.pool) booked
      (dims.hist rating call.pool - dims.hist start call.pool))
    (nonneg : 0 ≤ runningSeconds fb call) :
    freeSec (dims.hist rating) fb call =
      grant (call.fbLimit - dims.hist start call.pool - (booked + runningSeconds fb call))
        call.billsec := by
  rw [← agree.grant_eq nonneg, freeSec_eq_grant]
  congr 1
  omega

/-- The books of a pool still agree after a batch. -/
theorem agree_after_batch (sells : dims.AllowancesBySecond start baccId pstart)
    {calls fb : List FbRow}
    (sequence : dims.CallSequence baccId pstart calls) (part : fb.Sublist calls) {call : FbRow}
    (member : call ∈ calls) {booked : ℤ} (booked_nonneg : 0 ≤ booked)
    (agree : Agree (call.fbLimit - dims.hist start call.pool) booked
      (dims.hist rating call.pool - dims.hist start call.pool)) :
    Agree (call.fbLimit - dims.hist start call.pool) (booked + asked fb call.pool)
      (dims.hist (rating ++
        (ratedBatch dims.calcFunction (dims.hist rating) fb).map RatedRow.values) call.pool -
          dims.hist start call.pool) := by
  have batch := sequence.of_sublist part
  have pool_eq {other : FbRow} (other_mem : other ∈ calls) :
      other.pool = (baccId, other.fbid, pstart) := by
    rw [FbRow.pool, sequence.account other other_mem, sequence.period other other_mem]
  have request {other : FbRow} (other_mem : other ∈ fb.filter fun other => other.pool = call.pool) :
      other ∈ calls ∧ other ∈ fb ∧ other.pool = call.pool ∧ other.fbLimit = call.fbLimit := by
    obtain ⟨fb_mem, same⟩ := List.mem_filter.mp other_mem
    have calls_mem := part.subset fb_mem
    exact ⟨calls_mem, fb_mem, of_decide_eq_true same, fbLimit_eq (sequence.joins call member)
      (sequence.joins other calls_mem) (of_decide_eq_true same)⟩
  -- the free seconds of the batch are those of the books
  have spent : dims.hist ((ratedBatch dims.calcFunction (dims.hist rating) fb).map RatedRow.values)
      call.pool = spend (call.fbLimit - dims.hist start call.pool) FbRow.billsec
        (fun other => dims.counted other.tariffId) booked
          (fb.filter fun other => other.pool = call.pool) := by
    have in_order := sum_fee_eq_spend (call.fbLimit - dims.hist start call.pool) booked call.pool
      (show dims.CallSequence baccId pstart ([] ++ fb) from batch)
    rw [List.nil_append, show asked [] call.pool = 0 from rfl, add_zero] at in_order
    rw [hist_ratedBatch batch.nodup batch.joins batch.allowance, ← in_order]
    refine congrArg List.sum (List.map_congr_left fun other other_mem => ?_)
    obtain ⟨-, fb_mem, same, limit_eq⟩ := request other_mem
    have nonneg : 0 ≤ runningSeconds fb other := by
      obtain ⟨before, after, rfl⟩ := List.append_of_mem fb_mem
      rw [batch.runningSeconds_eq]
      exact asked_nonneg (fun earlier earlier_mem =>
        batch.seconds earlier (List.mem_append_left _ earlier_mem)) _
    have own_agree : Agree (other.fbLimit - dims.hist start other.pool) booked
        (dims.hist rating other.pool - dims.hist start other.pool) := by
      rw [same, limit_eq]
      exact agree
    rw [freeSec_of_agree own_agree nonneg, same, limit_eq]
  have later := agree.run FbRow.billsec (fun other => dims.counted other.tariffId) booked_nonneg
    (fb.filter fun other => other.pool = call.pool)
    (fun other other_mem => sequence.seconds other (request other_mem).1)
    fun other other_mem => by
      obtain ⟨calls_mem, -, same, limit_eq⟩ := request other_mem
      obtain ⟨t, t_mem, tariff_eq, fbid_eq⟩ := (sequence.joins other calls_mem).tariff
      have allowed := sequence.allowance other calls_mem
      have own := sells t t_mem (fbid_eq ▸ allowed.1) other.fbLimit
        (fbid_eq ▸ (sequence.joins other calls_mem).limit) allowed.2
      rw [tariff_eq, fbid_eq, ← pool_eq calls_mem, same, limit_eq] at own
      exact fun got positive within => own.counted_eq positive within
  rw [hist_append, spent, add_sub_right_comm]
  exact later

/-- Batches give every call what the drawdown gives it. -/
theorem rateBatches_eq (sells : dims.AllowancesBySecond start baccId pstart)
    {before : List FbRow} {cuts : List (List FbRow)}
    (sequence : dims.CallSequence baccId pstart (before ++ cuts.flatten))
    (agree : ∀ call ∈ before ++ cuts.flatten,
      Agree (call.fbLimit - dims.hist start call.pool) (asked before call.pool)
        (dims.hist rating call.pool - dims.hist start call.pool)) :
    dims.rateBatches rating cuts = cuts.flatten.map
      (dims.drawn start (before ++ cuts.flatten)) := by
  induction cuts generalizing before rating with
  | nil => rfl
  | cons fb rest induction =>
      have moved : before ++ (fb :: rest).flatten = (before ++ fb) ++ rest.flatten := by simp
      have before_nonneg : ∀ call ∈ before, 0 ≤ call.billsec :=
        fun call member => sequence.seconds call (List.mem_append_left _ member)
      have part : fb.Sublist (before ++ (fb :: rest).flatten) := by
        rw [List.flatten_cons]
        exact (List.sublist_append_left fb _).trans (List.sublist_append_right before _)
      have batch := sequence.of_sublist part
      have later := induction (moved ▸ sequence) fun call member => by
        rw [← moved] at member
        rw [asked_append]
        exact agree_after_batch sells sequence part member (asked_nonneg before_nonneg _)
          (agree call member)
      rw [Dims.rateBatches, later, ← moved, List.flatten_cons, List.map_append]
      refine congrArg (· ++ _) (List.map_congr_left fun call member => ?_)
      obtain ⟨earlier, after, rfl⟩ := List.append_of_mem member
      have in_batch : runningSeconds (earlier ++ call :: after) call = asked earlier call.pool :=
        batch.runningSeconds_eq
      have in_sequence :
          runningSeconds (before ++ ((earlier ++ call :: after) ++ rest.flatten)) call =
          asked before call.pool + asked earlier call.pool := by
        have split : before ++ ((earlier ++ call :: after) ++ rest.flatten) =
            (before ++ earlier) ++ call :: (after ++ rest.flatten) := by simp
        rw [List.flatten_cons] at sequence
        rw [split, ← asked_append]
        exact (split ▸ sequence).runningSeconds_eq
      have earlier_nonneg : 0 ≤ asked earlier call.pool :=
        asked_nonneg
          (fun other other_mem => batch.seconds other (List.mem_append_left _ other_mem)) _
      have same_free : freeSec (dims.hist rating) (earlier ++ call :: after) call =
          freeSec (dims.hist start)
            (before ++ ((earlier ++ call :: after) ++ rest.flatten)) call := by
        rw [freeSec_of_agree (agree call (part.subset member))
          (in_batch ▸ earlier_nonneg), in_batch,
          freeSec_eq_grant, in_sequence, sub_sub]
      rw [Dims.splitIn, Dims.drawn, same_free,
        filter_ratedBatch batch.nodup member (batch.allowance call member), same_free]

theorem batchSizeIndependent_of_sells (sells : dims.AllowancesBySecond start baccId pstart) :
    dims.BatchSizeIndependent start baccId pstart := by
  have drawn {cuts : List (List FbRow)} (sequence : dims.CallSequence baccId pstart cuts.flatten) :
      dims.rateBatches start cuts = cuts.flatten.map (dims.drawn start cuts.flatten) := by
    have agree : ∀ call ∈ [] ++ cuts.flatten,
        Agree (call.fbLimit - dims.hist start call.pool) (asked [] call.pool)
          (dims.hist start call.pool - dims.hist start call.pool) := by
      intro call _
      rw [sub_self]
      exact agree_zero _
    rw [← List.nil_append cuts.flatten] at sequence
    have all := rateBatches_eq sells sequence agree
    rwa [List.nil_append] at all
  rintro calls sequence cuts cuts' rfl same
  rw [drawn sequence, drawn (same ▸ sequence), same]

/-- A call of some seconds on a tariff with an allowance. -/
def allowanceCall (baccId : ℕ) (ts pstart : String) (t : ℕ × TariffRow) (limit : ℤ) (cdrId : ℕ)
    (billsec : ℤ) : FbRow :=
  ⟨cdrId, billsec, ts, baccId, 0, t.1, 0, 0, 0, t.2.freeBillsecId, limit, pstart⟩

/-- A call and one after it are such a sequence. -/
theorem pair_sequence {ba : ℕ × BillingAccountRow} {ts : String}
    (account : ba ∈ dims.accountsOf baccId)
    (dated : ts ≠ "") {t : ℕ × TariffRow} (sold : t ∈ dims.rates.tariff.rows)
    (has_free : t.2.freeBillsecId ≠ 0) {limit : ℤ}
    (limited : limit ∈ dims.fbLimits t.2.freeBillsecId)
    (positive : 0 < limit) {sec more : ℤ} (sec_nonneg : 0 ≤ sec) (more_nonneg : 0 ≤ more) :
    let call := allowanceCall baccId ts (dateText (dims.pstart ba.2 ts)) t limit
    dims.CallSequence baccId (dateText (dims.pstart ba.2 ts)) [call 1 sec, call 2 more] := by
  have joins (cdrId : ℕ) (billsec : ℤ) : dims.Joins (allowanceCall baccId ts
      (dateText (dims.pstart ba.2 ts)) t limit cdrId billsec) :=
    ⟨dated, ⟨t, sold, rfl, rfl⟩, limited, ba, account, rfl⟩
  exact {
    ordered := by simp [allowanceCall]
    joins := by simp [joins]
    account := by simp [allowanceCall]
    period := by simp [allowanceCall]
    allowance := by simp [allowanceCall, FbRow.HasAllowance, has_free, positive]
    seconds := by simp [allowanceCall, sec_nonneg, more_nonneg] }

/-- Two calls in one batch and in two: the second one tells how the first one was counted. -/
theorem sells_of_batchSizeIndependent {ba : ℕ × BillingAccountRow} {ts : String}
    (account : ba ∈ dims.accountsOf baccId) (dated : ts ≠ "")
    (independent : dims.BatchSizeIndependent start baccId (dateText (dims.pstart ba.2 ts))) :
    dims.AllowancesBySecond start baccId (dateText (dims.pstart ba.2 ts)) := by
  intro t sold has_free limit limited positive sec sec_pos within
  let call := allowanceCall baccId ts (dateText (dims.pstart ba.2 ts)) t limit
  let pool := (baccId, t.2.freeBillsecId, dateText (dims.pstart ba.2 ts))
  have same (more : ℤ) (more_nonneg : 0 ≤ more) :
      grant (limit - dims.hist start pool - sec) more =
        grant (limit - dims.hist start pool - dims.counted t.1 sec) more := by
    have sequence : dims.CallSequence baccId (dateText (dims.pstart ba.2 ts))
        [call 1 sec, call 2 more] :=
      pair_sequence account dated sold has_free limited positive sec_pos.le more_nonneg
    have first := sequence.of_sublist (List.sublist_append_left [call 1 sec] [call 2 more])
    have splits := independent _ sequence [[call 1 sec, call 2 more]] [[call 1 sec], [call 2 more]]
      rfl rfl
    have second : freeSec (dims.hist start) [call 1 sec, call 2 more] (call 2 more) =
        freeSec (dims.hist (start ++ (ratedBatch dims.calcFunction (dims.hist start)
          [call 1 sec]).map RatedRow.values)) [call 2 more] (call 2 more) := by
      simp only [Dims.rateBatches, List.map_cons, List.map_nil, List.append_nil, List.cons_append,
        List.nil_append, List.cons.injEq, and_true] at splits
      exact congrArg CallSplit.freeSec splits.2
    have own (cdrId : ℕ) (billsec : ℤ) : (call cdrId billsec).pool = pool := rfl
    have picked : [call 1 sec].filter (fun other => other.pool = pool) = [call 1 sec] := by
      simp [own]
    have asked_first : asked [call 1 sec] pool = sec := by
      rw [asked, picked, List.map_singleton, List.sum_singleton]
      rfl
    have alone : freeSec (dims.hist start) [call 1 sec] (call 1 sec) = sec := by
      have free := Dims.CallSequence.freeSec_eq (show dims.CallSequence baccId
        (dateText (dims.pstart ba.2 ts)) ([] ++ [call 1 sec]) from first) (dims.hist start)
      rw [show asked [] (call 1 sec).pool = 0 from rfl, add_zero] at free
      have within : sec ≤ limit - dims.hist start pool := within
      have got : grant (limit - dims.hist start pool) sec = sec := by
        unfold grant
        omega
      exact free.trans got
    have charged : dims.hist (start ++ (ratedBatch dims.calcFunction (dims.hist start)
        [call 1 sec]).map RatedRow.values) pool = dims.hist start pool + dims.counted t.1 sec := by
      rw [hist_append, hist_ratedBatch first.nodup first.joins first.allowance, picked,
        List.map_singleton, List.sum_singleton, alone, fee, if_pos sec_pos]
      rfl
    have together := Dims.CallSequence.freeSec_eq (show dims.CallSequence baccId
      (dateText (dims.pstart ba.2 ts)) ([call 1 sec] ++ [call 2 more]) from sequence)
        (dims.hist start)
    have apart := Dims.CallSequence.freeSec_eq (show dims.CallSequence baccId
      (dateText (dims.pstart ba.2 ts)) ([] ++ [call 2 more]) from
        sequence.of_sublist (List.sublist_append_right [call 1 sec] [call 2 more]))
      (dims.hist (start ++ (ratedBatch dims.calcFunction (dims.hist start)
        [call 1 sec]).map RatedRow.values))
    rw [own, charged, show asked [] pool = 0 from rfl, add_zero] at apart
    rw [own, asked_first] at together
    rw [sub_sub, sub_sub]
    exact together.symm.trans (second.trans apart)
  obtain ⟨at_least, exactly⟩ := charge_of_grant_eq sec_pos within same
  cases found : tariffTotal dims.calcFunction t.1 sec with
  | none =>
      rw [Dims.counted, found] at at_least
      exact absurd at_least (not_le.mpr sec_pos)
  | some total =>
      rw [Dims.counted, found] at at_least exactly
      by_cases costs : 0 < total.2
      · simp only [costs, if_true] at at_least exactly
        exact ⟨total, rfl, costs, at_least, exactly⟩
      · simp only [costs, if_false] at at_least
        exact absurd at_least (not_le.mpr sec_pos)

/-- Account 1 with free seconds on a tariff of one tier. -/
def allowanceDims (tier : CalcFunction) (allowance : ℤ) : Dims where
  accounts := oneNumber
  rates := {
    rate := SerialTable.empty.insert { billPlanId := 1, tariffId := 1, prefixId := 1 }
    prefixes := SerialTable.empty.insert "2"
    tariff := SerialTable.empty.insert { freeBillsecId := 1 } }
  calcFunction := fun _ => [tier]
  freeBillsec := SerialTable.empty.insert allowance
  call := fun _ => trunkCdr
  startTs_ne := fun _ => by decide
  castTs := fun _ => ⟨2024, 3, 4, 10, 0, 0, 1⟩

/-- A call of account 1 on that tariff. -/
def secondsCall (allowance : ℤ) : ℕ → ℤ → FbRow :=
  allowanceCall 1 "2024-03-04 10:00:00" "2024-03-01" (1, { freeBillsecId := 1 }) allowance

theorem allowanceDims_pstart (tier : CalcFunction) (allowance : ℤ) :
    dateText ((allowanceDims tier allowance).pstart { cdrServerId := 1 } "2024-03-04 10:00:00") =
      "2024-03-01" := by
  have first_day : dateText (winStart 1 (Tm.castDate ⟨2024, 3, 4, 10, 0, 0, 1⟩)) =
      "2024-03-01" := by
    decide +kernel
  exact first_day

end Independence

end RateEngine
