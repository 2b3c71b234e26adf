import Mathlib.Data.List.FinRange
import Mathlib.Order.SuccPred.IntervalSucc
import RateEngine.BatchProgress

/-!
# The shares of the rating threads

With more than one thread `rt_loop` gives each worker a range of indices into the batch: its start
and its length come from the quotient and the remainder of the batch by the threads.  The ranges lie
one after the other, so each CDR of the batch goes to one worker.
-/

namespace RateEngine

/-! ## Ranges -/

/-- `start` of `rt_loop` for the worker `t`. -/
def workerStart (pp numThreads t : ℕ) : ℕ :=
  let perThread := pp / numThreads
  let remainder := pp % numThreads
  t * perThread + if t < remainder then t else remainder

/-- `count` of `rt_loop` for the worker `t`. -/
def workerCount (pp numThreads t : ℕ) : ℕ :=
  let perThread := pp / numThreads
  let remainder := pp % numThreads
  perThread + if t < remainder then 1 else 0

/-- `indices` of the worker `t`. -/
def workerIndices (pp numThreads t : ℕ) : List ℕ :=
  (List.range (workerCount pp numThreads t)).map fun i => workerStart pp numThreads t + i

/-- The indices of the workers on the path of `rt_loop` with more than one thread. -/
def rtLoopIndices (pp numThreads : ℕ) : List (List ℕ) :=
  (List.range numThreads).map (workerIndices pp numThreads)

variable {pp numThreads : ℕ}

@[simp]
theorem workerStart_zero : workerStart pp numThreads 0 = 0 := by
  rw [workerStart, Nat.zero_mul]
  split <;> omega

/-- A range starts where the one before it ends. -/
theorem workerStart_succ (t : ℕ) :
    workerStart pp numThreads (t + 1) = workerStart pp numThreads t +
      workerCount pp numThreads t := by
  have next : (t + 1) * (pp / numThreads) = t * (pp / numThreads) + pp / numThreads :=
    Nat.succ_mul t _
  simp only [workerStart, workerCount, next]
  split <;> split <;> omega

/-- The last range ends with the batch. -/
theorem workerStart_numThreads (threads : 0 < numThreads) :
    workerStart pp numThreads numThreads = pp := by
  have shared := Nat.div_add_mod pp numThreads
  have short := Nat.mod_lt pp threads
  simp only [workerStart, if_neg (Nat.not_lt.mpr short.le)]
  exact shared

theorem mem_workerIndices {t i : ℕ} : i ∈ workerIndices pp numThreads t ↔
    i ∈ Set.Ico (workerStart pp numThreads t) (workerStart pp numThreads (t + 1)) := by
  rw [workerIndices, List.mem_map, workerStart_succ, Set.mem_Ico]
  constructor
  · rintro ⟨j, inside, rfl⟩
    have := List.mem_range.mp inside
    omega
  · rintro ⟨low, high⟩
    exact ⟨i - workerStart pp numThreads t, List.mem_range.mpr (by omega), by omega⟩

theorem workerStart_mono : Monotone (workerStart pp numThreads) :=
  monotone_nat_of_le_succ fun t => by
    rw [workerStart_succ]
    exact Nat.le_add_right _ _

/-- The ranges of the first workers, one after the other, are the start of the batch. -/
theorem workerIndices_flatMap (t : ℕ) :
    (List.range t).flatMap (workerIndices pp numThreads) = List.range
      (workerStart pp numThreads t) := by
  induction t with
  | zero => simp
  | succ t induction =>
      rw [List.range_succ, List.flatMap_append, induction, List.flatMap_singleton, workerStart_succ,
        List.range_add, workerIndices]

/-- The workers are given the indices of the batch in order. -/
theorem rtLoopIndices_flatten (threads : 0 < numThreads) :
    (rtLoopIndices pp numThreads).flatten = List.range pp := by
  rw [rtLoopIndices, ← List.flatMap_def, workerIndices_flatMap, workerStart_numThreads threads]

/-- No two workers share an index, each index of the batch has a worker, and no worker has two CDRs
more than another. -/
theorem rtLoopIndices_partition (threads : 1 < numThreads) :
    (rtLoopIndices pp numThreads).Pairwise List.Disjoint ∧
      (∀ i, (∃ indices ∈ rtLoopIndices pp numThreads, i ∈ indices) ↔ i < pp) ∧
        ∀ indices ∈ rtLoopIndices pp numThreads, ∀ others ∈ rtLoopIndices pp numThreads,
          indices.length ≤ others.length + 1 := by
  refine ⟨?_, fun i => ?_, ?_⟩
  · refine List.pairwise_map.mpr (List.nodup_range.imp fun {t u} apart i left right => ?_)
    exact Set.disjoint_left.mp (Monotone.pairwise_disjoint_on_Ico_succ workerStart_mono apart)
      (mem_workerIndices.mp left) (mem_workerIndices.mp right)
  · rw [← List.mem_flatten, rtLoopIndices_flatten (by omega), List.mem_range]
  · have length (t : ℕ) : (workerIndices pp numThreads t).length = workerCount pp numThreads t := by
      rw [workerIndices, List.length_map, List.length_range]
    rw [rtLoopIndices]
    simp only [List.forall_mem_map, length, workerCount]
    intro t _ u _
    split <;> split <;> omega

/-- Seven CDRs for three workers. -/
theorem rtLoopIndices_partition_seven :
    rtLoopIndices 7 3 = [[0, 1, 2], [3, 4], [5, 6]] ∧
      (rtLoopIndices 7 3).Pairwise List.Disjoint :=
  ⟨by decide, (rtLoopIndices_partition (by decide)).1⟩

/-! ## The loops of the workers -/

/-- The CDRs that `rt_worker_func` goes through. -/
def rtWorkerFunc {α : Type*} (cdrs : List α) (indices : List ℕ) : List α :=
  indices.filterMap fun idx => cdrs[idx]?

/-- Each CDR of the batch is gone through once, by one worker. -/
theorem rtWorkerFunc_flatMap {α : Type*} (cdrs : List α) (threads : 0 < numThreads) :
    (rtLoopIndices cdrs.length numThreads).flatMap (rtWorkerFunc cdrs) = cdrs := by
  have taken (list : List (List ℕ)) :
      list.flatMap (rtWorkerFunc cdrs) = rtWorkerFunc cdrs list.flatten := by
    rw [rtWorkerFunc, List.filterMap_flatten, List.flatMap_def]
    rfl
  have found : ((fun idx => cdrs[idx]?) ∘ Fin.val : Fin cdrs.length → Option α) =
      some ∘ cdrs.get := by
    funext i
    simp
  rw [taken, rtLoopIndices_flatten threads, rtWorkerFunc, ← List.map_coe_finRange_eq_range,
    List.filterMap_map, found, List.filterMap_eq_map, List.map_get_finRange]

/-- The CDRs that `rt_loop` hands to its workers. -/
def rtLoopQueues (batch : List Job) (numThreads : ℕ) : List (List Job) :=
  (rtLoopIndices batch.length numThreads).map (rtWorkerFunc batch)

/-- When every schedule of the workers marks what they were handed, the batch is marked. -/
theorem LoopMarks.batch {db : Db} {batch : List Job} (threads : 0 < numThreads)
    (marks : LoopMarks db (rtLoopQueues batch numThreads)) {schedule : List ℕ} {s : RtLoop}
    (run : execAll RtLoop.step (RtLoop.start db (rtLoopQueues batch numThreads)) schedule = some s)
    (returned : s.Returned) : ∀ job ∈ batch, s.db.Marked job.leg job.cdr.id := by
  have handed : (rtLoopQueues batch numThreads).flatten = batch := by
    rw [rtLoopQueues, ← List.flatMap_def, rtWorkerFunc_flatMap batch threads]
  have marked := (marks schedule s run).2 returned
  rwa [handed] at marked

end RateEngine
