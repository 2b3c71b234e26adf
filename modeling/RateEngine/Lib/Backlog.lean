import Mathlib.Data.List.Perm.Subperm
import Mathlib.Data.List.Sort
import Mathlib.Tactic.Linarith

/-!
# Backlogs that are served in batches

A server takes the first entries of an ordered backlog, serves the good ones among them and takes
the next batch.  The entries that are not good stay, so the batches shrink by those before an entry.
An entry is served after some batches exactly when it is good and fewer than `limit` entries before
it are not.
-/

namespace Backlog

variable {α : Type*} [LinearOrder α] {waiting : List α} {limit : ℕ} {c : α}

/-! ## Batches of an ordered list -/

theorem countP_lt_append {front rest : List α} (sorted : (front ++ c :: rest).Pairwise (· < ·)) :
    (front ++ c :: rest).countP (· < c) = front.length := by
  obtain ⟨-, later, before⟩ := List.pairwise_append.mp sorted
  have front_all : front.countP (· < c) = front.length :=
    List.countP_eq_length.mpr fun a member => by simpa using before a member c List.mem_cons_self
  have rest_none : rest.countP (· < c) = 0 := by
    refine List.countP_eq_zero.mpr fun a member => ?_
    simpa using (List.rel_of_pairwise_cons later member).le
  rw [List.countP_append, List.countP_cons, front_all, rest_none]
  simp

/-- An entry is in the batch when fewer entries than the limit are before it. -/
theorem mem_take_iff (sorted : waiting.Pairwise (· < ·)) (member : c ∈ waiting) :
    c ∈ waiting.take limit ↔ waiting.countP (· < c) < limit := by
  obtain ⟨front, rest, rfl⟩ := List.append_of_mem member
  rw [countP_lt_append sorted]
  obtain ⟨-, -, before⟩ := List.pairwise_append.mp sorted
  constructor
  · intro taken
    by_contra full
    rw [List.take_append_of_le_length (not_lt.mp full)] at taken
    exact lt_irrefl c (before c (List.mem_of_mem_take taken) c List.mem_cons_self)
  · intro room
    obtain ⟨more, rfl⟩ := Nat.exists_eq_add_of_lt room
    rw [add_assoc, List.take_length_add_append, List.take_succ_cons]
    exact List.mem_append_right _ List.mem_cons_self

/-- A batch without the entry is full, and all of it is before the entry. -/
theorem take_before (sorted : waiting.Pairwise (· < ·)) (member : c ∈ waiting)
    (left : c ∉ waiting.take limit) :
    (waiting.take limit).length = limit ∧ ∀ a ∈ waiting.take limit, a < c := by
  obtain ⟨front, rest, rfl⟩ := List.append_of_mem member
  rw [mem_take_iff sorted member, countP_lt_append sorted, not_lt] at left
  obtain ⟨-, -, before⟩ := List.pairwise_append.mp sorted
  rw [List.take_append_of_le_length left]
  exact ⟨List.length_take_of_le left,
    fun a taken => before a (List.mem_of_mem_take taken) c List.mem_cons_self⟩

/-! ## Entries before an entry -/

variable (good : α → Prop) [DecidablePred good]

/-- The good entries before `c`. -/
def goodBefore (waiting : List α) (c : α) : ℕ := waiting.countP fun a => a < c ∧ good a

/-- The entries before `c` that are not good. -/
def stuckBefore (waiting : List α) (c : α) : ℕ := waiting.countP fun a => a < c ∧ ¬ good a

theorem goodBefore_add_stuckBefore (waiting : List α) (c : α) :
    goodBefore good waiting c + stuckBefore good waiting c = waiting.countP (· < c) := by
  induction waiting with
  | nil => rfl
  | cons a waiting induction =>
      rw [goodBefore, stuckBefore, List.countP_cons, List.countP_cons, List.countP_cons, ← induction,
        goodBefore, stuckBefore]
      by_cases before : a < c <;> by_cases served : good a <;> simp [before, served] <;> omega

variable {good}

/-- Entries that are not before `c` do not count. -/
theorem before_append {added : List α} (later : ∀ a ∈ added, ¬ a < c) :
    goodBefore good (waiting ++ added) c = goodBefore good waiting c ∧
      stuckBefore good (waiting ++ added) c = stuckBefore good waiting c := by
  have none_good : added.countP (fun a => a < c ∧ good a) = 0 :=
    List.countP_eq_zero.mpr fun a member => by simp [later a member]
  have none_stuck : added.countP (fun a => a < c ∧ ¬ good a) = 0 :=
    List.countP_eq_zero.mpr fun a member => by simp [later a member]
  rw [goodBefore, stuckBefore, List.countP_append, List.countP_append, none_good, none_stuck]
  exact ⟨rfl, rfl⟩

/-- Serving a good entry keeps those that are not good. -/
theorem stuckBefore_serve {a : α} (served : good a) :
    stuckBefore good (waiting.filter (· ≠ a)) c = stuckBefore good waiting c := by
  rw [stuckBefore, stuckBefore, List.countP_filter]
  refine List.countP_congr fun b _ => ?_
  simp only [ne_eq, decide_not, Bool.and_eq_true, decide_eq_true_eq, Bool.not_eq_eq_eq_not,
    Bool.not_true, decide_eq_false_iff_not]
  constructor
  · exact And.left
  · rintro ⟨before, stuck⟩
    exact ⟨⟨before, stuck⟩, fun same => stuck (same ▸ served)⟩

/-- A batch that has not come to `c` takes good entries before `c`, as many as the limit leaves
beside those that are not good. -/
theorem goodBefore_finish {after : List α} (sorted : waiting.Pairwise (· < ·))
    (member : c ∈ waiting) (left : c ∉ waiting.take limit) (after_nodup : after.Nodup)
    (kept : ∀ a ∈ after, a < c → a ∈ waiting)
    (served : ∀ a ∈ waiting.take limit, good a → a ∉ after) :
    goodBefore good after c + (limit - stuckBefore good waiting c) ≤ goodBefore good waiting c := by
  obtain ⟨full, before⟩ := take_before sorted member left
  have nodup : waiting.Nodup := sorted.imp fun lt => lt.ne
  let taken := (waiting.take limit).filter fun a => good a
  let rest := after.filter fun a => a < c ∧ good a
  -- the good entries of the batch and those left after it are different good entries before `c`
  have disjoint : (taken ++ rest).Nodup := by
    refine List.nodup_append.mpr ⟨(nodup.sublist (List.take_sublist _ _)).filter _,
      after_nodup.filter _, ?_⟩
    rintro a a_taken b b_rest rfl
    obtain ⟨in_batch, a_good⟩ := List.mem_filter.mp a_taken
    exact served a in_batch (by simpa using a_good) (List.mem_of_mem_filter b_rest)
  have subset : taken ++ rest ⊆ waiting.filter fun a => a < c ∧ good a := by
    intro a a_mem
    rcases List.mem_append.mp a_mem with a_taken | a_rest
    · obtain ⟨in_batch, a_good⟩ := List.mem_filter.mp a_taken
      refine List.mem_filter.mpr ⟨List.mem_of_mem_take in_batch, ?_⟩
      simpa using ⟨before a in_batch, by simpa using a_good⟩
    · obtain ⟨in_after, a_before⟩ := List.mem_filter.mp a_rest
      have a_lt : a < c := by
        have both : a < c ∧ good a := by simpa using a_before
        exact both.1
      exact List.mem_filter.mpr ⟨kept a in_after a_lt, a_before⟩
  have lengths := (List.Nodup.subperm disjoint subset).length_le
  -- of the full batch at most the entries before `c` that are not good are left out of `taken`
  have left_out : limit ≤ taken.length + stuckBefore good waiting c := by
    have split := List.length_eq_length_filter_add (l := waiting.take limit) fun a => good a
    have bad : ((waiting.take limit).filter fun a => !decide (good a)).length ≤
        stuckBefore good waiting c := by
      rw [stuckBefore, List.countP_eq_length_filter]
      refine (List.Nodup.subperm ((nodup.sublist (List.take_sublist _ _)).filter _) ?_).length_le
      intro a a_mem
      obtain ⟨in_batch, a_bad⟩ := List.mem_filter.mp a_mem
      refine List.mem_filter.mpr ⟨List.mem_of_mem_take in_batch, ?_⟩
      simpa using ⟨before a in_batch, by simpa using a_bad⟩
    have taken_eq : taken = (waiting.take limit).filter fun a => good a := rfl
    rw [full, ← taken_eq] at split
    omega
  rw [List.length_append] at lengths
  rw [goodBefore, goodBefore, List.countP_eq_length_filter, List.countP_eq_length_filter]
  have rest_eq : rest = after.filter fun a => a < c ∧ good a := rfl
  rw [← rest_eq]
  omega

/-! ## Runs -/

/-- The states of a server that starts with a backlog: the batches it has finished, what is waiting
and the batch that it has. -/
inductive Reaches (limit : ℕ) (good : α → Prop) (start : List α) :
    ℕ → List α → Option (List α) → Prop
  | start : Reaches limit good start 0 start none
  | fetch {k : ℕ} {waiting : List α} (run : Reaches limit good start k waiting none) :
      Reaches limit good start k waiting (some (waiting.take limit))
  | serve {k : ℕ} {waiting batch : List α} {a : α}
      (run : Reaches limit good start k waiting (some batch)) (member : a ∈ batch)
      (served : good a) : Reaches limit good start k (waiting.filter (· ≠ a)) (some batch)
  | finish {k : ℕ} {waiting batch : List α} (run : Reaches limit good start k waiting (some batch))
      (served : ∀ a ∈ batch, good a → a ∉ waiting) : Reaches limit good start (k + 1) waiting none
  | add {k : ℕ} {waiting : List α} {batch : Option (List α)} {a : α}
      (run : Reaches limit good start k waiting batch) (later : ∀ b ∈ start, b < a)
      (last : ∀ b ∈ waiting, b < a) : Reaches limit good start k (waiting ++ [a]) batch

/-- What a run from `start` keeps for the entry `c` of it. -/
structure Keeps (limit : ℕ) (good : α → Prop) [DecidablePred good] (start : List α) (c : α) (k : ℕ)
    (waiting : List α) : Prop where
  sorted : waiting.Pairwise (· < ·)
  stuck : stuckBefore good waiting c = stuckBefore good start c
  drained : good c → c ∈ waiting →
    goodBefore good waiting c + k * (limit - stuckBefore good start c) ≤ goodBefore good start c
  held : ¬ (good c ∧ stuckBefore good start c < limit) → c ∈ waiting

/-- What a run keeps while the server has the batch: it was taken from a backlog that had all that
is waiting now before `c`. -/
def HasBatch (limit : ℕ) (good : α → Prop) [DecidablePred good] (start : List α) (c : α) (k : ℕ)
    (waiting batch : List α) : Prop :=
  ∃ fetched, Keeps limit good start c k fetched ∧ batch = fetched.take limit ∧
    ∀ a ∈ waiting, a ≤ c → a ∈ fetched

variable {start batch : List α} {k : ℕ}

theorem Keeps.initial (sorted : start.Pairwise (· < ·)) (member : c ∈ start) :
    Keeps limit good start c 0 start :=
  ⟨sorted, rfl, fun _ _ => by rw [zero_mul, add_zero], fun _ => member⟩

theorem Keeps.serve {a : α} (kept : Keeps limit good start c k waiting)
    (fetched : HasBatch limit good start c k waiting batch) (member : a ∈ batch) (served : good a) :
    Keeps limit good start c k (waiting.filter (· ≠ a)) := by
  refine ⟨kept.sorted.filter _, (stuckBefore_serve served).trans kept.stuck,
    fun c_good waits => ?_, fun starved => ?_⟩
  · have fewer : goodBefore good (waiting.filter (· ≠ a)) c ≤ goodBefore good waiting c :=
      List.filter_sublist.countP_le
    exact (Nat.add_le_add_right fewer _).trans
      (kept.drained c_good (List.mem_of_mem_filter waits))
  · refine List.mem_filter.mpr ⟨kept.held starved, decide_eq_true fun same => starved ?_⟩
    obtain ⟨before, before_kept, rfl, -⟩ := fetched
    subst same
    refine ⟨served, ?_⟩
    have place := (mem_take_iff before_kept.sorted (List.mem_of_mem_take member)).mp member
    rw [← goodBefore_add_stuckBefore good, before_kept.stuck] at place
    omega

theorem Keeps.finish (kept : Keeps limit good start c k waiting)
    (fetched : HasBatch limit good start c k waiting batch)
    (served : ∀ a ∈ batch, good a → a ∉ waiting) :
    Keeps limit good start c (k + 1) waiting := by
  refine ⟨kept.sorted, kept.stuck, fun c_good waits => ?_, kept.held⟩
  obtain ⟨before, before_kept, rfl, later⟩ := fetched
  have c_before : c ∈ before := later c waits le_rfl
  have not_taken : c ∉ before.take limit := fun taken => served c taken c_good waits
  have fewer := goodBefore_finish before_kept.sorted c_before not_taken
    (kept.sorted.imp fun lt => lt.ne) (fun a member a_lt => later a member a_lt.le) served
  rw [before_kept.stuck] at fewer
  have drained := before_kept.drained c_good c_before
  rw [Nat.succ_mul]
  omega

theorem Keeps.add {a : α} (kept : Keeps limit good start c k waiting) (after : c < a)
    (last : ∀ b ∈ waiting, b < a) : Keeps limit good start c k (waiting ++ [a]) := by
  have no_more : ∀ b ∈ [a], ¬ b < c := fun b b_mem => by
    rw [List.mem_singleton.mp b_mem]
    exact after.not_gt
  obtain ⟨good_eq, stuck_eq⟩ :
      goodBefore good (waiting ++ [a]) c = goodBefore good waiting c ∧
        stuckBefore good (waiting ++ [a]) c = stuckBefore good waiting c := before_append no_more
  refine ⟨?_, stuck_eq.trans kept.stuck, fun c_good waits => ?_, fun starved => ?_⟩
  · refine List.pairwise_append.mpr ⟨kept.sorted, List.pairwise_singleton _ _, ?_⟩
    rintro b b_mem d d_mem
    rw [List.mem_singleton.mp d_mem]
    exact last b b_mem
  · rw [good_eq]
    rcases List.mem_append.mp waits with before | added
    · exact kept.drained c_good before
    · exact absurd (List.mem_singleton.mp added) after.ne
  · exact List.mem_append_left _ (kept.held starved)

theorem Reaches.keeps {batch : Option (List α)} (run : Reaches limit good start k waiting batch)
    (sorted : start.Pairwise (· < ·)) (member : c ∈ start) :
    Keeps limit good start c k waiting ∧
      ∀ taken ∈ batch, HasBatch limit good start c k waiting taken := by
  induction run with
  | start => exact ⟨.initial sorted member, fun taken none => by cases none⟩
  | fetch _ induction =>
      refine ⟨induction.1, ?_⟩
      rintro _ ⟨⟩
      exact ⟨_, induction.1, rfl, fun a a_mem _ => a_mem⟩
  | serve _ a_mem served induction =>
      obtain ⟨kept, fetched⟩ := induction
      refine ⟨kept.serve (fetched _ rfl) a_mem served, ?_⟩
      rintro _ ⟨⟩
      obtain ⟨before, before_kept, taken_eq, later⟩ := fetched _ rfl
      exact ⟨before, before_kept, taken_eq, fun b b_mem => later b (List.mem_of_mem_filter b_mem)⟩
  | finish _ served induction =>
      exact ⟨induction.1.finish (induction.2 _ rfl) served, fun taken none => by cases none⟩
  | add _ later last induction =>
      obtain ⟨kept, fetched⟩ := induction
      refine ⟨kept.add (later c member) last, fun taken taken_eq => ?_⟩
      obtain ⟨before, before_kept, batch_eq, earlier⟩ := fetched taken taken_eq
      refine ⟨before, before_kept, batch_eq, fun b b_mem b_le => ?_⟩
      rcases List.mem_append.mp b_mem with old | added
      · exact earlier b old b_le
      · rw [List.mem_singleton.mp added] at b_le
        exact absurd b_le (later c member).not_ge

/-- After enough batches an entry is served exactly when it is good and the entries before it that
are not good leave room in a batch. -/
theorem Reaches.waits_iff {batch : Option (List α)} (run : Reaches limit good start k waiting batch)
    (sorted : start.Pairwise (· < ·)) (member : c ∈ start)
    (enough : goodBefore good start c / (limit - stuckBefore good start c) < k) :
    c ∈ waiting ↔ ¬ (good c ∧ stuckBefore good start c < limit) := by
  have kept := (run.keeps sorted member).1
  refine ⟨?_, kept.held⟩
  rintro waits ⟨c_good, room⟩
  have drained := kept.drained c_good waits
  have more := (Nat.div_lt_iff_lt_mul (Nat.sub_pos_of_lt room)).mp enough
  omega

end Backlog
