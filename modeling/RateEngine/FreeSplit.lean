import RateEngine.FreeSecondsBatches

/-!
# The split as a drawdown

The batch engine gives a call what is left of the allowance after the history and the full seconds
of the calls before it; the unit test `test_free_split` compares this with drawing the allowance
down call by call.  This file proves the two equal for any calls of a pool, and what follows for the
portions.
-/

namespace RateEngine

open Drawdown

/-! ## The drawdown -/

/-- The sequential side of `test_free_split`: the free seconds of each call. -/
def freeSplit (limit : ℤ) : ℤ → List ℤ → List ℤ
  | _, [] => []
  | consumed, bs :: rest =>
      let remSeq := limit - consumed
      let freeSeq :=
        if (if remSeq > 0 then remSeq else 0) < bs then (if remSeq > 0 then remSeq else 0) else bs
      freeSeq :: freeSplit limit (consumed + freeSeq) rest

/-- The seconds of a call are drawn from the pool. -/
theorem freeSplit_eq_draw (limit consumed : ℤ) {calls : List ℤ} (nonneg : ∀ bs ∈ calls, 0 ≤ bs) :
    freeSplit limit consumed calls = draw limit consumed calls := by
  induction calls generalizing consumed with
  | nil => rfl
  | cons bs rest induction =>
      rw [List.forall_mem_cons] at nonneg
      have same : (if (if limit - consumed > 0 then limit - consumed else 0) < bs then
          (if limit - consumed > 0 then limit - consumed else 0) else bs) =
            grant (limit - consumed) bs := by
        have := nonneg.1
        unfold grant
        split <;> split at * <;> omega
      rw [freeSplit, draw, same, induction _ nonneg.2]

/-! ## The calls of a pool -/

/-- The calls of a batch that draw from one pool, in the order of their ids. -/
structure PoolCalls (fb : List FbRow) (pool : ℕ × ℕ × String) (limit : ℤ) (calls : List FbRow) :
    Prop where
  distinct : (fb.map FbRow.cdrId).Nodup
  perm : calls.Perm (fb.filter fun call => call.HasAllowance ∧ call.pool = pool)
  ordered : calls.Pairwise fun call later => call.cdrId < later.cdrId
  limit : ∀ call ∈ calls, call.fbLimit = limit
  seconds : ∀ call ∈ calls, 0 ≤ call.billsec

namespace PoolCalls

variable {fb calls before rest : List FbRow} {pool : ℕ × ℕ × String} {limit : ℤ} {call : FbRow}

theorem mem (draws : PoolCalls fb pool limit calls) (member : call ∈ calls) :
    call ∈ fb ∧ call.HasAllowance ∧ call.pool = pool := by
  simpa using draws.perm.mem_iff.mp member

/-- The window before a call holds the calls before it. -/
theorem runningSeconds_eq (draws : PoolCalls fb pool limit (before ++ call :: rest)) :
    runningSeconds fb call = (before.map FbRow.billsec).sum := by
  obtain ⟨-, -, own⟩ := draws.mem (List.mem_append_right before List.mem_cons_self)
  obtain ⟨-, rest_ordered, across⟩ := List.pairwise_append.mp draws.ordered
  have later := (List.pairwise_cons.mp rest_ordered).1
  have selected :
      (before ++ call :: rest).filter (fun other => other.cdrId < call.cdrId) = before := by
    have all_before : before.filter (fun other => other.cdrId < call.cdrId) = before :=
      List.filter_eq_self.mpr fun other member =>
        decide_eq_true (across other member call List.mem_cons_self)
    have none_later : (call :: rest).filter (fun other => other.cdrId < call.cdrId) = [] :=
      List.filter_eq_nil_iff.mpr fun other member => by
        rcases List.mem_cons.mp member with rfl | member
        · simp
        · have := later other member
          simp only [decide_eq_true_eq]
          omega
    rw [List.filter_append, all_before, none_later, List.append_nil]
  have window := (draws.perm.filter fun other => other.cdrId < call.cdrId).map FbRow.billsec
  rw [selected, List.filter_filter] at window
  rw [window.sum_eq, runningSeconds, own]
  refine congrArg (fun rows => (rows.map FbRow.billsec).sum) (List.filter_congr fun other _ => ?_)
  simp only [Bool.decide_and]
  ac_rfl

variable {hist : ℕ × ℕ × String → ℤ} {other : FbRow}

theorem freeSec_eq (draws : PoolCalls fb pool limit (before ++ call :: rest)) :
    freeSec hist fb call =
      grant (limit - (hist pool + (before.map FbRow.billsec).sum)) call.billsec := by
  have member : call ∈ before ++ call :: rest := List.mem_append_right before List.mem_cons_self
  rw [freeSec_eq_grant, draws.limit call member, (draws.mem member).2.2, draws.runningSeconds_eq]

/-- The window books the full seconds of a call. -/
theorem map_freeSec_eq_clamp (hist : ℕ × ℕ × String → ℤ)
    (draws : PoolCalls fb pool limit (before ++ rest)) :
    rest.map (freeSec hist fb) =
      clamp limit (hist pool + (before.map FbRow.billsec).sum) (rest.map FbRow.billsec) := by
  -- the induction is on the calls to come; `before` grows by one call at its end
  induction rest generalizing before with
  | nil => rfl
  | cons call rest induction =>
      have moved : before ++ call :: rest = (before ++ [call]) ++ rest := by simp
      have later := induction (moved ▸ draws)
      rw [List.map_append, List.sum_append, List.map_singleton, List.sum_singleton,
        ← add_assoc] at later
      rw [List.map_cons, List.map_cons, clamp, draws.freeSec_eq, later]

/-- After a call that is cut short the allowance is used up. -/
theorem freeSec_later (draws : PoolCalls fb pool limit (before ++ call :: rest))
    (short : freeSec hist fb call < call.billsec) (later : other ∈ rest) :
    freeSec hist fb other = 0 := by
  obtain ⟨between, after, rfl⟩ := List.append_of_mem later
  have between_nonneg : 0 ≤ (between.map FbRow.billsec).sum :=
    List.sum_nonneg fun sec member => by
      obtain ⟨own, own_mem, rfl⟩ := List.mem_map.mp member
      exact draws.seconds own (by simp [own_mem])
  have exceeded : limit - (hist pool + (before.map FbRow.billsec).sum) < call.billsec := by
    rw [draws.freeSec_eq] at short
    unfold grant at short
    omega
  have moved : before ++ call :: (between ++ other :: after) =
      (before ++ call :: between) ++ other :: after := by simp
  rw [moved] at draws
  rw [draws.freeSec_eq, List.map_append, List.map_cons, List.sum_append, List.sum_cons]
  refine grant_of_exceeded ?_
  omega

end PoolCalls

/-! ## The portions -/

/-- The seconds of a call in the portions of a kind. -/
def portionSeconds (pts : List Portion) (call : FbRow) (kind : PortionKind) : ℤ :=
  ((pts.filter fun pt => pt.call.cdrId = call.cdrId ∧ pt.kind = kind).map Portion.sec).sum

/-- The boundary call has a free portion and a paid one. -/
def IsSplit (pts : List Portion) (call : FbRow) : Prop :=
  ∀ kind, ∃ pt ∈ pts, pt.key = (call.cdrId, kind)

/-- The calls of a pool draw its allowance down in the order of their ids. -/
structure DrawnDown (hist : ℕ × ℕ × String → ℤ) (fb : List FbRow)
    (pool : ℕ × ℕ × String) (limit : ℤ)
    (calls : List FbRow) : Prop where
  sequential : (calls.map fun call => portionSeconds (portions hist fb) call .free) =
    freeSplit limit (hist pool) (calls.map FbRow.billsec)
  adds_up : ∀ call ∈ calls,
    portionSeconds (portions hist fb) call .free + portionSeconds (portions hist fb) call .paid =
      call.billsec
  positive : ∀ pt ∈ portions hist fb, pt.call ∈ calls → 0 < pt.sec
  remaining : (calls.map fun call => portionSeconds (portions hist fb) call .free).sum ≤
    max 0 (limit - hist pool)
  one_split : ∀ call ∈ calls, ∀ other ∈ calls,
    IsSplit (portions hist fb) call → IsSplit (portions hist fb) other → call = other

section Portions

variable {fb calls : List FbRow} {pool : ℕ × ℕ × String} {limit : ℤ} {call : FbRow}
  {hist : ℕ × ℕ × String → ℤ}

theorem portionSeconds_eq (distinct : (fb.map FbRow.cdrId).Nodup) (member : call ∈ fb)
    (allowed : call.HasAllowance) (kind : PortionKind) :
    portionSeconds (portions hist fb) call kind =
      (((call.split (freeSec hist fb call)).filter fun pt => pt.kind = kind).map
        Portion.sec).sum := by
  rw [portionSeconds, ← filter_portions distinct member allowed, List.filter_filter]
  simp only [Bool.decide_and, Bool.and_comm]

theorem freeSec_nonneg (hist : ℕ × ℕ × String → ℤ) (fb : List FbRow) (call : FbRow) :
    0 ≤ freeSec hist fb call := grant_nonneg _ _

theorem freeSec_le (hist : ℕ × ℕ × String → ℤ) (fb : List FbRow) (seconds : 0 ≤ call.billsec) :
    freeSec hist fb call ≤ call.billsec :=
  grant_le seconds _

theorem FbRow.sec_pos_of_mem_split {free : ℤ} {pt : Portion} (member : pt ∈ call.split free) :
    0 < pt.sec := by
  rcases List.mem_append.mp member with paid | free
  · obtain ⟨positive, rfl⟩ := List.mem_ite_nil_right.mp paid |>.imp_right List.mem_singleton.mp
    exact positive
  · obtain ⟨positive, rfl⟩ := List.mem_ite_nil_right.mp free |>.imp_right List.mem_singleton.mp
    exact positive

namespace PoolCalls

theorem portionSeconds_free (draws : PoolCalls fb pool limit calls) (member : call ∈ calls) :
    portionSeconds (portions hist fb) call .free = freeSec hist fb call := by
  obtain ⟨fb_mem, allowed, -⟩ := draws.mem member
  have nonneg := freeSec_nonneg hist fb call
  rw [portionSeconds_eq draws.distinct fb_mem allowed, FbRow.split]
  split <;> split <;> simp <;> omega

theorem portionSeconds_paid (draws : PoolCalls fb pool limit calls) (member : call ∈ calls) :
    portionSeconds (portions hist fb) call .paid = call.billsec - freeSec hist fb call := by
  obtain ⟨fb_mem, allowed, -⟩ := draws.mem member
  have within := freeSec_le hist fb (draws.seconds call member)
  rw [portionSeconds_eq draws.distinct fb_mem allowed, FbRow.split]
  split <;> split <;> simp <;> omega

/-- A portion of a call is one of its `split`. -/
theorem mem_split (draws : PoolCalls fb pool limit calls) (member : call ∈ calls) {pt : Portion} :
    pt ∈ call.split (freeSec hist fb call) ↔
      pt ∈ portions hist fb ∧ pt.call.cdrId = call.cdrId := by
  obtain ⟨fb_mem, allowed, -⟩ := draws.mem member
  rw [← filter_portions draws.distinct fb_mem allowed, List.mem_filter, decide_eq_true_eq]

theorem isSplit_iff (draws : PoolCalls fb pool limit calls) (member : call ∈ calls) :
    IsSplit (portions hist fb) call ↔
      0 < freeSec hist fb call ∧ freeSec hist fb call < call.billsec := by
  have own (kind : PortionKind) : (∃ pt ∈ portions hist fb, pt.key = (call.cdrId, kind)) ↔
      ∃ pt ∈ call.split (freeSec hist fb call), pt.kind = kind := by
    simp only [draws.mem_split member, Portion.key, Prod.mk.injEq, and_assoc]
  have free_portion : (∃ pt ∈ call.split (freeSec hist fb call), pt.kind = .free) ↔
      0 < freeSec hist fb call := by
    rw [FbRow.split]
    split <;> split <;> simp [*]
  have paid_portion : (∃ pt ∈ call.split (freeSec hist fb call), pt.kind = .paid) ↔
      freeSec hist fb call < call.billsec := by
    rw [FbRow.split]
    split <;> split <;> simp <;> omega
  rw [← free_portion, ← paid_portion, ← own, ← own]
  constructor
  · exact fun both => ⟨both .free, both .paid⟩
  · rintro ⟨free, paid⟩ (_ | _)
    · exact paid
    · exact free

/-- Two calls of a pool are not both split. -/
theorem split_unique {before rest : List FbRow} {other : FbRow}
    (draws : PoolCalls fb pool limit (before ++ call :: rest)) (later : other ∈ rest)
    (split : IsSplit (portions hist fb) call) : ¬ IsSplit (portions hist fb) other := by
  have member : call ∈ before ++ call :: rest := List.mem_append_right before List.mem_cons_self
  have other_mem : other ∈ before ++ call :: rest := by simp [later]
  have short := ((draws.isSplit_iff member).mp split).2
  rw [draws.isSplit_iff other_mem, draws.freeSec_later short later]
  exact fun both => absurd both.1 (lt_irrefl 0)

end PoolCalls

end Portions

/-- Drawing the allowance down by the window is drawing it down call by call: for all calls of an
account, allowance and period in a batch the free seconds of the portions are the sequential ones,
they add up to the call with the paid seconds, exceed in total no more than what is left and split
at most one call. -/
theorem portions_drawnDown (hist : ℕ × ℕ × String → ℤ) {fb : List FbRow} {pool : ℕ × ℕ × String}
    {limit : ℤ} {calls : List FbRow} (draws : PoolCalls fb pool limit calls) :
    DrawnDown hist fb pool limit calls := by
  have free : (calls.map fun call => portionSeconds (portions hist fb) call .free) =
      freeSplit limit (hist pool) (calls.map FbRow.billsec) := by
    have nonneg : ∀ bs ∈ calls.map FbRow.billsec, 0 ≤ bs := by
      simpa using draws.seconds
    have booked := PoolCalls.map_freeSec_eq_clamp hist
      (show PoolCalls fb pool limit ([] ++ calls) from draws)
    rw [List.map_congr_left fun call member => draws.portionSeconds_free member, booked,
      List.map_nil, List.sum_nil, add_zero, (agree_self limit _).clamp_eq_draw nonneg,
      freeSplit_eq_draw limit _ nonneg]
  exact {
    sequential := free
    adds_up := fun call member => by
      rw [draws.portionSeconds_free member, draws.portionSeconds_paid member]
      omega
    positive := fun pt pt_mem member =>
      FbRow.sec_pos_of_mem_split ((draws.mem_split member).mpr ⟨pt_mem, rfl⟩)
    remaining := by
      rw [free, freeSplit_eq_draw limit _ (by simpa using draws.seconds)]
      exact sum_draw_le limit _ _
    one_split := fun call member other other_mem split other_split => by
      obtain ⟨before, rest, rfl⟩ := List.append_of_mem member
      rcases List.mem_append.mp other_mem with earlier | later
      · obtain ⟨front, between, rfl⟩ := List.append_of_mem earlier
        rw [List.append_assoc, List.cons_append] at draws
        exact absurd split (draws.split_unique (by simp) other_split)
      · rcases List.mem_cons.mp later with rfl | later
        · rfl
        · exact absurd other_split (draws.split_unique later split) }

/-- Of an allowance of 100 s, 10 of which are used, a call of 50 s takes 50 and the call of 80 s
after it the other 40; a call of another account does not matter. -/
theorem portions_drawnDown_two :
    DrawnDown (fun _ => 10) [secondsCall 100 2 80, { secondsCall 100 3 70 with baccId := 2 },
      secondsCall 100 1 50] (1, 1, "2024-03-01") 100 [secondsCall 100 1 50, secondsCall 100 2 80] ∧
      freeSplit 100 10 [50, 80] = [50, 40] :=
  ⟨portions_drawnDown _ {
      distinct := by decide
      perm := by decide
      ordered := by decide
      limit := by decide
      seconds := by decide }, by decide⟩

/-! ## The calls of a batch -/

section Batch

variable {dims : Dims} {order : BatchOrder} {leg : Leg} {window : List ℕ}

/-- The window of a pool in `split`. -/
def poolWindow (fb : List FbRow) (pool : ℕ × ℕ × String) : List FbRow :=
  (fb.filter fun call => call.HasAllowance ∧ call.pool = pool).insertionSort fun call other =>
    call.cdrId ≤ other.cdrId

/-- In every batch the calls of a pool are such calls. -/
theorem poolCalls_poolWindow {pool : ℕ × ℕ × String} {limit : ℤ}
    (limited : limit ∈ dims.fbLimits pool.2.1)
    (seconds : ∀ call ∈ dims.fb order leg (dims.windowCdrs window), 0 ≤ call.billsec) :
    PoolCalls (dims.fb order leg (dims.windowCdrs window)) pool limit
      (poolWindow (dims.fb order leg (dims.windowCdrs window)) pool) := by
  have perm : (poolWindow (dims.fb order leg (dims.windowCdrs window)) pool).Perm _ :=
    List.perm_insertionSort _ _
  have member {call : FbRow}
      (own : call ∈ poolWindow (dims.fb order leg (dims.windowCdrs window)) pool) :
      call ∈ dims.fb order leg (dims.windowCdrs window) ∧ call.HasAllowance ∧ call.pool = pool := by
    simpa using perm.mem_iff.mp own
  have distinct : ((dims.fb order leg (dims.windowCdrs window)).map FbRow.cdrId).Nodup := fb_nodup _
  exact {
    distinct := distinct
    perm := perm
    ordered := by
      have sorted := RankedRows.pairwise_insertionSort (· ≤ ·) FbRow.cdrId
        ((dims.fb order leg (dims.windowCdrs window)).filter fun call =>
          call.HasAllowance ∧ call.pool = pool)
      have kept : ((poolWindow (dims.fb order leg (dims.windowCdrs window)) pool).map
          FbRow.cdrId).Nodup :=
        (perm.map FbRow.cdrId).nodup_iff.mpr (distinct.sublist (List.filter_sublist.map _))
      exact (sorted.and (List.pairwise_map.mp kept)).imp fun both => lt_of_le_of_ne both.1 both.2
    limit := fun call own => by
      obtain ⟨fb_mem, -, rfl⟩ := member own
      have one : (dims.fbLimits call.fbid).length = 1 := length_fbLimits _
      obtain ⟨only, limits_eq⟩ := List.length_eq_one_iff.mp one
      have own_limit := (joins_of_mem_fb fb_mem).limit
      rw [limits_eq, List.mem_singleton] at own_limit
      rw [FbRow.pool, limits_eq, List.mem_singleton] at limited
      rw [own_limit, limited]
    seconds := fun call own => seconds call (member own).1 }

end Batch

end RateEngine
