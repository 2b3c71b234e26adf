import RateEngine.Lib.RecursiveQuery
import RateEngine.RatingBooks

/-!
# The price walk of the DuckDB engine

The batch engine splits every matched call into a free and a paid portion (`split`, `portions`) and
prices all portions with one recursive query (`price_walk`), whose last row for each portion goes
into `rated_batch`.  The walk replays the loop of `calc_cprice_2`: on a tariff with positions
`1, 2, …, n` the last row carries the totals of the loop.
-/

namespace RateEngine

open BlockTariff (ceilDiv)

/-! ## Portions of a call -/

/-- A row of `fb`: a call with the rate found for it and the allowance of its tariff. -/
structure FbRow where
  cdrId : ℕ
  billsec : ℤ
  startTs : String
  baccId : ℕ
  rateId : ℕ
  tariffId : ℕ
  ratingModeId : ℕ
  tcId : ℕ
  pcardId : ℕ
  fbid : ℕ
  fbLimit : ℤ
  /-- First day of the billing period of the call. -/
  pstart : String
deriving DecidableEq, Repr

/-- The condition of `split`: the tariff has free seconds. -/
def FbRow.HasAllowance (row : FbRow) : Prop := row.fbid ≠ 0 ∧ 0 < row.fbLimit

instance (row : FbRow) : Decidable row.HasAllowance := inferInstanceAs (Decidable (_ ∧ _))

/-- The partition of the running sum of `split`. -/
def FbRow.pool (row : FbRow) : ℕ × ℕ × String := (row.baccId, row.fbid, row.pstart)

/-- The seconds of the calls before this one in its pool. -/
def runningSeconds (fb : List FbRow) (row : FbRow) : ℤ :=
  ((fb.filter fun other =>
    other.HasAllowance ∧ other.pool = row.pool ∧ other.cdrId < row.cdrId).map FbRow.billsec).sum

/-- `free_sec` of `split`; `hist` gives the free seconds of a pool that are in the rating table. -/
def freeSec (hist : ℕ × ℕ × String → ℤ) (fb : List FbRow) (row : FbRow) : ℤ :=
  max 0 (min row.billsec (row.fbLimit - (hist row.pool + runningSeconds fb row)))

/-- `kind` of a portion: `'P'` or `'F'`. -/
inductive PortionKind where
  | paid
  | free
deriving DecidableEq, Repr

/-- A row of `portions`. -/
structure Portion where
  call : FbRow
  kind : PortionKind
  sec : ℤ
  sgn : ℤ
  fbidOut : ℕ
deriving DecidableEq, Repr

def Portion.key (pt : Portion) : ℕ × PortionKind := (pt.call.cdrId, pt.kind)

/-- `portions`. -/
def portions (hist : ℕ × ℕ × String → ℤ) (fb : List FbRow) : List Portion :=
  let split := fb.filter FbRow.HasAllowance
  ((fb.filter fun row => ¬ row.HasAllowance).map fun row => ⟨row, .paid, row.billsec, 1, 0⟩) ++
    ((split.filter fun row => 0 < row.billsec - freeSec hist fb row).map fun row =>
      ⟨row, .paid, row.billsec - freeSec hist fb row, 1, 0⟩) ++
    ((split.filter fun row => 0 < freeSec hist fb row).map fun row =>
      ⟨row, .free, freeSec hist fb row, -1, row.fbid⟩)

/-! ## `price_walk` -/

/-- A row of `price_walk`. -/
structure PriceWalkRow where
  cdrId : ℕ
  kind : PortionKind
  pos : ℤ
  rem : ℤ
  price : ℚ
  bsec : ℤ
  done : Bool
deriving DecidableEq, Repr

def PriceWalkRow.key (row : PriceWalkRow) : ℕ × PortionKind := (row.cdrId, row.kind)

namespace CalcFunction

variable (cf : CalcFunction) (cs : ℤ)

/-- `u`: the blocks that `cs` seconds need; a message is one block. -/
def walkUnits : ℤ := if cf.delta = 0 then 1 else ceilDiv cs cf.delta

/-- `charge`. -/
def walkCharge : ℤ :=
  if cf.iterations = 0 ∨ cf.walkUnits cs ≤ cf.iterations then cf.walkUnits cs else cf.iterations

/-- `done`. -/
def walkDone : Bool := cf.iterations = 0 ∨ cf.delta = 0 ∨ cf.walkUnits cs = 1

/-- The row of one tariff step, from the seconds, the price and the billed seconds before it. -/
def walkRow (pt : Portion) (price : ℚ) (bsec : ℤ) : PriceWalkRow where
  cdrId := pt.call.cdrId
  kind := pt.kind
  pos := cf.pos
  rem := cs - cf.walkCharge cs * cf.delta
  price := price + cf.walkCharge cs * cf.fee
  bsec := bsec + cf.walkCharge cs * cf.delta
  done := cf.walkDone cs

end CalcFunction

section PriceWalk

variable (calcFunction : ℕ → List CalcFunction) (pts : List Portion)

/-- The rows of `calc_function` at a position of a tariff. -/
def tierAt (tariffId : ℕ) (pos : ℤ) : List CalcFunction :=
  (calcFunction tariffId).filter fun cf => cf.pos = pos

/-- The first rows of one portion. -/
def Portion.firstRows (pt : Portion) : List PriceWalkRow :=
  (tierAt calcFunction pt.call.tariffId 1).map fun cf => cf.walkRow pt.sec pt 0 0

/-- The recursive part of `price_walk` for one row of the working table. -/
def PriceWalkRow.next (p : PriceWalkRow) : List PriceWalkRow :=
  if p.done then []
  else
    (pts.filter fun pt => pt.key = p.key).flatMap fun pt =>
      (tierAt calcFunction pt.call.tariffId (p.pos + 1)).map fun cf =>
        cf.walkRow p.rem pt p.price p.bsec

/-- Rounds that are enough for every walk: a walk visits each row of a tariff at most once. -/
def walkRounds : ℕ := (pts.map fun pt => (calcFunction pt.call.tariffId).length).sum + 1

/-- `price_walk`. -/
def priceWalk : List PriceWalkRow :=
  RecursiveQuery.run (PriceWalkRow.next calcFunction pts) (walkRounds calcFunction pts)
    (pts.flatMap (Portion.firstRows calcFunction))

end PriceWalk

/-- `final` for one portion: the row with the greatest position. -/
def finalRow (walk : List PriceWalkRow) (key : ℕ × PortionKind) : Option PriceWalkRow :=
  (walk.filter fun row => row.key = key).maxOn? PriceWalkRow.pos

/-- A row of `rated_batch`, which becomes a row of the rating table. -/
structure RatedRow where
  portion : Portion
  billsec : ℤ
  cprice : ℚ
deriving DecidableEq, Repr

/-- `rated_batch`. -/
def ratedBatch (calcFunction : ℕ → List CalcFunction) (hist : ℕ × ℕ × String → ℤ)
    (fb : List FbRow) : List RatedRow :=
  let pts := portions hist fb
  pts.filterMap fun pt =>
    (finalRow (priceWalk calcFunction pts) pt.key).map fun row =>
      ⟨pt, row.bsec, pt.sgn * row.price⟩

/-! ## The walk ends -/

section Walk

variable {calcFunction : ℕ → List CalcFunction} {pts : List Portion}

/-- Rows of the tariffs of the portion of `p` that lie behind `p`. -/
def PriceWalkRow.rank (calcFunction : ℕ → List CalcFunction) (pts : List Portion)
    (p : PriceWalkRow) : ℕ :=
  ((pts.filter fun pt => pt.key = p.key).map fun pt =>
    ((calcFunction pt.call.tariffId).filter fun cf => p.pos < cf.pos).length).sum

theorem PriceWalkRow.mem_next {p after : PriceWalkRow} :
    after ∈ p.next calcFunction pts ↔
      p.done = false ∧ ∃ pt ∈ pts, pt.key = p.key ∧
        ∃ cf ∈ calcFunction pt.call.tariffId, cf.pos = p.pos + 1 ∧
          cf.walkRow p.rem pt p.price p.bsec = after := by
  cases done : p.done <;> simp [PriceWalkRow.next, tierAt, done, and_assoc]

/-- A step of the walk stays in its portion. -/
theorem PriceWalkRow.key_of_mem_next {p after : PriceWalkRow}
    (member : after ∈ p.next calcFunction pts) : after.key = p.key := by
  obtain ⟨-, pt, -, same, cf, -, -, rfl⟩ := PriceWalkRow.mem_next.mp member
  exact same

theorem Portion.key_of_mem_firstRows {pt : Portion} {row : PriceWalkRow}
    (member : row ∈ pt.firstRows calcFunction) : row.key = pt.key := by
  obtain ⟨cf, -, rfl⟩ := List.mem_map.mp member
  rfl

/-- A step of the walk uses up a row of its tariff. -/
theorem PriceWalkRow.rank_of_mem_next {p after : PriceWalkRow}
    (member : after ∈ p.next calcFunction pts) :
    after.rank calcFunction pts < p.rank calcFunction pts := by
  have same_key : after.key = p.key := PriceWalkRow.key_of_mem_next member
  obtain ⟨-, pt, pt_mem, own, cf, cf_mem, pos_eq, rfl⟩ := PriceWalkRow.mem_next.mp member
  have behind (other : Portion) :
      ((calcFunction other.call.tariffId).filter fun row => p.pos < row.pos).filter
          (fun row => cf.pos < row.pos) =
        (calcFunction other.call.tariffId).filter fun row => cf.pos < row.pos := by
    rw [List.filter_filter]
    refine List.filter_congr fun row _ => ?_
    by_cases past : cf.pos < row.pos
    · have : p.pos < row.pos := by omega
      simp [past, this]
    · simp [past]
  unfold PriceWalkRow.rank
  rw [same_key]
  refine List.sum_lt_sum _ _ (fun other _ => ?_) ⟨pt, ?_, ?_⟩
  · rw [show (cf.walkRow p.rem pt p.price p.bsec).pos = cf.pos from rfl, ← behind other]
    exact List.length_filter_le _ _
  · exact List.mem_filter.mpr ⟨pt_mem, by simp [own]⟩
  · rw [show (cf.walkRow p.rem pt p.price p.bsec).pos = cf.pos from rfl, ← behind pt,
      List.length_filter_lt_length_iff_exists]
    exact ⟨cf, List.mem_filter.mpr ⟨cf_mem, by simp [pos_eq]⟩, by simp⟩

theorem PriceWalkRow.rank_lt_walkRounds (p : PriceWalkRow) :
    p.rank calcFunction pts < walkRounds calcFunction pts := by
  refine Nat.lt_succ_of_le ((List.sum_le_sum fun pt _ => List.length_filter_le _ _).trans ?_)
  exact (List.filter_sublist.map _).sum_le_sum fun _ _ => Nat.zero_le _

/-- The bound on the rounds is no limit: the recursive query has ended when it is reached. -/
theorem priceWalk_ended (more : ℕ) :
    RecursiveQuery.run (PriceWalkRow.next calcFunction pts) (walkRounds calcFunction pts + more)
      (pts.flatMap (Portion.firstRows calcFunction)) = priceWalk calcFunction pts :=
  RecursiveQuery.run_eq_of_rank (fun _ _ => PriceWalkRow.rank_of_mem_next) more
    fun row _ => row.rank_lt_walkRounds

/-- The part of the walk that belongs to a portion is the walk from the portion's first rows. -/
theorem filter_priceWalk (distinct : (pts.map Portion.key).Nodup) {pt : Portion}
    (member : pt ∈ pts) :
    (priceWalk calcFunction pts).filter (fun row => row.key = pt.key) =
      RecursiveQuery.run (PriceWalkRow.next calcFunction pts) (walkRounds calcFunction pts)
        (pt.firstRows calcFunction) := by
  rw [priceWalk, RecursiveQuery.filter_run fun _ _ => PriceWalkRow.key_of_mem_next,
    KeyedRows.filter_flatMap fun _ _ => Portion.key_of_mem_firstRows,
    KeyedRows.filter_eq_singleton distinct member, List.flatMap_singleton]

/-- A portion has a last row exactly when its tariff has a row at position 1. -/
theorem finalRow_isSome_iff (distinct : (pts.map Portion.key).Nodup) {pt : Portion}
    (member : pt ∈ pts) :
    (finalRow (priceWalk calcFunction pts) pt.key).isSome ↔
      ∃ cf ∈ calcFunction pt.call.tariffId, cf.pos = 1 := by
  rw [finalRow, List.isSome_maxOn?_iff, filter_priceWalk distinct member, ne_eq, walkRounds,
    RecursiveQuery.run_eq_nil_iff]
  simp [Portion.firstRows, tierAt]

end Walk

/-! ## The walk and the loop of `calc_cprice_2` -/

/-- The totals that a row of the walk carries. -/
def PriceWalkRow.totals (row : PriceWalkRow) : CpriceTotals :=
  { checksec := row.rem, cprice := row.price, billsec := row.bsec }

/-- One pass of the loop is one row of the walk. -/
theorem calcCprice2Loop_cons {tier : CalcFunction} (rest : List CalcFunction) (s : CpriceTotals)
    (pt : Portion) (pos_ne : tier.pos ≠ 0) (delta_ne : tier.delta ≠ 0) :
    calcCprice2Loop (tier :: rest) s =
      let row := tier.walkRow s.checksec pt s.cprice s.billsec
      if row.done then row.totals else calcCprice2Loop rest row.totals := by
  have units_eq : tier.walkUnits s.checksec = ceilDiv s.checksec tier.delta := if_neg delta_ne
  have row_totals : (tier.walkRow s.checksec pt s.cprice s.billsec).totals =
      s.charge tier (tier.walkCharge s.checksec) := rfl
  have row_done : (tier.walkRow s.checksec pt s.cprice s.billsec).done =
      tier.walkDone s.checksec := rfl
  simp only [row_totals, row_done, CalcFunction.walkCharge, CalcFunction.walkDone, units_eq,
    calcCprice2Loop, pos_ne, delta_ne, if_false, false_or]
  by_cases unbounded : tier.iterations = 0
  · simp [unbounded]
  by_cases outlasts : tier.iterations < ceilDiv s.checksec tier.delta
  · simp only [unbounded, outlasts, not_le.mpr outlasts, if_true, if_false, or_self, false_or,
      decide_eq_true_eq]
  · simp only [unbounded, outlasts, not_lt.mp outlasts, if_true, if_false, or_true, false_or,
      decide_eq_true_eq]

/-- The positions of a tariff count `1, 2, …, n`. -/
def Contiguous (tr : List CalcFunction) : Prop :=
  tr.map CalcFunction.pos = (List.range tr.length).map fun index : ℕ => (index : ℤ) + 1

instance (tr : List CalcFunction) : Decidable (Contiguous tr) :=
  inferInstanceAs (Decidable (_ = _))

/-- The rows of a tariff, when the tariff is set and has rows. -/
def Env.tariffRows (env : Env) (tariffId : ℕ) : Option (List CalcFunction) :=
  if tariffId = 0 then none else (env.calcFunction tariffId).filter fun tr => tr ≠ []

theorem Env.tariffRows_eq_some {env : Env} {tariffId : ℕ} {tr : List CalcFunction}
    (set : tariffId ≠ 0) (tariff : env.calcFunction tariffId = some tr) (sold : tr ≠ []) :
    env.tariffRows tariffId = some tr := by
  rw [tariffRows, if_neg set, tariff, Option.filter_some, if_pos (decide_eq_true sold)]

section Simulation

variable {calcFunction : ℕ → List CalcFunction} {pts : List Portion} {pt : Portion}
  {tr : List CalcFunction}

theorem Contiguous.nodup (contiguous : Contiguous tr) : (tr.map CalcFunction.pos).Nodup := by
  rw [contiguous]
  exact List.nodup_range.map fun a b same => by simpa using same

theorem Contiguous.pos_eq {before rest : List CalcFunction} {tier : CalcFunction}
    (contiguous : Contiguous (before ++ tier :: rest)) : tier.pos = before.length + 1 := by
  have positions := congrArg (·[before.length]?) contiguous
  simpa using positions

/-- A position of a contiguous tariff has one row. -/
theorem tierAt_eq (contiguous : Contiguous tr) {tariffId : ℕ}
    (table : (calcFunction tariffId).Perm tr) {before rest : List CalcFunction}
    (split : before ++ rest = tr) :
    tierAt calcFunction tariffId (before.length + 1) = rest.take 1 := by
  have distinct : ((calcFunction tariffId).map CalcFunction.pos).Nodup :=
    (table.map CalcFunction.pos).nodup_iff.mpr contiguous.nodup
  cases rest with
  | nil =>
      refine List.filter_eq_nil_iff.mpr fun cf member at_end => ?_
      have position : cf.pos ∈ tr.map CalcFunction.pos :=
        List.mem_map_of_mem (table.mem_iff.mp member)
      rw [contiguous, ← split] at position
      obtain ⟨index, within, pos_eq⟩ := List.mem_map.mp position
      have : cf.pos = before.length + 1 := of_decide_eq_true at_end
      rw [List.append_nil, List.mem_range] at within
      omega
  | cons tier rest =>
      have position : tier.pos = before.length + 1 := (split ▸ contiguous).pos_eq
      have member : tier ∈ calcFunction tariffId := table.mem_iff.mpr (by simp [← split])
      rw [← position]
      exact KeyedRows.filter_eq_singleton distinct member

/-- On a contiguous tariff the walk of a portion goes from each row to the next one. -/
theorem next_eq (distinct : (pts.map Portion.key).Nodup) (member : pt ∈ pts)
    (contiguous : Contiguous tr) (table : (calcFunction pt.call.tariffId).Perm tr)
    {before rest : List CalcFunction} (split : before ++ rest = tr) {row : PriceWalkRow}
    (own : row.key = pt.key) (position : row.pos = before.length) :
    row.next calcFunction pts =
      if row.done then []
      else (rest.take 1).map fun cf => cf.walkRow row.rem pt row.price row.bsec := by
  rw [PriceWalkRow.next, own, KeyedRows.filter_eq_singleton distinct member,
    List.flatMap_singleton, position, tierAt_eq contiguous table split]

/-- The walk from a row ends with the totals of the loop on the rest of the tariff. -/
theorem run_from (distinct : (pts.map Portion.key).Nodup) (member : pt ∈ pts)
    (contiguous : Contiguous tr) (table : (calcFunction pt.call.tariffId).Perm tr)
    (deltas : ∀ tier ∈ tr, 0 < tier.delta) {before rest : List CalcFunction}
    (split : before ++ rest = tr) {row : PriceWalkRow} (own : row.key = pt.key)
    (position : row.pos = before.length) {rounds : ℕ} (enough : rest.length < rounds) :
    ∃ earlier last, RecursiveQuery.run (PriceWalkRow.next calcFunction pts) rounds [row] =
        earlier ++ [last] ∧ (∀ other ∈ earlier, other.pos < last.pos) ∧ row.pos ≤ last.pos ∧
      last.totals = if row.done then row.totals else calcCprice2Loop rest row.totals := by
  induction rest generalizing before row rounds with
  | nil =>
      obtain ⟨rounds, rfl⟩ := Nat.exists_eq_add_one_of_ne_zero (Nat.ne_zero_of_lt enough)
      have ended := next_eq distinct member contiguous table split own position
      refine ⟨[], row, ?_, by simp, le_rfl, by simp [calcCprice2Loop]⟩
      rw [RecursiveQuery.run_singleton, ended]
      simp
  | cons tier rest ih =>
      obtain ⟨rounds, rfl⟩ := Nat.exists_eq_add_one_of_ne_zero (Nat.ne_zero_of_lt enough)
      rw [RecursiveQuery.run_singleton,
        next_eq distinct member contiguous table split own position]
      cases done : row.done with
      | true => exact ⟨[], row, by simp, by simp, le_rfl, by simp⟩
      | false =>
        have tier_pos : tier.pos = before.length + 1 := (split ▸ contiguous).pos_eq
        obtain ⟨earlier, last, chain, ordered, above, totals_eq⟩ :=
          ih (show (before ++ [tier]) ++ rest = tr by simp [← split])
            (show (tier.walkRow row.rem pt row.price row.bsec).key = pt.key from rfl)
            (by simp [CalcFunction.walkRow, tier_pos]) (Nat.lt_of_succ_lt_succ enough)
        have advances : row.pos < last.pos := by
          have : tier.pos ≤ last.pos := above
          omega
        refine ⟨row :: earlier, last, congrArg (row :: ·) chain, ?_, advances.le, ?_⟩
        · intro other other_mem
          rcases List.mem_cons.mp other_mem with rfl | other_mem
          · exact advances
          · exact ordered other other_mem
        · have delta_pos : 0 < tier.delta := deltas tier (by simp [← split])
          rw [totals_eq, if_neg Bool.false_ne_true,
            calcCprice2Loop_cons rest row.totals pt (by omega) delta_pos.ne']
          rfl

theorem length_lt_walkRounds (member : pt ∈ pts)
    (table : (calcFunction pt.call.tariffId).Perm tr) :
    tr.length < walkRounds calcFunction pts := by
  rw [← table.length_eq]
  exact Nat.lt_succ_of_le (List.single_le_sum (fun _ _ => Nat.zero_le _) _
    (List.mem_map_of_mem (f := fun other => (calcFunction other.call.tariffId).length) member))

/-- The last row of a portion is unique and carries the totals of the loop. -/
theorem finalRow_totals (distinct : (pts.map Portion.key).Nodup) (member : pt ∈ pts)
    (contiguous : Contiguous tr) (table : (calcFunction pt.call.tariffId).Perm tr)
    (deltas : ∀ tier ∈ tr, 0 < tier.delta) (sold : tr ≠ []) :
    ∃ last, finalRow (priceWalk calcFunction pts) pt.key = some last ∧
      (∀ other ∈ priceWalk calcFunction pts,
        other.key = pt.key → last.pos ≤ other.pos → other = last) ∧
      last.totals = calcCprice2Totals tr pt.sec := by
  obtain ⟨tier, rest, rfl⟩ := List.exists_cons_of_ne_nil sold
  have first_rows : pt.firstRows calcFunction = [tier.walkRow pt.sec pt 0 0] := by
    have first_tier := tierAt_eq contiguous table (List.nil_append (tier :: rest))
    simpa [Portion.firstRows] using congrArg
      (List.map fun cf => cf.walkRow pt.sec pt 0 0) first_tier
  have tier_pos : tier.pos = 1 := by
    simpa using (show Contiguous ([] ++ tier :: rest) from contiguous).pos_eq
  obtain ⟨earlier, last, chain, ordered, -, totals_eq⟩ :=
    run_from distinct member contiguous table deltas (show [tier] ++ rest = tier :: rest from rfl)
      (show (tier.walkRow pt.sec pt 0 0).key = pt.key from rfl)
      (by simp [CalcFunction.walkRow, tier_pos])
      (Nat.lt_of_succ_lt (length_lt_walkRounds member table))
  have walk_eq : (priceWalk calcFunction pts).filter (fun row => row.key = pt.key) =
      earlier ++ [last] := by
    rw [filter_priceWalk distinct member, first_rows, chain]
  have unique {other : PriceWalkRow} (other_mem : other ∈ earlier ++ [last])
      (behind : last.pos ≤ other.pos) : other = last := by
    rcases List.mem_append.mp other_mem with before_last | is_last
    · exact absurd behind (not_le.mpr (ordered other before_last))
    · exact List.mem_singleton.mp is_last
  refine ⟨last, ?_, ?_, ?_⟩
  · have last_mem : last ∈ earlier ++ [last] := by simp
    have greatest := List.le_apply_get_maxOn?_of_mem (f := PriceWalkRow.pos) last_mem
    rw [finalRow, walk_eq, ← Option.some_get (List.isSome_maxOn?_of_mem last_mem)]
    exact congrArg some (unique (List.maxOn?_mem (Option.some_get _).symm) greatest)
  · intro other other_mem own behind
    exact unique (walk_eq ▸ List.mem_filter.mpr ⟨other_mem, by simp [own]⟩) behind
  · have delta_pos : 0 < tier.delta := deltas tier List.mem_cons_self
    rw [totals_eq, calcCprice2Totals, calcCprice2Loop_cons rest _ pt (by omega) delta_pos.ne']

theorem calcFuncs_rtDataQTariff {env : Env} {rtp : Racc} (unloaded : rtp.bplan.calcFuncs = none) :
    (rtDataQTariff env rtp).bplan.calcFuncs = env.tariffRows rtp.pre.tariffId := by
  rw [rtDataQTariff, Env.tariffRows]
  by_cases unset : rtp.pre.tariffId = 0
  · simp [unset, unloaded]
  · rw [if_neg unset, if_neg unset]
    rcases env.calcFunction rtp.pre.tariffId with _ | ⟨_ | ⟨tier, rest⟩⟩ <;>
      simp [unloaded, Option.filter_some]

/-- Price parity: when `calc_cprice_2` prices the seconds of a portion with the tariff of the
portion, the walk has one last row for the portion, with that price and those billed seconds. -/
theorem finalRow_price_eq (distinct : (pts.map Portion.key).Nodup) (member : pt ∈ pts)
    (contiguous : Contiguous tr) (table : (calcFunction pt.call.tariffId).Perm tr)
    (deltas : ∀ tier ∈ tr, 0 < tier.delta) {env : Env} {rtp priced : Racc}
    (unloaded : rtp.bplan.calcFuncs = none)
    (tariff : env.calcFunction rtp.pre.tariffId = some tr) (billsec : rtp.pre.billsec = pt.sec)
    (succeeds : calcCprice2 (rtDataQTariff env rtp) = (0, priced)) :
    ∃ last, finalRow (priceWalk calcFunction pts) pt.key = some last ∧
      (∀ other ∈ priceWalk calcFunction pts,
        other.key = pt.key → last.pos ≤ other.pos → other = last) ∧
      last.price = priced.pre.cprice ∧ last.bsec = priced.pre.billsec := by
  have loaded : (rtDataQTariff env rtp).bplan.calcFuncs = env.tariffRows rtp.pre.tariffId :=
    calcFuncs_rtDataQTariff unloaded
  have same_pre : (rtDataQTariff env rtp).pre = rtp.pre := (rtDataQTariff_frame env rtp).2.2.1
  by_cases sold : rtp.pre.tariffId ≠ 0 ∧ tr ≠ []
  swap
  · have not_sold : env.tariffRows rtp.pre.tariffId = none := by
      simpa [Env.tariffRows, tariff, Option.filter_some] using sold
    rw [not_sold] at loaded
    simp [calcCprice2, loaded] at succeeds
  rw [Env.tariffRows_eq_some sold.1 tariff sold.2] at loaded
  rw [calcCprice2_eq loaded rfl, same_pre, billsec] at succeeds
  obtain ⟨last, final_eq, unique, totals_eq⟩ :=
    finalRow_totals distinct member contiguous table deltas sold.2
  have priced_eq := congrArg Prod.snd succeeds
  subst priced_eq
  exact ⟨last, final_eq, unique, congrArg CpriceTotals.cprice totals_eq,
    congrArg CpriceTotals.billsec totals_eq⟩

end Simulation

/-- A tariff of a first half minute for 5 and then seconds for 1 each. -/
def setupTariff : List CalcFunction := [⟨1, 30, 5, 1⟩, ⟨2, 1, 1, 0⟩]

/-- The rows of that tariff, the last position first. -/
def setupTable (_ : ℕ) : List CalcFunction := setupTariff.reverse

/-- A paid portion of `billsec` seconds of a call on tariff 1. -/
def paidPortion (billsec : ℤ) : Portion where
  call := ⟨1, billsec, "2024-03-04 10:00:00", 1, 1, 1, 1, 0, 0, 0, 0, "2024-03-01"⟩
  kind := .paid
  sec := billsec
  sgn := 1
  fbidOut := 0

/-- 45 seconds cost the first half minute and 15 seconds. -/
theorem finalRow_price_eq_setup :
    ∃ last, finalRow (priceWalk setupTable [paidPortion 45]) (paidPortion 45).key = some last ∧
      (∀ other ∈ priceWalk setupTable [paidPortion 45],
        other.key = (paidPortion 45).key → last.pos ≤ other.pos → other = last) ∧
      last.price = 20 ∧ last.bsec = 45 := by
  have priced : calcCprice2 (rtDataQTariff
      { bareEnv with calcFunction := fun _ => some setupTariff }
      { rtm := .clg, pre := { tariffId := 1, billsec := 45 } }) =
      (0, { rtm := .clg
            bplan := { calcFuncs := some setupTariff }
            pre := { tariffId := 1, billsec := 45, cprice := 20 } }) := by
    decide +kernel
  exact finalRow_price_eq (by decide) (by simp) (by decide) (List.reverse_perm setupTariff)
    (by decide) rfl rfl rfl priced

end RateEngine
