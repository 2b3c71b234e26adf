import RateEngine.CdrRaters
import RateEngine.Lib.GuardedRun
import RateEngine.Lib.Slots

/-!
# At most one rating of a CDR

The duplicate check of `rt_data_q_rating_add_sql` is what keeps a CDR from being rated twice: the
mark of the leg comes after the row, and the fetch may come before the mark.  The check looks for a
row of the same account and rate, and the free part of a split is charged whatever it finds.  This
file states when every CDR has at most one row and one charge, over all runs of all raters.
-/

namespace RateEngine

open Slots

/-! ## Rows of a CDR -/

/-- The number of rows of a CDR in `rating`. -/
def Db.rowsOf (db : Db) (cdrId : ℕ) : ℤ := (db.rating.select fun row => row.callId = cdrId).length

/-- The CDR has a row in `rating`. -/
def Db.Rated (db : Db) (cdrId : ℕ) : Prop := 1 ≤ db.rowsOf cdrId

theorem Db.rowsOf_nonneg (db : Db) (cdrId : ℕ) : 0 ≤ db.rowsOf cdrId := Int.natCast_nonneg _

theorem Db.rowsOf_of_rating {db db' : Db} (same : db'.rating = db.rating) (cdrId : ℕ) :
    db'.rowsOf cdrId = db.rowsOf cdrId := by
  rw [rowsOf, rowsOf, same]

/-- A new row is one of its CDR. -/
theorem Db.rowsOf_insert (db : Db) (row : RatingRow) (cdrId : ℕ) :
    { db with rating := db.rating.insert row }.rowsOf cdrId =
      db.rowsOf cdrId + if row.callId = cdrId then 1 else 0 := by
  simp only [rowsOf, SerialTable.select_insert, List.length_append, Nat.cast_add]
  congr 1
  split <;> simp_all

/-- The rows that a duplicate check finds are rows of the CDR. -/
theorem Db.rated_of_found {db : Db} {env : Env} {cdrId baccId rateId : ℕ} {row : ℕ × RatingRow}
    {rows : List (ℕ × RatingRow)}
    (found : env.select .ratingDup (db.rating.select (RatingRow.isOf cdrId baccId rateId)) =
      some (row :: rows)) : db.Rated cdrId := by
  rw [Env.select] at found
  split at found
  · cases found
  have selected : row ∈ db.rating.select (RatingRow.isOf cdrId baccId rateId) := by
    rw [Option.some.inj found]
    exact List.mem_cons_self
  obtain ⟨member, same⟩ := List.mem_filter.mp selected
  have of_cdr : row ∈ db.rating.select fun row => row.callId = cdrId := by
    refine List.mem_filter.mpr ⟨member, ?_⟩
    simp only [RatingRow.isOf, Bool.and_eq_true] at same
    exact same.1.1
  exact Int.ofNat_le.mpr (List.length_pos_of_mem of_cdr)

namespace RtExecRun

/-! ## Where a call stands -/

/-- One for a call between check and insertion. -/
def adding (run : RtExecRun) : ℤ := if run.pc.adds then 1 else 0

/-- The call is about to charge a balance, or will after its mark. -/
def Owes (run : RtExecRun) : Prop :=
  run.pc.charges = true ∨ run.pc = .mark ∧ 0 < run.rtp.pre.ratingId

instance (run : RtExecRun) : Decidable run.Owes := inferInstanceAs (Decidable (_ ∨ _))

/-- One for a call that is about to charge a balance. -/
def owing (run : RtExecRun) : ℤ := if run.Owes then 1 else 0

/-- A call has no rating id before its row, and has a row before its free part is charged. -/
def Ok (db : Db) (run : RtExecRun) : Prop :=
  0 < run.rtp.pre.cdrId →
    match run.pc with
    | .load | .add _ => run.rtp.pre.ratingId = 0
    | .check _ => run.rtp.pre.ratingId = 0 ∨ db.Rated run.rtp.pre.cdrId
    | .splitCharge | .splitCount => db.Rated run.rtp.pre.cdrId
    | .mark | .charge | .count => True

/-- The check finds a row when the CDR has one, and is not that of the free part of a split then;
the insertion of a free part succeeds. -/
def FindsRow (env : Env) (db : Db) (run : RtExecRun) : Prop :=
  match run.pc with
  | .check rest => db.Rated run.rtp.pre.cdrId →
      rest = none ∧ ∃ row rows, env.select .ratingDup (db.rating.select
        (RatingRow.isOf run.rtp.pre.cdrId run.rtp.bacc.id run.rtp.pre.rateId)) = some (row :: rows)
  | .add (some _) => env.lost .ratingAdd = false
  | _ => True

theorem Ok.mono {run : RtExecRun} {db db' : Db} (ok : run.Ok db)
    (more : ∀ cdrId, db.rowsOf cdrId ≤ db'.rowsOf cdrId) : run.Ok db' := by
  intro stored
  have before := ok stored
  have rated (now : db.Rated run.rtp.pre.cdrId) : db'.Rated run.rtp.pre.cdrId :=
    le_trans now (more _)
  cases pc_eq : run.pc <;> simp only [pc_eq] at before ⊢
  case check rest => exact before.imp_right rated
  case splitCharge => exact rated before
  case splitCount => exact rated before
  all_goals exact before

/-- What a step does to the rows of its CDR, and what it owes after it. -/
structure Effect (run : RtExecRun) (db : Db) (run' : Option RtExecRun) (db' : Db) : Prop where
  same_call : ∀ after ∈ run', after.rtp.pre.cdrId = run.rtp.pre.cdrId
  ok : ∀ after ∈ run', after.Ok db'
  more : ∀ cdrId, db.rowsOf cdrId ≤ db'.rowsOf cdrId
  others : ∀ cdrId ≠ run.rtp.pre.cdrId, db'.rowsOf cdrId = db.rowsOf cdrId
  /-- A charge is owed before, and a debt comes with a row. -/
  owing : 0 < run.rtp.pre.cdrId →
    (if run.pc.charges then 1 else 0) + run'.elim 0 RtExecRun.owing - db'.rowsOf run.rtp.pre.cdrId ≤
      run.owing - db.rowsOf run.rtp.pre.cdrId
  /-- A row comes from a check that found none. -/
  adding : 0 < run.rtp.pre.cdrId →
    run'.elim 0 RtExecRun.adding + db'.rowsOf run.rtp.pre.cdrId ≤
        run.adding + db.rowsOf run.rtp.pre.cdrId ∨
      (∃ rest, run.pc = .check rest) ∧ db'.rowsOf run.rtp.pre.cdrId = 0 ∧
        run'.elim 0 RtExecRun.adding ≤ 1

end RtExecRun

/-! ## Pricing and saving -/

/-- Pricing leaves the call at a check, or without a row at the mark. -/
structure RtExecRun.Prices (rtp : Racc) (run : RtExecRun) : Prop where
  cdrId : run.rtp.pre.cdrId = rtp.pre.cdrId
  next : (∃ rest, run.pc = .check rest) ∧ run.rtp.pre.ratingId = rtp.pre.ratingId ∨
    run.pc = .mark ∧ run.rtp.pre.ratingId = -1

theorem RtExecRun.Prices.of_sameCall {rtp rtp' : Racc} {run : RtExecRun} (prices : run.Prices rtp')
    (same : rtp.SameCall rtp') : run.Prices rtp := by
  obtain ⟨cdrId, next⟩ := prices
  refine ⟨cdrId.trans same.pre.cdrId, ?_⟩
  rwa [same.pre.ratingId] at next

namespace Racc

variable (rtp : Racc)

theorem sameCall_withBillsec (billsec : ℤ) : rtp.SameCall (rtp.withBillsec billsec) :=
  ⟨rfl, rfl, rfl, rfl, rfl⟩

theorem prices_failed : rtp.failed.Prices rtp := ⟨rfl, .inr ⟨rfl, rfl⟩⟩

theorem prices_check (rest : Option ℤ) : RtExecRun.Prices rtp ⟨rtp, .check rest⟩ :=
  ⟨rfl, .inl ⟨⟨rest, rfl⟩, rfl⟩⟩

theorem prices_pricePaid : rtp.pricePaid.Prices rtp := by
  have same := calcCpriceGroup_sameCall rtp
  unfold pricePaid
  rcases priced_eq : calcCpriceGroup rtp with ⟨ret, priced⟩
  rw [priced_eq] at same
  dsimp only
  split
  · exact priced.prices_failed.of_sameCall same
  · exact (priced.prices_check none).of_sameCall same

theorem prices_priceSplit : rtp.priceSplit.Prices rtp := by
  unfold priceSplit
  split
  · have same := (rtp.sameCall_withBillsec rtp.freeSec).trans
      (calcCpriceGroup_sameCall (rtp.withBillsec rtp.freeSec))
    rcases free_eq : calcCpriceGroup (rtp.withBillsec rtp.freeSec) with ⟨ret, free⟩
    rw [free_eq] at same
    dsimp only
    split
    · exact (free.prices_check _).of_sameCall same
    split
    · have whole := free.sameCall_withBillsec rtp.pre.billsec
      exact (prices_pricePaid _).of_sameCall (same.trans whole)
    · exact free.prices_failed.of_sameCall same
  · exact rtp.prices_pricePaid

theorem prices_price : rtp.price.Prices rtp := by
  unfold price
  cases rtp.bplan.calcFuncs with
  | none => exact rtp.prices_failed
  | some tr =>
      have same := calcCpriceGroup_sameCall rtp
      rcases priced_eq : calcCpriceGroup rtp with ⟨ret, priced⟩
      rw [priced_eq] at same
      dsimp only
      split
      · exact (priced.prices_check none).of_sameCall same
      split
      · exact priced.prices_priceSplit.of_sameCall same
      · exact priced.prices_failed.of_sameCall same

/-- After a row the call is at its mark; after that of a free part it charges or prices the rest. -/
theorem saved_cases (rest : Option ℤ) :
    (rest = none ∧ rtp.saved rest = ⟨rtp, .mark⟩) ∨
      rest ≠ none ∧
        ((∃ billsec, rtp.saved rest = ⟨rtp.withBillsec billsec, .splitCharge⟩) ∨
          (rtp.saved rest).Prices rtp) := by
  cases rest with
  | none => exact .inl ⟨rfl, rfl⟩
  | some noFreeSec =>
      refine .inr ⟨by simp, ?_⟩
      simp only [saved]
      split
      · exact .inl ⟨noFreeSec, rfl⟩
      · exact .inr ((prices_pricePaid _).of_sameCall (rtp.sameCall_withBillsec noFreeSec))

end Racc

/-! ## One step of a call -/

namespace RtExecRun

theorem owing_nonneg (run : RtExecRun) : 0 ≤ run.owing := by
  unfold owing
  split <;> decide

theorem adding_nonneg (run : RtExecRun) : 0 ≤ run.adding := by
  unfold adding
  split <;> decide

namespace Prices

variable {rtp : Racc} {run : RtExecRun} (prices : run.Prices rtp)
include prices

theorem owing_eq_zero : run.owing = 0 := by
  rcases prices.next with ⟨⟨rest, pc⟩, -⟩ | ⟨pc, failed⟩
  · simp [owing, Owes, pc, RtExecPc.charges]
  · simp [owing, Owes, pc, RtExecPc.charges, failed]

theorem adding_eq_zero : run.adding = 0 := by
  rcases prices.next with ⟨⟨rest, pc⟩, -⟩ | ⟨pc, -⟩ <;> simp [adding, pc, RtExecPc.adds]

theorem ok {db : Db} (stands : 0 < rtp.pre.cdrId → rtp.pre.ratingId = 0 ∨ db.Rated rtp.pre.cdrId) :
    run.Ok db := by
  intro stored
  rw [prices.cdrId] at stored
  rcases prices.next with ⟨⟨rest, pc⟩, ratingId⟩ | ⟨pc, -⟩
  · simp only [pc, ratingId, prices.cdrId]
    exact stands stored
  · simp only [pc]

end Prices

variable {env : Env} {db db' : Db} {leg : Leg} {run : RtExecRun} {run' : Option RtExecRun}

/-- A step that leaves the rows alone. -/
theorem Effect.of_rating (same : db'.rating = db.rating)
    (same_call : ∀ after ∈ run', after.rtp.pre.cdrId = run.rtp.pre.cdrId)
    (ok : ∀ after ∈ run', after.Ok db)
    (owing : (if run.pc.charges then 1 else 0) + run'.elim 0 RtExecRun.owing ≤ run.owing)
    (adding : run'.elim 0 RtExecRun.adding ≤ run.adding) : run.Effect db run' db' := by
  have rows (cdrId : ℕ) : db'.rowsOf cdrId = db.rowsOf cdrId := Db.rowsOf_of_rating same cdrId
  refine ⟨same_call, fun after member => ?_, fun cdrId => (rows cdrId).ge,
    fun cdrId _ => rows cdrId,
    fun _ => ?_, fun _ => .inl ?_⟩
  · exact (ok after member).mono fun cdrId => (rows cdrId).ge
  · rw [rows]
    omega
  · rw [rows]
    omega

/-- A step after which the rest of the call is priced. -/
theorem Effect.of_prices {after : RtExecRun} {rtp : Racc} (same : db'.rating = db.rating)
    (prices : after.Prices rtp) (cdrId : rtp.pre.cdrId = run.rtp.pre.cdrId)
    (ratingId : rtp.pre.ratingId = run.rtp.pre.ratingId)
    (stands : 0 < run.rtp.pre.cdrId →
      run.rtp.pre.ratingId = 0 ∨ db.Rated run.rtp.pre.cdrId) : run.Effect db (some after) db' := by
  refine .of_rating same ?_ ?_ ?_ ?_
  · rintro _ ⟨⟩
    exact prices.cdrId.trans cdrId
  · rintro _ ⟨⟩
    refine prices.ok ?_
    rwa [cdrId, ratingId]
  · rw [Option.elim_some, prices.owing_eq_zero, RtExecRun.owing]
    cases charged : run.pc.charges <;> simp [Owes, charged]
    split <;> decide
  · rw [Option.elim_some, prices.adding_eq_zero]
    exact run.adding_nonneg

theorem effect_load (ok : run.Ok db) (pc : run.pc = .load)
    (steps : run.next env db leg = (run', db')) :
    run.Effect db run' db' := by
  simp only [next, pc, Prod.mk.injEq] at steps
  obtain ⟨rfl, rfl⟩ := steps
  obtain ⟨-, kept, books_eq⟩ := rtExecLoad_kept env db run.rtp
  refine .of_prices (congrArg Books.rating books_eq) (Racc.prices_price _) kept.cdrId kept.ratingId
    fun stored => .inl ?_
  have unrated := ok stored
  simp only [pc] at unrated
  exact unrated

/-- A row was found: the call is not rated again. -/
theorem effect_found (pc : run.pc = .check none) :
    run.Effect db (some ((run.rtp.withRatingId 0).saved none)) db := by
  refine .of_rating rfl ?_ ?_ ?_ ?_
  · rintro _ ⟨⟩
    rfl
  · rintro _ ⟨⟩ -
    trivial
  · simp [Racc.saved, owing, Owes, RtExecPc.charges, Racc.withRatingId, pc]
  · simp [Racc.saved, adding, RtExecPc.adds, pc]

/-- No row was found, and there was none. -/
theorem effect_absent {rest : Option ℤ} (ok : run.Ok db) (pc : run.pc = .check rest)
    (stored : 0 < run.rtp.pre.cdrId) (unrated : ¬ db.Rated run.rtp.pre.cdrId) :
    run.Effect db (some ⟨run.rtp, .add rest⟩) db := by
  have ratingId := ok stored
  simp only [pc] at ratingId
  refine ⟨?_, ?_, fun _ => le_rfl, fun _ _ => rfl, fun _ => ?_, fun _ => .inr ⟨⟨rest, pc⟩, ?_, ?_⟩⟩
  · rintro _ ⟨⟩
    rfl
  · rintro _ ⟨⟩ -
    exact ratingId.resolve_right unrated
  · simp [owing, Owes, RtExecPc.charges, pc]
  · have nonneg := db.rowsOf_nonneg run.rtp.pre.cdrId
    rw [Db.Rated] at unrated
    omega
  · simp [adding, RtExecPc.adds]

/-- A call that is no stored CDR has no rows. -/
theorem effect_unstored {after : RtExecRun} (unstored : ¬ 0 < run.rtp.pre.cdrId)
    (same_call : after.rtp.pre.cdrId = run.rtp.pre.cdrId) : run.Effect db (some after) db := by
  refine ⟨?_, ?_, fun _ => le_rfl, fun _ _ => rfl, fun stored => absurd stored unstored,
    fun stored => absurd stored unstored⟩
  · rintro _ ⟨⟩
    exact same_call
  · rintro _ ⟨⟩ stored
    rw [same_call] at stored
    exact absurd stored unstored

theorem saved_cdrId (rtp : Racc) (rest : Option ℤ) :
    (rtp.saved rest).rtp.pre.cdrId = rtp.pre.cdrId := by
  rcases rtp.saved_cases rest with ⟨-, saved⟩ | ⟨-, ⟨billsec, saved⟩ | prices⟩
  · rw [saved]
  · rw [saved]
    rfl
  · exact prices.cdrId

theorem effect_check {rest : Option ℤ} (ok : run.Ok db) (finds : run.FindsRow env db)
    (pc : run.pc = .check rest) (steps : run.next env db leg = (run', db')) :
    run.Effect db run' db' := by
  simp only [FindsRow, pc] at finds
  simp only [next, pc] at steps
  split at steps
  · rename_i stored
    split at steps
    · rename_i found
      obtain ⟨rfl, -⟩ := finds (Db.rated_of_found found)
      obtain ⟨rfl, rfl⟩ := Prod.mk.inj steps
      exact effect_found pc
    · rename_i absent
      obtain ⟨rfl, rfl⟩ := Prod.mk.inj steps
      refine effect_absent ok pc stored fun rated => ?_
      obtain ⟨-, row, rows, found⟩ := finds rated
      exact absent row rows found
  · rename_i unstored
    obtain ⟨rfl, rfl⟩ := Prod.mk.inj steps
    exact effect_unstored unstored (saved_cdrId _ _)

/-- The row of a call that had none. -/
theorem effect_inserted {rest : Option ℤ} (pc : run.pc = .add rest) :
    run.Effect db (some ((run.rtp.withRatingId db.rating.next).saved rest))
      { db with rating := db.rating.insert run.rtp.ratingRow } := by
  have rows (cdrId : ℕ) : { db with rating := db.rating.insert run.rtp.ratingRow }.rowsOf cdrId =
      db.rowsOf cdrId + if run.rtp.pre.cdrId = cdrId then 1 else 0 := db.rowsOf_insert _ _
  have own_rows := rows run.rtp.pre.cdrId
  rw [if_pos rfl] at own_rows
  have rated :
      { db with rating := db.rating.insert run.rtp.ratingRow }.Rated run.rtp.pre.cdrId := by
    have nonneg := db.rowsOf_nonneg run.rtp.pre.cdrId
    rw [Db.Rated]
    omega
  have saved_ok : ((run.rtp.withRatingId db.rating.next).saved rest).Ok
      { db with rating := db.rating.insert run.rtp.ratingRow } := by
    rcases Racc.saved_cases (run.rtp.withRatingId db.rating.next) rest with
      ⟨-, saved⟩ | ⟨-, ⟨billsec, saved⟩ | prices⟩
    · rw [saved]
      exact fun _ => trivial
    · rw [saved]
      exact fun _ => rated
    · exact prices.ok fun _ => .inr rated
  have saved_adding : ((run.rtp.withRatingId db.rating.next).saved rest).adding = 0 := by
    rcases Racc.saved_cases (run.rtp.withRatingId db.rating.next) rest with
      ⟨-, saved⟩ | ⟨-, ⟨billsec, saved⟩ | prices⟩
    · rw [saved]
      rfl
    · rw [saved]
      rfl
    · exact prices.adding_eq_zero
  refine ⟨?_, ?_, fun cdrId => ?_, fun cdrId other => ?_, fun _ => ?_, fun _ => .inl ?_⟩
  · rintro _ ⟨⟩
    exact saved_cdrId _ _
  · rintro _ ⟨⟩
    exact saved_ok
  · rw [rows]
    split <;> omega
  · rw [rows, if_neg other.symm, add_zero]
  · have debt_le : ((run.rtp.withRatingId db.rating.next).saved rest).owing ≤ 1 := by
      unfold RtExecRun.owing
      split <;> decide
    have before : run.owing = 0 := by simp [RtExecRun.owing, Owes, RtExecPc.charges, pc]
    have uncharged : run.pc.charges = false := by rw [pc]; rfl
    rw [own_rows, Option.elim_some, before, uncharged, if_neg Bool.false_ne_true]
    omega
  · have before : run.adding = 1 := by simp [RtExecRun.adding, RtExecPc.adds, pc]
    rw [own_rows, Option.elim_some, saved_adding, before]
    omega

theorem effect_add {rest : Option ℤ} (ok : run.Ok db) (finds : run.FindsRow env db)
    (pc : run.pc = .add rest) (steps : run.next env db leg = (run', db')) :
    run.Effect db run' db' := by
  simp only [next, pc] at steps
  split at steps
  · rename_i lost
    obtain ⟨rfl, rfl⟩ := Prod.mk.inj steps
    cases rest with
    | some noFreeSec =>
        simp only [FindsRow, pc] at finds
        rw [finds] at lost
        cases lost
    | none =>
        refine ⟨?_, ?_, fun _ => le_rfl, fun _ _ => rfl, fun stored => ?_, fun _ => .inl ?_⟩
        · rintro _ ⟨⟩
          rfl
        · rintro _ ⟨⟩ -
          trivial
        · have unrated := ok stored
          simp only [pc] at unrated
          simp [Racc.saved, RtExecRun.owing, Owes, RtExecPc.charges, pc, unrated]
        · simp [Racc.saved, RtExecRun.adding, RtExecPc.adds, pc]
  · obtain ⟨rfl, rfl⟩ := Prod.mk.inj steps
    exact effect_inserted pc

/-- Between the parts of a split the call has the row of its free part. -/
theorem Ok.rated_of_split (ok : run.Ok db) (between : run.pc = .splitCharge ∨ run.pc = .splitCount)
    (stored : 0 < run.rtp.pre.cdrId) : db.Rated run.rtp.pre.cdrId := by
  have rated := ok stored
  rcases between with pc | pc
  · simp only [pc] at rated
    exact rated
  · simp only [pc] at rated
    exact rated

theorem effect_splitCharge (ok : run.Ok db) (pc : run.pc = .splitCharge)
    (steps : run.next env db leg = (run', db')) : run.Effect db run' db' := by
  have rated := ok.rated_of_split (.inl pc)
  simp only [next, pc] at steps
  split at steps
  · obtain ⟨rfl, rfl⟩ := Prod.mk.inj steps
    exact .of_prices rfl run.rtp.prices_pricePaid rfl rfl fun stored => .inr (rated stored)
  · rename_i card _
    have same := rtBalanceExec_sameCall env db run.rtp card.start card.stop
    have rating_eq : (rtBalanceExec env db run.rtp card.start card.stop).2.rating = db.rating :=
      rtBalanceExec_rating _ _
    obtain ⟨rfl, rfl⟩ := Prod.mk.inj steps
    split
    · refine .of_rating rating_eq ?_ ?_ ?_ ?_
      · rintro _ ⟨⟩
        exact same.pre.cdrId
      · rintro _ ⟨⟩ stored
        dsimp only at stored ⊢
        rw [same.pre.cdrId] at stored ⊢
        exact rated stored
      · simp [RtExecRun.owing, Owes, RtExecPc.charges, pc]
      · simp [RtExecRun.adding, RtExecPc.adds, pc]
    · exact .of_prices rating_eq (Racc.prices_pricePaid _) same.pre.cdrId same.pre.ratingId
        fun stored => .inr (rated stored)

theorem effect_splitCount (ok : run.Ok db) (pc : run.pc = .splitCount)
    (steps : run.next env db leg = (run', db')) : run.Effect db run' db' := by
  have rated := ok.rated_of_split (.inr pc)
  simp only [next, pc] at steps
  split at steps
  · obtain ⟨rfl, rfl⟩ := Prod.mk.inj steps
    exact .of_prices rfl run.rtp.prices_pricePaid rfl rfl fun stored => .inr (rated stored)
  · rename_i card _
    have same := freeBillsecExec_sameCall env db run.rtp card.start card.stop
    have rating_eq : (freeBillsecExec env db run.rtp card.start card.stop).2.rating = db.rating :=
      freeBillsecExec_rating _ _
    obtain ⟨rfl, rfl⟩ := Prod.mk.inj steps
    exact .of_prices rating_eq (Racc.prices_pricePaid _) same.pre.cdrId same.pre.ratingId
      fun stored => .inr (rated stored)

/-- A step after which the call is over or has no more than its count to do. -/
theorem Effect.of_ends (same : db'.rating = db.rating)
    (ends : ∀ after ∈ run', after.rtp.pre.cdrId = run.rtp.pre.cdrId ∧ after.pc = .count)
    (charged : run.pc.charges = true → run.Owes) : run.Effect db run' db' := by
  have idle : run'.elim 0 RtExecRun.owing = 0 ∧ run'.elim 0 RtExecRun.adding = 0 := by
    cases run' with
    | none => exact ⟨rfl, rfl⟩
    | some after =>
        have pc := (ends after rfl).2
        simp [RtExecRun.owing, Owes, RtExecRun.adding, RtExecPc.charges, RtExecPc.adds, pc]
  refine .of_rating same (fun after member => (ends after member).1) (fun after member stored => ?_)
    ?_ ?_
  · simp only [(ends after member).2]
  · rw [idle.1, RtExecRun.owing]
    split
    · rename_i charges
      rw [if_pos (charged charges), add_zero]
    · split <;> decide
  · rw [idle.2]
    exact run.adding_nonneg

theorem effect_mark (pc : run.pc = .mark) (steps : run.next env db leg = (run', db')) :
    run.Effect db run' db' := by
  simp only [next, pc] at steps
  split at steps <;> obtain ⟨rfl, rfl⟩ := Prod.mk.inj steps
  · refine .of_ends (cdrUpdateCdr_rating _ _ _) ?_ fun _ => ?_
    · rintro _ ⟨⟩
    · simp_all [RtExecPc.charges]
  · split
    · rename_i carded
      refine .of_rating (cdrUpdateCdr_rating _ _ _) ?_ ?_ ?_ ?_
      · rintro _ ⟨⟩
        rfl
      · rintro _ ⟨⟩ -
        trivial
      · simp [RtExecRun.owing, Owes, RtExecPc.charges, pc, carded.2]
      · simp [RtExecRun.adding, RtExecPc.adds, pc]
    · refine .of_ends (cdrUpdateCdr_rating _ _ _) ?_ fun _ => ?_
      · rintro _ ⟨⟩
      · simp_all [RtExecPc.charges]

theorem effect_charge (pc : run.pc = .charge) (steps : run.next env db leg = (run', db')) :
    run.Effect db run' db' := by
  have owes : run.Owes := .inl (by rw [pc]; rfl)
  simp only [next, pc] at steps
  split at steps <;> obtain ⟨rfl, rfl⟩ := Prod.mk.inj steps
  · refine .of_ends rfl ?_ fun _ => owes
    rintro _ ⟨⟩
  · rename_i card _
    have same := rtBalanceExec_sameCall env db run.rtp card.start card.stop
    refine .of_ends (rtBalanceExec_rating _ _) ?_ fun _ => owes
    intro after member
    split at member
    · obtain ⟨⟩ := member
      exact ⟨same.pre.cdrId, rfl⟩
    · cases member

theorem effect_count (pc : run.pc = .count) (steps : run.next env db leg = (run', db')) :
    run.Effect db run' db' := by
  simp only [next, pc] at steps
  split at steps <;> obtain ⟨rfl, rfl⟩ := Prod.mk.inj steps
  · refine .of_ends rfl ?_ fun _ => ?_
    · rintro _ ⟨⟩
    · simp_all [RtExecPc.charges]
  · refine .of_ends (freeBillsecExec_rating _ _) ?_ fun _ => ?_
    · rintro _ ⟨⟩
    · simp_all [RtExecPc.charges]

/-- A call whose check is in turn comes to no second row and to no charge without a row. -/
theorem effect_next (ok : run.Ok db) (finds : run.FindsRow env db)
    (steps : run.next env db leg = (run', db')) : run.Effect db run' db' := by
  cases pc : run.pc with
  | load => exact effect_load ok pc steps
  | check rest => exact effect_check ok finds pc steps
  | add rest => exact effect_add ok finds pc steps
  | splitCharge => exact effect_splitCharge ok pc steps
  | splitCount => exact effect_splitCount ok pc steps
  | mark => exact effect_mark pc steps
  | charge => exact effect_charge pc steps
  | count => exact effect_count pc steps

end RtExecRun

/-! ## All threads -/

namespace RaterThread

/-- What a thread that rates the CDR counts for. -/
def weight (count : RtExecRun → ℤ) (cdrId : ℕ) (thread : RaterThread) : ℤ :=
  match thread.task with
  | .rating _ run => if run.rtp.pre.cdrId = cdrId then count run else 0
  | _ => 0

/-- The call of the thread stands right. -/
def Ok (db : Db) (thread : RaterThread) : Prop :=
  ∀ leg run, thread.task = .rating leg run → run.Ok db

/-- A thread that is not in `rt_exec`, or has yet to load its call. -/
structure Fresh (thread : RaterThread) : Prop where
  run : ∀ leg run, thread.task = .rating leg run → run.pc = .load ∧ run.rtp.pre.ratingId = 0

variable {thread : RaterThread}

theorem Fresh.of_idle (idle : thread.task = .idle) : thread.Fresh :=
  ⟨fun leg run rating => by rw [idle] at rating; cases rating⟩

theorem Fresh.ok (fresh : thread.Fresh) (db : Db) : thread.Ok db := by
  intro leg run rating stored
  obtain ⟨pc, unrated⟩ := fresh.run leg run rating
  simp only [pc]
  exact unrated

theorem Fresh.weight_adding (fresh : thread.Fresh) (cdrId : ℕ) :
    thread.weight RtExecRun.adding cdrId = 0 := by
  unfold weight
  split
  · rename_i rating
    simp [RtExecRun.adding, RtExecPc.adds, (fresh.run _ _ rating).1]
  · rfl

theorem Fresh.weight_owing (fresh : thread.Fresh) (cdrId : ℕ) :
    thread.weight RtExecRun.owing cdrId = 0 := by
  unfold weight
  split
  · rename_i rating
    simp [RtExecRun.owing, RtExecRun.Owes, RtExecPc.charges, (fresh.run _ _ rating).1]
  · rfl

end RaterThread

/-- The record of an ended call has no row yet. -/
theorem EndedCall.unrated (call : EndedCall) : call.rtp.pre.ratingId = 0 := by
  obtain ⟨env, db, server, sim, answer, db', answer_eq⟩ := call.granted
  cases account : rtMaxsecAccount env (ccMaxsecPre server call.max) with
  | error refusal =>
      simp only [rtMaxsec, account, Prod.mk.injEq, reduceCtorEq, false_and, and_false] at answer_eq
  | ok found =>
      obtain ⟨rtp, card⟩ := found
      obtain ⟨limit, maxsec, stored⟩ := rtMaxsec_pre env db sim account
      have answered : answer = call.rtp.pre := by
        simp only [rtMaxsec, account] at answer_eq
        split at answer_eq
        · cases answer_eq
        · cases answer_eq
          rfl
      have searched := (rtRateSearching_kept env db rtp).ratingId
      rw [(rtMaxsecAccount_ok account).1] at searched
      rw [answer_eq] at stored
      rw [← answered, show answer = _ from stored]
      exact searched

namespace RatingSystem

/-- Every CDR has at most one row or insertion under way, and no charge, done or owed, without a
row. -/
structure Accounted (s : RatingSystem) : Prop where
  rows : ∀ cdrId, 0 < cdrId →
    s.db.rowsOf cdrId + total (RaterThread.weight RtExecRun.adding cdrId) s.threads ≤ 1
  charges : ∀ cdrId, 0 < cdrId →
    s.charges.count cdrId + total (RaterThread.weight RtExecRun.owing cdrId) s.threads ≤
      s.db.rowsOf cdrId
  ok : ∀ thread ∈ s.threads, thread.Ok s.db

section Accounted

variable {s : RatingSystem} (accounted : s.Accounted)
include accounted

/-- What does not touch rows, charges and threads keeps the accounts. -/
theorem Accounted.of_eq {s' : RatingSystem} (rating : s'.db.rating = s.db.rating)
    (threads : s'.threads = s.threads) (charges : s'.charges = s.charges) : s'.Accounted := by
  have rows (cdrId : ℕ) : s'.db.rowsOf cdrId = s.db.rowsOf cdrId := Db.rowsOf_of_rating rating cdrId
  refine ⟨fun cdrId stored => ?_, fun cdrId stored => ?_, fun thread member leg run task => ?_⟩
  · rw [rows, threads]
    exact accounted.rows cdrId stored
  · rw [rows, threads, charges]
    exact accounted.charges cdrId stored
  · rw [threads] at member
    exact (accounted.ok thread member leg run task).mono fun cdrId => (rows cdrId).ge

/-- A thread that takes up a call. -/
theorem Accounted.set_fresh {w : ℕ} {old new : RaterThread} (found : s.threads[w]? = some old)
    (old_fresh : old.Fresh) (new_fresh : new.Fresh) :
    Accounted { s with threads := s.threads.set w new } := by
  refine ⟨fun cdrId stored => ?_, fun cdrId stored => ?_, fun thread member => ?_⟩
  · rw [total_set _ new found, new_fresh.weight_adding, old_fresh.weight_adding, sub_zero, add_zero]
    exact accounted.rows cdrId stored
  · rw [total_set _ new found, new_fresh.weight_owing, old_fresh.weight_owing, sub_zero, add_zero]
    exact accounted.charges cdrId stored
  · rcases List.mem_or_eq_of_mem_set member with before | rfl
    · exact accounted.ok thread before
    · exact new_fresh.ok s.db

end Accounted

/-! ## Runs -/

/-- The check of a call finds its row, if there is one, and no other call of the CDR is between
check and insertion. -/
def ChecksInTurn (s : RatingSystem) : RaterAction → Prop
  | .advance w env =>
      ∀ thread leg run, s.threads[w]? = some thread → thread.task = .rating leg run →
      run.FindsRow env s.db ∧
        ((∃ rest, run.pc = .check rest) → ∀ thread' ∈ s.threads, ∀ leg' run',
          thread'.task = .rating leg' run' → run'.pc.adds = true →
            run'.rtp.pre.cdrId ≠ run.rtp.pre.cdrId)
  | _ => True

/-- Every CDR has at most one row in `rating` and at most one charge. -/
def RatedOnce (s : RatingSystem) : Prop :=
  ∀ cdrId, 0 < cdrId →
    (s.db.rating.select fun row => row.callId = cdrId).length ≤ 1 ∧ s.charges.count cdrId ≤ 1

theorem total_weight_nonneg {count : RtExecRun → ℤ} (nonneg : ∀ run, 0 ≤ count run) (cdrId : ℕ)
    (threads : List RaterThread) : 0 ≤ total (RaterThread.weight count cdrId) threads := by
  refine total_nonneg fun thread _ => ?_
  unfold RaterThread.weight
  split
  · split
    · exact nonneg _
    · exact le_rfl
  · exact le_rfl

theorem Accounted.ratedOnce {s : RatingSystem} (accounted : s.Accounted) : s.RatedOnce := by
  intro cdrId stored
  have rows := accounted.rows cdrId stored
  have charges := accounted.charges cdrId stored
  have adding := total_weight_nonneg RtExecRun.adding_nonneg cdrId s.threads
  have owing := total_weight_nonneg RtExecRun.owing_nonneg cdrId s.threads
  rw [Db.rowsOf] at rows charges
  omega

theorem accounted_start (processes : ℕ) (threads : List (ℕ × Bool)) :
    (start processes threads).Accounted := by
  have fresh {thread : RaterThread} (member : thread ∈ (start processes threads).threads) :
      thread.Fresh := by
    obtain ⟨pair, -, rfl⟩ := List.mem_map.mp member
    exact .of_idle rfl
  have rows (cdrId : ℕ) : (start processes threads).db.rowsOf cdrId = 0 := rfl
  refine ⟨fun cdrId _ => ?_, fun cdrId _ => ?_, fun thread member => (fresh member).ok _⟩
  · rw [rows, total_eq_zero fun thread member => (fresh member).weight_adding cdrId]
    decide
  · rw [rows, total_eq_zero fun thread member => (fresh member).weight_owing cdrId]
    rfl

section Step

variable {s s' : RatingSystem}

theorem accounted_cdrAddInDb (accounted : s.Accounted) (callUid : String) (cdr : Cdr) :
    (s.cdrAddInDb callUid cdr).Accounted := by
  unfold cdrAddInDb
  split
  · exact accounted
  · exact accounted.of_eq rfl rfl rfl

/-- The weight of a thread that rates a CDR. -/
theorem weight_advanced {run : RtExecRun} {after : Option RtExecRun} {process : ℕ} {janitor : Bool}
    {leg : Leg} (count : RtExecRun → ℤ)
    (same_call : ∀ run' ∈ after, run'.rtp.pre.cdrId = run.rtp.pre.cdrId) (cdrId : ℕ) :
    RaterThread.weight count cdrId ⟨process, janitor, after.elim .idle (.rating leg)⟩ =
      if run.rtp.pre.cdrId = cdrId then after.elim 0 count else 0 := by
  cases after with
  | none => simp [RaterThread.weight]
  | some run' => simp [RaterThread.weight, same_call run' rfl]

theorem accounted_advance (accounted : s.Accounted) {w : ℕ} {process : ℕ}
    {janitor : Bool} {leg : Leg}
    {run : RtExecRun} {env : Env} (found : s.threads[w]? = some ⟨process, janitor, .rating leg run⟩)
    (finds : run.FindsRow env s.db)
    (alone : (∃ rest, run.pc = .check rest) → ∀ thread ∈ s.threads, ∀ leg' run',
      thread.task = .rating leg' run' → run'.pc.adds = true →
        run'.rtp.pre.cdrId ≠ run.rtp.pre.cdrId) :
    (s.advance w { process, janitor } leg run env).Accounted := by
  have member := List.mem_of_getElem? found
  rcases steps : run.next env s.db leg with ⟨after, db'⟩
  have effect := RtExecRun.effect_next (accounted.ok _ member leg run rfl) finds steps
  have before (count : RtExecRun → ℤ) (cdrId : ℕ) :
      RaterThread.weight count cdrId ⟨process, janitor, .rating leg run⟩ =
        if run.rtp.pre.cdrId = cdrId then count run else 0 := rfl
  simp only [advance, steps, setTask]
  refine ⟨fun cdrId stored => ?_, fun cdrId stored => ?_, fun thread thread_member => ?_⟩
  · have rows := accounted.rows cdrId stored
    dsimp only
    rw [total_set _ _ found, weight_advanced RtExecRun.adding effect.same_call, before]
    by_cases own : run.rtp.pre.cdrId = cdrId
    · subst own
      rw [if_pos rfl, if_pos rfl]
      rcases effect.adding stored with less | ⟨⟨rest, pc⟩, no_row, at_most⟩
      · omega
      · have none_adding :
            total (RaterThread.weight RtExecRun.adding run.rtp.pre.cdrId) s.threads = 0 := by
          refine total_eq_zero fun thread thread_member => ?_
          unfold RaterThread.weight
          split
          · rename_i leg' run' rating
            split
            · rename_i same
              have idle := alone ⟨rest, pc⟩ thread thread_member leg' run' rating
              rw [RtExecRun.adding, if_neg fun adds => idle adds same]
            · rfl
          · rfl
        have not_adding : run.adding = 0 := by simp [RtExecRun.adding, RtExecPc.adds, pc]
        omega
    · rw [if_neg own, if_neg own, effect.others cdrId (Ne.symm own)]
      omega
  · have charges := accounted.charges cdrId stored
    dsimp only
    rw [total_set _ _ found, weight_advanced RtExecRun.owing effect.same_call, before]
    by_cases own : run.rtp.pre.cdrId = cdrId
    · subst own
      rw [if_pos rfl, if_pos rfl]
      have owing := effect.owing stored
      cases charged : run.pc.charges with
      | true =>
          rw [charged, if_pos rfl] at owing
          rw [if_pos rfl, List.count_cons_self]
          push_cast
          omega
      | false =>
          rw [charged, if_neg Bool.false_ne_true] at owing
          rw [if_neg Bool.false_ne_true]
          omega
    · rw [if_neg own, if_neg own, effect.others cdrId (Ne.symm own)]
      split
      · rw [List.count_cons_of_ne own]
        omega
      · omega
  · rcases List.mem_or_eq_of_mem_set thread_member with old | rfl
    · intro leg' run' rating
      exact (accounted.ok thread old leg' run' rating).mono effect.more
    · intro leg' run' rating
      cases after with
      | none => cases rating
      | some after =>
          cases rating
          exact effect.ok _ rfl

/-- The janitor starts with the record of the slot, a worker with a new one. -/
theorem fresh_load {process : ℕ} {janitor : Bool} {leg : Leg} {rtp : Racc}
    (unrated : rtp.pre.ratingId = 0) :
    RaterThread.Fresh ⟨process, janitor, .rating leg { rtp }⟩ := by
  refine ⟨fun leg' run rating => ?_⟩
  cases rating
  exact ⟨rfl, unrated⟩

theorem fresh_added {process : ℕ} {janitor : Bool} {env : Env} {call : EndedCall} :
    RaterThread.Fresh ⟨process, janitor, .added env call⟩ :=
  ⟨fun _ _ rating => nomatch rating⟩

theorem accounted_getCdrId (accounted : s.Accounted) {w : ℕ} {process : ℕ}
    {janitor : Bool} {env : Env}
    {call : EndedCall} (found : s.threads[w]? = some ⟨process, janitor, .added env call⟩) :
    (s.getCdrId w { process, janitor } env call).Accounted := by
  refine accounted.set_fresh found fresh_added ?_
  dsimp only
  split
  · exact fresh_load call.unrated
  · exact .of_idle rfl

theorem accounted_take (accounted : s.Accounted) {w k : ℕ} {thread : RaterThread} {env : Env}
    (found : s.threads[w]? = some thread) (idle : thread.task = .idle)
    (steps : s.take w thread k env = some s') : s'.Accounted := by
  unfold take at steps
  split at steps
  · cases steps
  rename_i leg cdrs _
  obtain ⟨cdr, -, rfl⟩ := Option.map_eq_some_iff.mp steps
  have given {task : RaterTask} (fresh : RaterThread.Fresh { thread with task }) :
      Accounted { s.setTask w thread task with
        batches := s.batches.set thread.process (leg, cdrs.eraseIdx k) } :=
    (accounted.set_fresh found (.of_idle idle) fresh).of_eq rfl rfl rfl
  dsimp only
  cases record : rtMainRecord env leg cdr.recType (rtCdrToRating env cdr) with
  | none => exact given (.of_idle rfl)
  | some rtp =>
      obtain ⟨-, mode, pre_eq⟩ := rtMainRecord_frame record
      exact given (fresh_load (by rw [pre_eq]; rfl))

theorem accounted_step {action : RaterAction} (inTurn : s.ChecksInTurn action)
    (steps : s.step action = some s') (accounted : s.Accounted) : s'.Accounted := by
  cases action with
  | mediate callUid cdr =>
      obtain rfl := Option.some.inj steps
      exact accounted_cdrAddInDb accounted callUid cdr
  | addCdr w env call =>
      simp only [step] at steps
      split at steps
      · rename_i process found
        unfold addCdr at steps
        split at steps
        · obtain rfl := Option.some.inj steps
          have inserted := accounted_cdrAddInDb accounted call.term.callUid
            (ccServerAddCdr env call.rtp.pre call.max call.term 0)
          have found' : (s.cdrAddInDb call.term.callUid
              (ccServerAddCdr env call.rtp.pre call.max call.term 0)).threads[w]? =
                some ⟨process, true, .idle⟩ := by
            unfold cdrAddInDb
            split <;> exact found
          exact inserted.set_fresh found' (.of_idle rfl) fresh_added
        · cases steps
      · cases steps
  | getCdrId w =>
      simp only [step] at steps
      split at steps
      · rename_i found
        obtain rfl := Option.some.inj steps
        exact accounted_getCdrId accounted found
      · cases steps
  | fetch process leg =>
      simp only [step] at steps
      split at steps
      · split at steps
        · obtain rfl := Option.some.inj steps
          exact accounted.of_eq rfl rfl rfl
        · cases steps
      · cases steps
  | take w k env =>
      simp only [step] at steps
      split at steps
      · rename_i found
        exact accounted_take accounted found rfl steps
      · cases steps
  | advance w env =>
      simp only [step] at steps
      split at steps
      · rename_i found
        split at steps
        · cases steps
        · obtain rfl := Option.some.inj steps
          obtain ⟨finds, alone⟩ := inTurn _ _ _ found rfl
          exact accounted_advance accounted found finds alone
      · cases steps

/-- In a run whose duplicate checks are in turn, no CDR gets a second row or a second charge. -/
theorem ratedOnce_of_checksInTurn (processes : ℕ) (threads : List (ℕ × Bool))
    (actions : List RaterAction) (s : RatingSystem)
    (run : GuardedRun step ChecksInTurn (start processes threads) actions s) : s.RatedOnce :=
  have accounted : s.Accounted := run.preserves accounted_step (accounted_start processes threads)
  accounted.ratedOnce

end Step

/-! ## A call that the janitor and the batch rater rate -/

/-- The condition on duplicate checks, as a check. -/
def inTurnCheck (s : RatingSystem) : RaterAction → Bool
  | .advance w env =>
      match s.threads[w]? with
      | some { task := .rating _ run, .. } =>
          match run.pc with
          | .check rest =>
              ((s.db.rating.select fun row => row.callId = run.rtp.pre.cdrId).isEmpty ||
                rest = none &&
                  match env.select .ratingDup (s.db.rating.select
                    (RatingRow.isOf run.rtp.pre.cdrId run.rtp.bacc.id run.rtp.pre.rateId)) with
                  | some (_ :: _) => true
                  | _ => false) &&
                s.threads.all fun thread =>
                  match thread.task with
                  | .rating _ run' => !run'.pc.adds || run'.rtp.pre.cdrId ≠ run.rtp.pre.cdrId
                  | _ => true
          | .add (some _) => !env.lost .ratingAdd
          | _ => true
      | _ => true
  | _ => true

theorem checksInTurn_of_check (s : RatingSystem) (action : RaterAction)
    (checked : s.inTurnCheck action = true) : s.ChecksInTurn action := by
  cases action with
  | advance w env =>
      rintro ⟨process, janitor, task⟩ leg run found rfl
      simp only [inTurnCheck, found] at checked
      cases pc : run.pc with
      | check rest =>
          simp only [pc, Bool.and_eq_true, List.all_eq_true] at checked
          obtain ⟨finds, alone⟩ := checked
          refine ⟨?_, fun _ thread' member leg' run' rating adds => ?_⟩
          · simp only [RtExecRun.FindsRow, pc]
            intro rated
            have some_row : (s.db.rating.select fun row =>
                row.callId = run.rtp.pre.cdrId).isEmpty = false := by
              rw [List.isEmpty_eq_false_iff]
              intro none
              rw [Db.Rated, Db.rowsOf, none] at rated
              exact absurd rated (by decide)
            rw [some_row, Bool.false_or, Bool.and_eq_true] at finds
            refine ⟨of_decide_eq_true finds.1, ?_⟩
            have found_row := finds.2
            split at found_row
            · rename_i row rows selected
              exact ⟨row, rows, selected⟩
            · cases found_row
          · have other := alone thread' member
            simpa [rating, adds] using other
      | add rest =>
          refine ⟨?_, fun ⟨rest', check⟩ => by cases check⟩
          cases rest with
          | none => simp only [RtExecRun.FindsRow, pc]
          | some noFreeSec =>
              simp only [pc] at checked
              simpa only [RtExecRun.FindsRow, pc, Bool.not_eq_true'] using checked
      | _ =>
          refine ⟨?_, fun ⟨rest', check⟩ => by cases check⟩
          simp only [RtExecRun.FindsRow, pc]
  | _ => trivial

/-- The slot of a call of a minute to 200, which starts at ten in the morning of a day in 2024. -/
def endedCall (env : Env) : Option EndedCall :=
  EndedCall.ofMaxsec env {} 1 (weekdayCall "200") 0 minuteTerm

/-- The janitor rates the call; the batch rater fetches its CDR before the leg is marked. -/
def fetchBeforeMark (env : Env) (batchSteps : ℕ) (call : EndedCall) : List RaterAction :=
  [.addCdr 0 env call, .getCdrId 0, .fetch 0 .a] ++ List.replicate 5 (.advance 0 env) ++
    .take 1 0 env :: List.replicate batchSteps (.advance 1 env)

/-- On a Saturday both choose one rate, and the duplicate check stops the batch rater. -/
theorem saturday_ratedOnce : ∃ s : RatingSystem, s.charges = [1] ∧ s.RatedOnce := by
  let env := (weekdayEnv 9 6).withAccounts oneNumber
  have checked : ((endedCall env).bind fun call =>
      execAll (fun s action => if s.inTurnCheck action then s.step action else none)
        (start 1 [(0, true), (0, false)]) (fetchBeforeMark env 3 call)).map
          (fun s => s.charges) = some [1] := by
    decide +kernel
  obtain ⟨s, executed, charges⟩ := Option.map_eq_some_iff.mp checked
  obtain ⟨call, -, executed⟩ := Option.bind_eq_some_iff.mp executed
  exact ⟨s, charges,
    ratedOnce_of_checksInTurn 1 [(0, true), (0, false)] (fetchBeforeMark env 3 call) s
    (.of_execAll checksInTurn_of_check executed)⟩

/-- On a Monday the janitor rates the call by the rate for weekends and the batch rater by the rate
for working days: two rows and two charges. -/
theorem monday_ratedTwice :
    ¬ ∀ (processes : ℕ) (threads : List (ℕ × Bool)) (actions : List RaterAction) (s : RatingSystem),
      execAll step (start processes threads) actions = some s → s.RatedOnce := by
  intro claim
  let env := (weekdayEnv 4 1).withAccounts oneNumber
  have twice : ((endedCall env).bind fun call =>
      execAll step (start 1 [(0, true), (0, false)]) (fetchBeforeMark env 5 call)).map
        (fun s => ((s.db.rating.select fun row => row.callId = 1).length, s.charges.count 1)) =
          some (2, 2) := by
    decide +kernel
  obtain ⟨s, executed, counts⟩ := Option.map_eq_some_iff.mp twice
  obtain ⟨call, -, executed⟩ := Option.bind_eq_some_iff.mp executed
  have once := (claim 1 _ _ s executed 1 (by decide)).1
  rw [(Prod.mk.inj counts).1] at once
  exact absurd once (by decide)

end RatingSystem

end RateEngine
