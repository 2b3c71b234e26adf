import RateEngine.Conservation

/-!
# Calls across the end of the allowance

`rt_double_rating` saves the free part of such a call and then tries to save the rest.  Both rows
belong to one CDR, one account and one rate, and the duplicate check of `rt_data_q_rating_add_sql`
asks for exactly these three: the second row is never written.
-/

namespace RateEngine

/-! ## At most one row -/

/-- The rating rows are the same, or one row of the call is new. -/
def AddsRow (rtp : Racc) (before after : Db) : Prop :=
  after.rating = before.rating ∨
    ∃ row : RatingRow, row.isOf rtp.pre.cdrId rtp.bacc.id rtp.pre.rateId = true ∧
      after.rating = before.rating.insert row

section Rows

variable {env : Env} {db : Db} {rtp : Racc}

theorem rtRatingSave_addsRow : AddsRow rtp db (rtRatingSave env db rtp).2 := by
  simp only [rtRatingSave, rtDataQRatingAdd]
  split
  · split
    · exact Or.inl rfl
    · split
      · exact Or.inl rfl
      · exact Or.inr ⟨rtp.ratingRow, by simp [RatingRow.isOf, Racc.ratingRow], rfl⟩
  · exact Or.inl rfl

/-- The duplicate check stops a second row. -/
theorem rtRatingSave_of_row (answers : env.lost .ratingDup = false) {before : SerialTable RatingRow}
    {row : RatingRow} (entered : db.rating = before.insert row)
    (same : row.isOf rtp.pre.cdrId rtp.bacc.id rtp.pre.rateId = true) :
    (rtRatingSave env db rtp).2 = db := by
  have found : db.rating.select (RatingRow.isOf rtp.pre.cdrId rtp.bacc.id rtp.pre.rateId) =
      before.select (RatingRow.isOf rtp.pre.cdrId rtp.bacc.id rtp.pre.rateId) ++
        [(before.next, row)] := by
    rw [entered, SerialTable.select_insert, if_pos same]
  simp only [rtRatingSave, rtDataQRatingAdd, Env.select, answers, found, Bool.false_eq_true,
    if_false]
  cases before.select (RatingRow.isOf rtp.pre.cdrId rtp.bacc.id rtp.pre.rateId) with
  | nil =>
    simp only [List.nil_append]
    split <;> rfl
  | cons first rest =>
    simp only [List.cons_append]
    split <;> rfl

/-- Saving changes no more of the record than the id of its row. -/
theorem rtRatingSave_record :
    ∃ ratingId, (rtRatingSave env db rtp).1 = rtp.withRatingId ratingId := by
  simp only [rtRatingSave, rtDataQRatingAdd]
  split
  · split
    · exact ⟨0, rfl⟩
    · split
      · exact ⟨rtp.pre.ratingId, rfl⟩
      · exact ⟨db.rating.next, rfl⟩
  · exact ⟨rtp.pre.ratingId, rfl⟩

theorem rtDoubleRatingCharge_rating : (rtDoubleRatingCharge env db rtp).2.rating = db.rating := by
  simp only [rtDoubleRatingCharge]
  split
  · rfl
  split
  · split
    · exact (freeBillsecExec_rating _ _).trans (rtBalanceExec_rating _ _)
    · exact rtBalanceExec_rating _ _
  · rfl

theorem rtExecSettle_rating (leg : Leg) : (rtExecSettle env db rtp leg).2.rating = db.rating := by
  have marked (ratingId : ℤ) :
      (cdrUpdateCdr env db ratingId rtp.pre.cdrId leg).rating = db.rating :=
    cdrUpdateCdr_rating _ _ _
  simp only [rtExecSettle]
  split
  · exact marked _
  split
  · exact marked _
  split
  · split
    · exact (freeBillsecExec_rating _ _).trans ((rtBalanceExec_rating _ _).trans (marked _))
    · exact (rtBalanceExec_rating _ _).trans (marked _)
  · exact marked _

/-- Rows of one call are rows of every record of that call. -/
theorem AddsRow.of_sameCall {rtp' : Racc} {after : Db} (same : rtp.SameCall rtp')
    (adds : AddsRow rtp' db after) : AddsRow rtp db after := by
  rw [AddsRow, same.pre.cdrId, same.bacc, same.pre.rateId] at adds
  exact adds

theorem rtDoubleRatingPaid_addsRow : AddsRow rtp db (rtDoubleRatingPaid env db rtp).2.2 := by
  simp only [rtDoubleRatingPaid]
  split
  · exact Or.inl rfl
  · exact .of_sameCall (calcCpriceGroup_sameCall rtp) rtRatingSave_addsRow

theorem rtDoubleRatingPaid_of_row (answers : env.lost .ratingDup = false)
    {before : SerialTable RatingRow} {row : RatingRow} (entered : db.rating = before.insert row)
    (same : row.isOf rtp.pre.cdrId rtp.bacc.id rtp.pre.rateId = true) :
    (rtDoubleRatingPaid env db rtp).2.2 = db := by
  obtain ⟨bacc_eq, -, pre_eq⟩ := calcCpriceGroup_sameCall rtp
  simp only [rtDoubleRatingPaid]
  split
  · rfl
  · refine rtRatingSave_of_row answers entered ?_
    rw [pre_eq.cdrId, pre_eq.rateId, bacc_eq]
    exact same

theorem withBillsec_sameCall (billsec : ℤ) : rtp.SameCall (rtp.withBillsec billsec) :=
  ⟨rfl, rfl, rfl, rfl, rfl⟩

/-- The saved free part, its charge and the second part together add at most one row. -/
theorem save_charge_paid_addsRow (answers : env.lost .ratingDup = false) (rest : ℤ) :
    let saved := rtRatingSave env db rtp
    let charged := rtDoubleRatingCharge env saved.2 (saved.1.withBillsec rest)
    AddsRow rtp db (rtDoubleRatingPaid env charged.2 charged.1).2.2 := by
  intro saved charged
  obtain ⟨ratingId, record⟩ : ∃ ratingId, saved.1 = rtp.withRatingId ratingId := rtRatingSave_record
  have same : (saved.1.withBillsec rest).SameCall charged.1 := rtDoubleRatingCharge_sameCall
  have rating_eq : charged.2.rating = saved.2.rating := rtDoubleRatingCharge_rating
  rw [record] at same
  have cdrId : charged.1.pre.cdrId = rtp.pre.cdrId := same.pre.cdrId
  have rateId : charged.1.pre.rateId = rtp.pre.rateId := same.pre.rateId
  have bacc : charged.1.bacc = rtp.bacc := same.bacc
  have first : AddsRow rtp db saved.2 := rtRatingSave_addsRow
  rcases first with unchanged | ⟨row, of_call, inserted⟩
  · have second : AddsRow charged.1 charged.2 (rtDoubleRatingPaid env charged.2 charged.1).2.2 :=
      rtDoubleRatingPaid_addsRow
    rw [AddsRow, cdrId, rateId, bacc, rating_eq, unchanged] at second
    exact second
  · have blocked := rtDoubleRatingPaid_of_row answers (rating_eq.trans inserted)
      (by rw [cdrId, rateId, bacc]; exact of_call)
    rw [blocked]
    exact Or.inr ⟨row, of_call, rating_eq.trans inserted⟩

/-- Both parts of a split together add at most one row. -/
theorem rtDoubleRating_addsRow (answers : env.lost .ratingDup = false) :
    AddsRow rtp db (rtDoubleRating env db rtp).2.2 := by
  have priced : rtp.SameCall (calcCpriceGroup (rtp.withBillsec rtp.freeSec)).2 :=
    (withBillsec_sameCall rtp.freeSec).trans (calcCpriceGroup_sameCall _)
  simp only [rtDoubleRating]
  split
  swap
  · exact rtDoubleRatingPaid_addsRow
  revert priced
  rcases calcCpriceGroup (rtp.withBillsec rtp.freeSec) with ⟨ret, free⟩
  intro priced
  simp only
  split
  · exact .of_sameCall priced (save_charge_paid_addsRow answers _)
  split
  · exact .of_sameCall (priced.trans (withBillsec_sameCall _)) rtDoubleRatingPaid_addsRow
  · exact Or.inl rfl

theorem rtExecPrice_addsRow (answers : env.lost .ratingDup = false) :
    AddsRow rtp db (rtExecPrice env db rtp).2 := by
  have priced := calcCpriceGroup_sameCall rtp
  simp only [rtExecPrice]
  split
  · exact Or.inl rfl
  split
  · exact .of_sameCall priced rtRatingSave_addsRow
  split
  · have doubled : AddsRow (calcCpriceGroup rtp).2 db
        (rtDoubleRating env db (calcCpriceGroup rtp).2).2.2 := rtDoubleRating_addsRow answers
    simp only [afterDoubleRating]
    split <;> exact .of_sameCall priced doubled
  · exact Or.inl rfl

/-- Rating a leg of a CDR adds at most one row. -/
theorem rtExec_rating (answers : env.lost .ratingDup = false) (leg : Leg) :
    (rtExec env db rtp leg).2.rating = db.rating ∨
      ∃ row, (rtExec env db rtp leg).2.rating = db.rating.insert row := by
  obtain ⟨-, -, books_eq⟩ := rtExecLoad_kept env db rtp
  have loaded : (rtExecLoad env db rtp).2.rating = db.rating := congrArg Books.rating books_eq
  have priced : AddsRow (rtExecLoad env db rtp).1 (rtExecLoad env db rtp).2 _ :=
    rtExecPrice_addsRow answers
  simp only [rtExec, rtExecSettle_rating]
  rw [AddsRow, loaded] at priced
  rcases priced with unchanged | ⟨row, -, inserted⟩
  · exact Or.inl unchanged
  · exact Or.inr ⟨row, inserted⟩

end Rows

/-! ## The split -/

/-- A call that crosses the end of its allowance: an unrated CDR of an account with a card, and a
tariff on which the billed seconds exceed the seconds that are left. -/
structure BoundaryCall where
  env : Env
  /-- The duplicate check gets its answer; other statements may fail. -/
  answers : env.lost .ratingDup = false
  db : Db
  period : Period
  record : PeriodRecord period
  leg : Leg
  unrated : db.books.Admits (rtExecLoad env db record.rtp).1
  tariff : List CalcFunction
  tariff_eq : (rtExecLoad env db record.rtp).1.bplan.calcFuncs = some tariff
  allowance : (rtExecLoad env db record.rtp).1.HasAllowance
  crosses : (rtExecLoad env db record.rtp).1.freeSec <
    (calcCprice2Totals tariff (rtExecLoad env db record.rtp).1.pre.billsec).billsec

namespace BoundaryCall

variable (call : BoundaryCall)

/-- The call as it is priced. -/
def loaded : Racc := (rtExecLoad call.env call.db call.record.rtp).1

/-- The database after the call is rated. -/
def after : Db := (rtExec call.env call.db call.record.rtp call.leg).2

/-- The rating rows that the call wrote, with their ids. -/
def rows : List (ℕ × RatingRow) := call.after.rating.rows.drop call.db.rating.rows.length

/-- The mark of the leg that was rated. -/
def mark (row : CdrRow) : ℤ :=
  match call.leg with
  | .a => row.legA
  | .b => row.legB

/-- The split: one free row for the seconds that were left, one paid row for the rest, the leg
marked with the id of a row, and the balance charged with the paid row. -/
def Splits : Prop :=
  ∃ free paid : ℕ × RatingRow,
    call.rows.Perm [free, paid] ∧
      free.2.callPrice ≤ 0 ∧ free.2.callBillsec = call.loaded.freeSec ∧
        0 ≤ paid.2.callPrice ∧
          call.loaded.pre.billsec ≤ free.2.callBillsec + paid.2.callBillsec ∧
            (∀ row ∈ call.after.cdrs, row.id = call.record.rtp.pre.cdrId →
              ∃ rated ∈ call.after.rating.rows, call.mark row = rated.1) ∧
              call.after.books.amount call.period =
                call.db.books.amount call.period + paid.2.callPrice

/-- A call across the end of its allowance is never split. -/
theorem not_splits : ¬ call.Splits := by
  rintro ⟨free, paid, rows_perm, -⟩
  have two : call.rows.length = 2 := rows_perm.length_eq
  rcases rtExec_rating call.answers call.leg with unchanged | ⟨row, inserted⟩
  · have none_new : call.rows = [] := by
      rw [rows, after, unchanged, List.drop_length]
    rw [none_new] at two
    cases two
  · have one_new : call.rows = [(call.db.rating.next, row)] := by
      rw [rows, after, inserted]
      exact List.drop_left
    rw [one_new] at two
    cases two

end BoundaryCall

/-- A call of 100 seconds with 60 free seconds left. -/
def minuteBoundary : BoundaryCall where
  env := freeSecondsEnv 60
  answers := rfl
  db := { cdrs := [⟨1, 0, 0⟩] }
  period := cardPeriod
  record := cardRecord 1 100
  leg := .a
  unrated := by decide +kernel
  tariff := [⟨1, 1, 1, 0⟩]
  tariff_eq := by decide +kernel
  allowance := by decide +kernel
  crosses := by decide +kernel

theorem minuteBoundary_not_splits : ¬ minuteBoundary.Splits := minuteBoundary.not_splits

/-- Only the free minute gets a row; its price is taken off the balance and the leg
is marked `-1`. -/
theorem boundaryCalls_not_split : ¬ ∀ call : BoundaryCall, call.Splits := by
  intro claim
  obtain ⟨free, paid, rows_perm, -⟩ := claim minuteBoundary
  have written : minuteBoundary.rows.map (fun row => (row.1, row.2.callPrice, row.2.callBillsec)) =
      [(1, -60, 60)] := by
    decide +kernel
  have lengths := congrArg List.length written
  rw [List.length_map, rows_perm.length_eq] at lengths
  cases lengths

end RateEngine
