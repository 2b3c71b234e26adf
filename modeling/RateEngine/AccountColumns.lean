import RateEngine.RaccCache

/-!
# The columns of the account statements

`rt_data_q_racc_sql` has three statements and one decoder that reads their columns by index.  The
statement of the trunk group modes selects the two nature-of-address indicators as third and fourth
column and no day of payment, so the plan period, the billing day, the round mode and the day of
payment come from other columns there.
-/

namespace RateEngine

/-- The record holds the plan's own period and the account's own settings. -/
structure HoldsOwn (tables : AccountTables) (rtp : Racc) : Prop where
  plan : ∃ bp ∈ tables.billPlan.rows, bp.1 = rtp.bplan.id ∧
    rtp.bplan.bplanStartPeriod = bp.2.startPeriod ∧ rtp.bplan.bplanEndPeriod = bp.2.endPeriod
  account : ∃ bacc ∈ tables.billingAccount.rows, bacc.1 = rtp.bacc.id ∧
    rtp.bacc.billingDay = bacc.2.billingDay ∧ rtp.bacc.roundModeId = bacc.2.roundModeId ∧
      rtp.bacc.dayOfPayment = bacc.2.dayOfPayment

/-- The decoding claim at one mode and call, whatever the order in which the statement returns its
rows: the lookup loads the plan's and the account's own values, which are those that a
calling-number lookup of the same account and plan loads. -/
def AccountDecoded (tables : AccountTables) (mode : RtMode) (pre : Rating) : Prop :=
  ∀ (env : Env) (rtp : Racc) (rows : List RaccRow), rtp.rtm = mode → rtp.pre = pre →
    env.racc mode pre = some rows → rows.Perm ((tables.statement mode pre).getD []) → rows ≠ [] →
      let loaded := (rtDataQRaccSql env rtp).2
      HoldsOwn tables loaded ∧
        ∀ number, ∀ row ∈ (tables.statement .clg number).getD [],
          row.baccId = loaded.bacc.id → row.bplanId = loaded.bplan.id →
            (rtp.load (raccColumns (RtMode.clg.nadi number) row)).account = loaded.account

/-- The shifted columns of a row happen to hold its own values: the indicators are the plan period,
the plan starts on the billing day, it ends on the round mode, and payment is due on the billing
day. -/
def RaccRow.ShiftsOnto (row : RaccRow) : Prop :=
  asUnsigned 32 row.clgNadi = row.startPeriod ∧ asUnsigned 32 row.cldNadi = row.endPeriod ∧
    asUnsigned 16 row.startPeriod = row.billingDay ∧ row.endPeriod = row.roundModeId ∧
      asUnsigned 16 row.billingDay = row.dayOfPayment

/-- The values of a row survive the decoder: its two days are `short`s, and the statement is not
that of the trunk groups or the columns shift onto their own values. -/
def RaccRow.DecodesRight (row : RaccRow) (nadi : ℤ × ℤ) : Prop :=
  if nadi = (-1, -1) ∨ nadi = (-2, -2) then row.billingDay < 2 ^ 16 ∧ row.dayOfPayment < 2 ^ 16
  else row.ShiftsOnto

/-! ## The rows of a statement -/

section Rows

variable {tables : AccountTables}

/-- A joined row carries the values of its plan and of its account. -/
theorem own_of_mem_join {table : AcctTable} {key : String} {server : ℕ} {plan : DeffRow → ℕ}
    {meets : DeffRow → Bool} {row : RaccRow}
    (member : row ∈ tables.join table key server plan meets) :
    (∃ bp ∈ tables.billPlan.rows, bp.1 = row.bplanId ∧ bp.2.startPeriod = row.startPeriod ∧
        bp.2.endPeriod = row.endPeriod) ∧
      ∃ bacc ∈ tables.billingAccount.rows, bacc.1 = row.baccId ∧
        bacc.2.billingDay = row.billingDay ∧ bacc.2.roundModeId = row.roundModeId ∧
          bacc.2.dayOfPayment = row.dayOfPayment := by
  simp only [AccountTables.join, List.mem_flatMap, List.mem_map, List.mem_filter,
    Bool.and_eq_true, decide_eq_true_eq] at member
  obtain ⟨clg, -, df, -, bp, ⟨bp_mem, -⟩, bacc, ⟨bacc_mem, bacc_id, -⟩, rfl⟩ := member
  exact ⟨⟨bp, bp_mem, rfl, rfl, rfl⟩, bacc, bacc_mem, bacc_id, rfl, rfl, rfl⟩

theorem own_of_mem_statement {mode : RtMode} {pre : Rating} {row : RaccRow}
    (member : row ∈ (tables.statement mode pre).getD []) :
    (∃ bp ∈ tables.billPlan.rows, bp.1 = row.bplanId ∧ bp.2.startPeriod = row.startPeriod ∧
        bp.2.endPeriod = row.endPeriod) ∧
      ∃ bacc ∈ tables.billingAccount.rows, bacc.1 = row.baccId ∧
        bacc.2.billingDay = row.billingDay ∧ bacc.2.roundModeId = row.roundModeId ∧
          bacc.2.dayOfPayment = row.dayOfPayment := by
  rcases statement_eq_join tables pre mode with empty | ⟨plan, meets, rows_eq⟩
  · rw [empty] at member
    exact absurd member List.not_mem_nil
  · rw [rows_eq] at member
    exact own_of_mem_join member

/-- A record holds its own values exactly when they are those of a row with its plan and account. -/
theorem holdsOwn_iff {mode : RtMode} {pre : Rating} {row : RaccRow}
    (member : row ∈ (tables.statement mode pre).getD []) {rtp : Racc}
    (same_account : rtp.bacc.id = row.baccId) (same_plan : rtp.bplan.id = row.bplanId) :
    HoldsOwn tables rtp ↔
      (rtp.bplan.bplanStartPeriod = row.startPeriod ∧ rtp.bplan.bplanEndPeriod = row.endPeriod) ∧
        rtp.bacc.billingDay = row.billingDay ∧ rtp.bacc.roundModeId = row.roundModeId ∧
          rtp.bacc.dayOfPayment = row.dayOfPayment := by
  obtain ⟨⟨bp, bp_mem, bp_id, start_eq, end_eq⟩, bacc, bacc_mem, bacc_id, day_eq,
      round_eq, pay_eq⟩ :=
    own_of_mem_statement member
  constructor
  · rintro ⟨⟨bp', bp_mem', bp_id', period⟩, bacc', bacc_mem', bacc_id', settings⟩
    obtain rfl : bp' = bp := List.inj_on_of_nodup_map tables.billPlan.keys_nodup bp_mem' bp_mem
      (by rw [bp_id', same_plan, bp_id])
    obtain rfl : bacc' = bacc := List.inj_on_of_nodup_map tables.billingAccount.keys_nodup
      bacc_mem' bacc_mem (by rw [bacc_id', same_account, bacc_id])
    rw [← start_eq, ← end_eq, ← day_eq, ← round_eq, ← pay_eq]
    exact ⟨period, settings⟩
  · rintro ⟨period, settings⟩
    rw [← start_eq, ← end_eq] at period
    rw [← day_eq, ← round_eq, ← pay_eq] at settings
    exact ⟨⟨bp, bp_mem, bp_id.trans same_plan.symm, period⟩, bacc, bacc_mem,
      bacc_id.trans same_account.symm, settings⟩

/-! ## Decoding one row -/

theorem asUnsigned_eq_iff {bits n : ℕ} : asUnsigned bits n = n ↔ n < 2 ^ bits := by
  have cast : ((n : ℤ) % 2 ^ bits).toNat = n % 2 ^ bits := by
    rw [← Nat.cast_ofNat, ← Nat.cast_pow, ← Int.natCast_mod, Int.toNat_natCast]
  rw [asUnsigned, cast, Nat.mod_eq_iff_lt (by positivity)]

/-- Loading a row stores its own values exactly when they survive the decoder. -/
theorem holdsOwn_load_iff {mode : RtMode} {pre : Rating} {row : RaccRow}
    (member : row ∈ (tables.statement mode pre).getD []) (rtp : Racc) (nadi : ℤ × ℤ) :
    HoldsOwn tables (rtp.load (raccColumns nadi row)) ↔ row.DecodesRight nadi := by
  have same_account : (rtp.load (raccColumns nadi row)).bacc.id = row.baccId := by
    simp only [raccColumns]
    split <;> rfl
  have same_plan : (rtp.load (raccColumns nadi row)).bplan.id = row.bplanId := by
    simp only [raccColumns]
    split <;> rfl
  rw [holdsOwn_iff member same_account same_plan, RaccRow.DecodesRight, raccColumns]
  split
  · simp [Racc.load, asUnsigned_eq_iff]
  · simp [Racc.load, RaccRow.ShiftsOnto, and_assoc]

/-- A record that holds its own values is what a calling-number lookup of the same account and plan
loads. -/
theorem load_account_eq_of_holdsOwn {number : Rating} {row : RaccRow}
    (member : row ∈ (tables.statement .clg number).getD []) {rtp : Racc} {columns : List ℕ}
    (holds : HoldsOwn tables (rtp.load columns))
    (same_account : row.baccId = (rtp.load columns).bacc.id)
    (same_plan : row.bplanId = (rtp.load columns).bplan.id) :
    (rtp.load (raccColumns (RtMode.clg.nadi number) row)).account =
      (rtp.load columns).account := by
  obtain ⟨⟨start_eq, end_eq⟩, day_eq, round_eq, pay_eq⟩ :=
    (holdsOwn_iff member same_account.symm same_plan.symm).mp holds
  have day_short : asUnsigned 16 ((rtp.load columns).bacc.billingDay : ℕ) =
      (rtp.load columns).bacc.billingDay :=
    asUnsigned_idem 16 (columns[4]?.getD 0 : ℕ)
  have pay_short : asUnsigned 16 ((rtp.load columns).bacc.dayOfPayment : ℕ) =
      (rtp.load columns).bacc.dayOfPayment :=
    asUnsigned_idem 16 (columns[6]?.getD 0 : ℕ)
  have first_statement : raccColumns (RtMode.clg.nadi number) row =
      [row.baccId, row.bplanId, row.startPeriod, row.endPeriod, row.billingDay, row.roundModeId,
        row.dayOfPayment] := by simp [raccColumns, RtMode.nadi]
  rw [first_statement, same_account, same_plan, ← start_eq, ← end_eq, ← day_eq,
    ← round_eq, ← pay_eq]
  generalize rtp.load columns = loaded at day_short pay_short ⊢
  simp [Racc.load, Racc.account, day_short, pay_short]

end Rows

/-! ## When account data is decoded right -/

theorem rtDataQRaccSql_last {env : Env} {rtp : Racc} {rows : List RaccRow}
    (served : env.racc rtp.rtm rtp.pre = some rows) (row : RaccRow)
    (last : rows.getLast? = some row) :
    (rtDataQRaccSql env rtp).2 = rtp.load (raccColumns (rtp.rtm.nadi rtp.pre) row) := by
  simp only [rtDataQRaccSql, served, foldl_load_eq, last]

/-- A lookup loads the account's and the plan's own values exactly when those of every matching row
survive the decoder. -/
theorem accountDecoded_iff_decodesRight (tables : AccountTables) (mode : RtMode) (pre : Rating) :
    AccountDecoded tables mode pre ↔
      ∀ row ∈ (tables.statement mode pre).getD [], row.DecodesRight (mode.nadi pre) := by
  constructor
  · intro decoded row member
    -- the statement may return the row last
    obtain ⟨before, after, split⟩ := List.append_of_mem member
    have reordered : (before ++ after ++ [row]).Perm ((tables.statement mode pre).getD []) := by
      rw [split]
      exact (List.perm_append_singleton row _).trans List.perm_middle.symm
    let env : Env := { bareEnv with racc := fun _ _ => some (before ++ after ++ [row]) }
    let rtp : Racc := { rtm := mode, pre }
    have served : env.racc rtp.rtm rtp.pre = some (before ++ after ++ [row]) := rfl
    have own := (decoded env rtp _ rfl rfl served reordered (by simp)).1
    rw [rtDataQRaccSql_last served row (by simp)] at own
    exact (holdsOwn_load_iff member rtp (mode.nadi pre)).mp own
  · rintro right env rtp rows rfl rfl served reordered nonempty
    have last : rows.getLast? = some (rows.getLast nonempty) :=
      List.getLast?_eq_some_getLast nonempty
    have member : rows.getLast nonempty ∈ (tables.statement rtp.rtm rtp.pre).getD [] :=
      reordered.mem_iff.mp (List.getLast_mem nonempty)
    have own := (holdsOwn_load_iff member rtp (rtp.rtm.nadi rtp.pre)).mpr (right _ member)
    simp only [rtDataQRaccSql_last served _ last]
    exact ⟨own, fun number row row_mem same_account same_plan =>
      load_account_eq_of_holdsOwn row_mem own same_account same_plan⟩

/-- One trunk group with indicators `3` and `4`, on a plan in force from January 2024; the account
is billed on day 5, rounds by mode 2 and pays within 14 days. -/
def oneTrunk : AccountTables where
  keys table := if table = .srcTgroup then SerialTable.empty.insert ⟨"tg1", 1⟩ else .empty
  keys_unique table := by cases table <;> decide
  deff table := if table = .srcTgroup then
    [{ keyId := 1, bplanId := 1, clgNadi := 3, cldNadi := 4 }] else []
  billPlan := SerialTable.empty.insert { startPeriod := 1704067200 }
  billingAccount := SerialTable.empty.insert
    { cdrServerId := 1, billingDay := 5, roundModeId := 2, dayOfPayment := 14 }

/-- A call on the trunk group. -/
def trunkCall : Rating := { cdrServerId := 1, srcTgroup := "tg1", clgNadi := 3, cldNadi := 4 }

/-- The plan of a call on the trunk group seems to start at `3` and to end at `4`. -/
theorem oneTrunk_shifted : ¬ AccountDecoded oneTrunk .srctg trunkCall := by
  intro decoded
  let row : RaccRow :=
    { baccId := 1, bplanId := 1, clgNadi := 3, cldNadi := 4, startPeriod := 1704067200,
      endPeriod := 0, billingDay := 5, roundModeId := 2, dayOfPayment := 14 }
  let env : Env := { bareEnv with racc := fun _ _ => some [row] }
  have statement : (oneTrunk.statement .srctg trunkCall).getD [] = [row] := by decide
  have own := (decoded env { rtm := .srctg, pre := trunkCall } [row] rfl rfl rfl
    (by rw [statement]) (by simp)).1
  have member : row ∈ (oneTrunk.statement .srctg trunkCall).getD [] := by simp [statement]
  have shifts := (holdsOwn_load_iff member { rtm := .srctg, pre := trunkCall } (3, 4)).mp own
  simp [RaccRow.DecodesRight, RaccRow.ShiftsOnto, asUnsigned, row] at shifts

end RateEngine
