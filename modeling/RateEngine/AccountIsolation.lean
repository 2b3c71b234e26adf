import RateEngine.Lib.GuardedRun
import RateEngine.RatingRefinement

/-!
# Isolation of accounts

Rating one account should not depend on the calls of another.  The rating rows and the balances are
kept by account, but no balance id is ever stored in the record, so the free-seconds counters of all
accounts stand under balance id `0`: a call of one account opens the counter that the calls of
another are measured by.  This file gives the view that an account has of the books and proves that
a run keeps it as long as the others open no counter of an allowance that the account uses.
-/

namespace RateEngine

/-! ## The view of an account -/

/-- Two states of the books that look the same to an account: its rating rows, its balances, and the
counters of some allowances, row by row without their ids. -/
structure SameView (account : ℕ) (allowances : ℕ → Prop) (books books' : Books) : Prop where
  rating : books'.rating.values (fun row => row.baccId = account) =
    books.rating.values fun row => row.baccId = account
  balance : books'.balance.values (fun row => row.baccId = account) =
    books.balance.values fun row => row.baccId = account
  counters : ∀ id, allowances id →
    books'.counters.values (FreeBillsecBalanceRow.isOf 0 id) =
      books.counters.values (FreeBillsecBalanceRow.isOf 0 id)

namespace SameView

variable {account : ℕ} {allowances : ℕ → Prop} {books books' books'' : Books}

theorem refl (books : Books) : SameView account allowances books books :=
  ⟨rfl, rfl, fun _ _ => rfl⟩

theorem symm (view : SameView account allowances books books') :
    SameView account allowances books' books :=
  ⟨view.rating.symm, view.balance.symm, fun id used => (view.counters id used).symm⟩

theorem trans (first : SameView account allowances books books')
    (second : SameView account allowances books' books'') :
    SameView account allowances books books'' :=
  ⟨second.rating.trans first.rating, second.balance.trans first.balance,
    fun id used => (second.counters id used).trans (first.counters id used)⟩

/-- Selections among the account's rating rows agree. -/
theorem rating_values (view : SameView account allowances books books') {meets : RatingRow → Bool}
    (own : ∀ row, meets row = true → row.baccId = account) :
    books'.rating.values meets = books.rating.values meets := by
  have narrower : ∀ row, meets row = true → decide (row.baccId = account) = true :=
    fun row met => decide_eq_true (own row met)
  rw [← SerialTable.values_filter _ narrower, ← SerialTable.values_filter _ narrower, view.rating]

/-- Selections among the account's balances agree. -/
theorem balance_values (view : SameView account allowances books books')
    {meets : BalanceRow → Bool} (own : ∀ row, meets row = true → row.baccId = account) :
    books'.balance.values meets = books.balance.values meets := by
  have narrower : ∀ row, meets row = true → decide (row.baccId = account) = true :=
    fun row met => decide_eq_true (own row met)
  rw [← SerialTable.values_filter _ narrower, ← SerialTable.values_filter _ narrower, view.balance]

end SameView

theorem RatingRow.baccId_of_isOf {callId baccId rateId : ℕ} {row : RatingRow}
    (met : row.isOf callId baccId rateId = true) : row.baccId = baccId := by
  simp only [RatingRow.isOf, Bool.and_eq_true, decide_eq_true_eq] at met
  exact met.1.2

theorem RatingRow.baccId_of_isFreeIn {env : Env} {baccId freeBillsecId : ℕ} {start stop : String}
    {row : RatingRow} (met : row.isFreeIn env baccId start stop freeBillsecId = true) :
    row.baccId = baccId := by
  simp only [RatingRow.isFreeIn, Bool.and_eq_true, decide_eq_true_eq] at met
  exact met.1.1.1.1

theorem BalanceRow.baccId_of_isActiveFor {baccId : ℕ} {start stop : String} {row : BalanceRow}
    (met : row.isActiveFor baccId start stop = true) : row.baccId = baccId := by
  simp only [BalanceRow.isActiveFor, Bool.and_eq_true, decide_eq_true_eq] at met
  exact met.1.1.1

/-! ## The books, row by row -/

/-- What a charge makes of the balances of its account. -/
def chargedValues (account : ℕ) (start stop : String) (amount : ℚ) (rows : List BalanceRow) :
    List BalanceRow :=
  match rows.filter (BalanceRow.isActiveFor account start stop) with
  | [row] =>
      rows.map fun picked =>
        if picked.isActiveFor account start stop then { picked with amount := row.amount + amount }
        else picked
  | _ => rows ++
    [{ baccId := account, startDate := start, endDate := stop, active := true, amount }]

/-- What counting makes of the counters of its allowance. -/
def countedValues (counter : FreeBillsecBalanceRow) (rows : List FreeBillsecBalanceRow) :
    List FreeBillsecBalanceRow :=
  match rows with
  | [row] => [row]
  | _ => rows ++ [counter]

/-- Writing the amount of the one active row, seen by an account. -/
theorem values_update_amount {balance : SerialTable BalanceRow} {id owner : ℕ} {row : BalanceRow}
    {start stop : String}
    (one : balance.select (BalanceRow.isActiveFor owner start stop) = [(id, row)]) (amount : ℚ)
    (account : ℕ) :
    (balance.update (fun key _ => key = id) fun picked => { picked with amount }).values
        (fun row => row.baccId = account) =
      (balance.values fun row => row.baccId = account).map fun picked =>
        if picked.isActiveFor owner start stop then { picked with amount } else picked :=
  SerialTable.values_update_of_select_eq (fun picked => { picked with amount }) one fun _ => rfl

section Values

variable (books : Books)

theorem charge_values (account : ℕ) (start stop : String) (amount : ℚ) :
    (books.charge account start stop amount).balance.values (fun row => row.baccId = account) =
      chargedValues account start stop amount
        (books.balance.values fun row => row.baccId = account) := by
  have narrower : ∀ row, BalanceRow.isActiveFor account start stop row = true →
      decide (row.baccId = account) = true :=
    fun row met => decide_eq_true (BalanceRow.baccId_of_isActiveFor met)
  have active_eq : books.balance.values (BalanceRow.isActiveFor account start stop) =
      (books.balance.select (BalanceRow.isActiveFor account start stop)).map Prod.snd := rfl
  rw [chargedValues, SerialTable.values_filter _ narrower, active_eq, Books.charge]
  rcases one : books.balance.select (BalanceRow.isActiveFor account start stop) with
    _ | ⟨⟨id, row⟩, _ | ⟨second, rest⟩⟩
  · simp [SerialTable.values_insert]
  · exact values_update_amount one _ _
  · simp [SerialTable.values_insert]

/-- A charge of another account leaves the balances of the account alone. -/
theorem charge_values_of_ne {account other : ℕ} (differ : other ≠ account) (start stop : String)
    (amount : ℚ) :
    (books.charge other start stop amount).balance.values (fun row => row.baccId = account) =
      books.balance.values fun row => row.baccId = account := by
  rw [Books.charge]
  rcases one : books.balance.select (BalanceRow.isActiveFor other start stop) with
    _ | ⟨⟨id, row⟩, _ | ⟨second, rest⟩⟩
  · simp [SerialTable.values_insert, differ]
  · refine (values_update_amount one _ _).trans ?_
    refine (List.map_congr_left fun picked member => ?_).trans (List.map_id' _)
    obtain ⟨found, found_member, rfl⟩ := List.mem_map.mp member
    have own : found.2.baccId = account := by simpa using (List.mem_filter.mp found_member).2
    have unpicked : ¬ found.2.isActiveFor other start stop = true := by
      intro met
      exact differ ((BalanceRow.baccId_of_isActiveFor met).symm.trans own)
    rw [if_neg unpicked]
  · simp [SerialTable.values_insert, differ]

theorem count_values (env : Env) (account : ℕ) (start stop : String) (freeBillsecId : ℕ) :
    (books.count env account start stop freeBillsecId).counters.values
        (FreeBillsecBalanceRow.isOf 0 freeBillsecId) =
      countedValues
        { balanceId := 0, freeBillsecId
          freeBillsec := books.used env account start stop freeBillsecId }
        (books.counters.values (FreeBillsecBalanceRow.isOf 0 freeBillsecId)) := by
  rw [Books.count, SerialTable.values, SerialTable.values]
  rcases one : books.counters.select (FreeBillsecBalanceRow.isOf 0 freeBillsecId) with
    _ | ⟨⟨id, row⟩, _ | ⟨second, rest⟩⟩
  · simp [SerialTable.select_insert, one, FreeBillsecBalanceRow.isOf, countedValues]
  · simp [one, countedValues]
  · simp [SerialTable.select_insert, one, FreeBillsecBalanceRow.isOf, countedValues]

/-- Counting leaves the counters of other allowances alone. -/
theorem count_values_of_ne (env : Env) (account : ℕ) (start stop : String) {freeBillsecId id : ℕ}
    (differ : freeBillsecId ≠ id) :
    (books.count env account start stop freeBillsecId).counters.values
        (FreeBillsecBalanceRow.isOf 0 id) =
      books.counters.values (FreeBillsecBalanceRow.isOf 0 id) := by
  rw [Books.count]
  split
  · rfl
  · simp [SerialTable.values_insert, FreeBillsecBalanceRow.isOf, differ]

theorem used_eq (env : Env) (account : ℕ) (start stop : String) (freeBillsecId : ℕ) :
    books.used env account start stop freeBillsecId =
      ((books.rating.values
        (RatingRow.isFreeIn env account start stop freeBillsecId)).map
          RatingRow.callBillsec).sum := by
  simp [Books.used, SerialTable.values, Function.comp_def]

/-- An entry of another account leaves the rows of the account alone. -/
theorem enter_values_of_ne {account : ℕ} {rtp : Racc} (differ : rtp.bacc.id ≠ account) :
    (books.enter rtp).rating.values (fun row => row.baccId = account) =
      books.rating.values fun row => row.baccId = account := by
  rw [Books.enter]
  split
  · simp [SerialTable.values_insert, Racc.ratingRow, differ]
  · rfl

theorem admits_iff_values (rtp : Racc) :
    books.Admits rtp ↔
      0 < rtp.pre.cdrId ∧
        books.rating.values (RatingRow.isOf rtp.pre.cdrId rtp.bacc.id rtp.pre.rateId) = [] := by
  rw [Books.Admits, SerialTable.values, List.map_eq_nil_iff]

end Values

/-! ## The frames of the operations -/

section Frames

variable (books : Books)

theorem charge_frame (baccId : ℕ) (start stop : String) (amount : ℚ) :
    (books.charge baccId start stop amount).rating = books.rating ∧
      (books.charge baccId start stop amount).counters = books.counters := by
  rw [Books.charge]
  split <;> exact ⟨rfl, rfl⟩

theorem count_frame (env : Env) (baccId : ℕ) (start stop : String) (freeBillsecId : ℕ) :
    (books.count env baccId start stop freeBillsecId).rating = books.rating ∧
      (books.count env baccId start stop freeBillsecId).balance = books.balance := by
  rw [Books.count]
  split <;> exact ⟨rfl, rfl⟩

theorem count_eq_self {books : Books} {freeBillsecId : ℕ}
    (one : (books.counters.select (FreeBillsecBalanceRow.isOf 0 freeBillsecId)).length = 1)
    (env : Env) (baccId : ℕ) (start stop : String) :
    books.count env baccId start stop freeBillsecId = books := by
  obtain ⟨row, row_eq⟩ := List.length_eq_one_iff.mp one
  rw [Books.count, row_eq]

theorem enter_frame (rtp : Racc) :
    (books.enter rtp).balance = books.balance ∧ (books.enter rtp).counters = books.counters := by
  rw [Books.enter]
  split <;> exact ⟨rfl, rfl⟩

end Frames

/-! ## Calls of the account -/

section Own

variable {account : ℕ} {allowances : ℕ → Prop} {books books' : Books}

theorem SameView.admits (view : SameView account allowances books books') {rtp : Racc}
    (own : rtp.bacc.id = account) : books'.Admits rtp ↔ books.Admits rtp := by
  rw [admits_iff_values, admits_iff_values, view.rating_values]
  intro row met
  rw [RatingRow.baccId_of_isOf met, own]

theorem SameView.enter (view : SameView account allowances books books') {rtp : Racc}
    (own : rtp.bacc.id = account) :
    SameView account allowances (books.enter rtp) (books'.enter rtp) := by
  rw [Books.enter, Books.enter]
  by_cases admits : books.Admits rtp
  · rw [if_pos admits, if_pos ((view.admits own).mpr admits)]
    refine ⟨?_, view.balance, view.counters⟩
    rw [SerialTable.values_insert, SerialTable.values_insert, view.rating]
  · rw [if_neg admits, if_neg ((view.admits own).not.mpr admits)]
    exact view

theorem SameView.charge (view : SameView account allowances books books') (start stop : String)
    (amount : ℚ) :
    SameView account allowances (books.charge account start stop amount)
      (books'.charge account start stop amount) := by
  obtain ⟨rating_eq, counters_eq⟩ := charge_frame books account start stop amount
  obtain ⟨rating_eq', counters_eq'⟩ := charge_frame books' account start stop amount
  refine ⟨?_, ?_, ?_⟩
  · rw [rating_eq, rating_eq', view.rating]
  · rw [charge_values, charge_values, view.balance]
  · rw [counters_eq, counters_eq']
    exact view.counters

theorem SameView.count (view : SameView account allowances books books') (env : Env)
    (start stop : String) {freeBillsecId : ℕ} (used : allowances freeBillsecId) :
    SameView account allowances (books.count env account start stop freeBillsecId)
      (books'.count env account start stop freeBillsecId) := by
  obtain ⟨rating_eq, balance_eq⟩ := count_frame books env account start stop freeBillsecId
  obtain ⟨rating_eq', balance_eq'⟩ := count_frame books' env account start stop freeBillsecId
  refine ⟨?_, ?_, fun id id_used => ?_⟩
  · rw [rating_eq, rating_eq', view.rating]
  · rw [balance_eq, balance_eq', view.balance]
  · by_cases same : freeBillsecId = id
    · subst same
      have seconds : books'.used env account start stop freeBillsecId =
          books.used env account start stop freeBillsecId := by
        rw [used_eq, used_eq, view.rating_values fun row met => RatingRow.baccId_of_isFreeIn met]
      rw [count_values, count_values, seconds, view.counters _ used]
    · rw [count_values_of_ne _ _ _ _ _ same, count_values_of_ne _ _ _ _ _ same,
        view.counters id id_used]

theorem SameView.settle (view : SameView account allowances books books') (env : Env) {rtp : Racc}
    (own : rtp.bacc.id = account) (used : allowances rtp.pre.freeBillsecId) (counts : Bool)
    (card : Option Pcard) :
    SameView account allowances (books.settle env rtp counts card)
      (books'.settle env rtp counts card) := by
  cases card with
  | none => exact view
  | some card =>
    have charged := view.charge card.start card.stop rtp.pre.cprice
    simp only [Books.settle, own]
    split
    · exact charged.count env card.start card.stop used
    · exact charged

/-- A call of the account does the same to two states that look the same to it. -/
theorem SameView.post (view : SameView account allowances books books') (env : Env) {rtp : Racc}
    (own : rtp.bacc.id = account) (used : allowances rtp.pre.freeBillsecId) :
    SameView account allowances (books.post env rtp) (books'.post env rtp) := by
  have settled (cprice : ℚ) (billsec : ℤ) (counts : Bool) (card : Option Pcard) :
      SameView account allowances
        ((books.enter (rtp.withPrice cprice billsec)).settle env (rtp.withPrice cprice billsec)
          counts card)
        ((books'.enter (rtp.withPrice cprice billsec)).settle env (rtp.withPrice cprice billsec)
          counts card) := by
    have own' : (rtp.withPrice cprice billsec).bacc.id = account := own
    have used' : allowances (rtp.withPrice cprice billsec).pre.freeBillsecId := used
    exact (view.enter own').settle env own' used' counts card
  simp only [Books.post]
  split
  · exact view
  · simp only [Books.postRow, Books.admits_withPrice]
    by_cases admits : books.Admits rtp
    · rw [if_pos admits, if_pos ((view.admits own).mpr admits)]
      exact settled _ _ _ _
    · rw [if_neg admits, if_neg ((view.admits own).not.mpr admits)]
      exact view
  · exact settled _ _ _ _

end Own

/-! ## Calls of others -/

/-- The call reaches `free_billsec_exec`. -/
def Racc.Counts (rtp : Racc) (books : Books) : Prop :=
  rtp.pre.freeBillsecLimit ≠ 0 ∧
    match rtp.plan with
    | .unrated => False
    | .single _ _ =>
        books.Admits rtp ∧ rtp.pre.ratingModeId < RtMode.sms.id ∧ rtp.bacc.pcardPtr ≠ none
    | .split _ _ => rtp.datedCard ≠ none

/-- The call opens a counter of one of the allowances. -/
def Racc.Opens (rtp : Racc) (allowances : ℕ → Prop) (books : Books) : Prop :=
  rtp.Counts books ∧ allowances rtp.pre.freeBillsecId ∧
    (books.counters.select (FreeBillsecBalanceRow.isOf 0 rtp.pre.freeBillsecId)).length ≠ 1

section Other

variable {account : ℕ} {allowances : ℕ → Prop} {books : Books}

/-- Charging another account, and counting for it where no counter of the allowances is opened. -/
theorem sameView_settle (env : Env) {rtp : Racc} (other : rtp.bacc.id ≠ account) (counts : Bool)
    (card : Option Pcard)
    (harmless : counts = true → card ≠ none → allowances rtp.pre.freeBillsecId →
      (books.counters.select (FreeBillsecBalanceRow.isOf 0 rtp.pre.freeBillsecId)).length = 1) :
    SameView account allowances books (books.settle env rtp counts card) := by
  cases card with
  | none => exact .refl _
  | some card =>
    obtain ⟨rating_eq, counters_eq⟩ :=
      charge_frame books rtp.bacc.id card.start card.stop rtp.pre.cprice
    have charged : SameView account allowances books
        (books.charge rtp.bacc.id card.start card.stop rtp.pre.cprice) := by
      refine ⟨by rw [rating_eq], charge_values_of_ne books other _ _ _, ?_⟩
      rw [counters_eq]
      exact fun _ _ => rfl
    simp only [Books.settle]
    cases counts with
    | false => exact charged
    | true =>
      refine charged.trans ?_
      by_cases one : ((books.charge rtp.bacc.id card.start card.stop rtp.pre.cprice).counters.select
          (FreeBillsecBalanceRow.isOf 0 rtp.pre.freeBillsecId)).length = 1
      · simp only [if_true, count_eq_self one]
        exact .refl _
      · rw [counters_eq] at one
        obtain ⟨rating_eq', balance_eq'⟩ := count_frame
          (books.charge rtp.bacc.id card.start card.stop rtp.pre.cprice) env rtp.bacc.id card.start
          card.stop rtp.pre.freeBillsecId
        have foreign : ¬ allowances rtp.pre.freeBillsecId :=
          fun used => one (harmless rfl (Option.some_ne_none card) used)
        refine ⟨by simp only [if_true, rating_eq'], by simp only [if_true, balance_eq'], ?_⟩
        intro id used
        have differ : rtp.pre.freeBillsecId ≠ id := fun same => foreign (same ▸ used)
        simp only [if_true]
        exact count_values_of_ne _ _ _ _ _ differ

theorem sameView_enter {rtp : Racc} (other : rtp.bacc.id ≠ account) :
    SameView account allowances books (books.enter rtp) := by
  obtain ⟨balance_eq, counters_eq⟩ := enter_frame books rtp
  refine ⟨enter_values_of_ne books other, by rw [balance_eq], ?_⟩
  rw [counters_eq]
  exact fun _ _ => rfl

/-- A call of another account changes nothing that the account sees, unless it opens a counter. -/
theorem sameView_post (env : Env) {rtp : Racc} (other : rtp.bacc.id ≠ account)
    (closed : ¬ rtp.Opens allowances books) :
    SameView account allowances books (books.post env rtp) := by
  have settled (cprice : ℚ) (billsec : ℤ) (counts : Bool) (card : Option Pcard)
      (counted : counts = true → card ≠ none → rtp.Counts books) :
      SameView account allowances books
        ((books.enter (rtp.withPrice cprice billsec)).settle env (rtp.withPrice cprice billsec)
          counts card) := by
    have other' : (rtp.withPrice cprice billsec).bacc.id ≠ account := other
    obtain ⟨-, counters_eq⟩ := enter_frame books (rtp.withPrice cprice billsec)
    refine (sameView_enter other').trans (sameView_settle env other' counts card ?_)
    intro counts_eq card_ne used
    rw [counters_eq]
    by_contra several
    exact closed ⟨counted counts_eq card_ne, used, several⟩
  simp only [Books.post]
  split
  · exact .refl _
  · rename_i cprice billsec plan
    simp only [Books.postRow, Books.admits_withPrice]
    split
    · rename_i admits
      refine settled _ _ _ _ fun counts card_ne => ?_
      have both := of_decide_eq_true counts
      rw [Racc.Counts, plan]
      exact ⟨both.1, admits, both.2, card_ne⟩
    · exact .refl _
  · rename_i cprice billsec plan
    refine settled _ _ _ _ fun counts card_ne => ?_
    rw [Racc.Counts, plan]
    exact ⟨of_decide_eq_true counts, card_ne⟩

end Other

/-! ## Loading -/

/-- Two records that differ in the carried balance only. -/
structure Racc.SameBill (rtp rtp' : Racc) : Prop where
  rtm : rtp'.rtm = rtp.rtm
  bacc : rtp'.bacc = rtp.bacc
  bplan : rtp'.bplan = rtp.bplan
  pre : rtp'.pre = rtp.pre

theorem Racc.SameBill.refl (rtp : Racc) : rtp.SameBill rtp := ⟨rfl, rfl, rfl, rfl⟩

theorem Racc.SameBill.eq_with_bal {rtp rtp' : Racc} (same : rtp.SameBill rtp') :
    rtp' = { rtp with bal := rtp'.bal } := by
  obtain ⟨rtm, bacc, bplan, pre⟩ := same
  rw [← rtm, ← bacc, ← bplan, ← pre]

theorem Racc.SameBill.rounded {rtp rtp' : Racc} (same : rtp.SameBill rtp') :
    rtp.rounded.SameBill rtp'.rounded := by
  simp only [Racc.rounded, same.bacc, same.pre]
  split <;> split
  · exact ⟨same.rtm, same.bacc, same.bplan, by rw [Racc.withBillsec, Racc.withBillsec, same.pre]⟩
  · exact same
  · exact ⟨same.rtm, same.bacc, same.bplan, by rw [Racc.withBillsec, Racc.withBillsec, same.pre]⟩
  · exact same

/-- What a call does to the books does not depend on the balance that its record carries. -/
theorem post_of_sameBill {rtp rtp' : Racc} (same : rtp.SameBill rtp') (books : Books) (env : Env) :
    books.post env rtp' = books.post env rtp := by
  rw [same.eq_with_bal]
  rfl

section Loading

variable {env : Env} (reliable : env.Reliable) {account : ℕ} {allowances : ℕ → Prop} {db db' : Db}
  (view : SameView account allowances db.books db'.books)

theorem rtDataQBal_sameBill (rtp : Racc) (start stop : String) :
    (rtDataQBal env db rtp start stop).SameBill (rtDataQBal env db' rtp start stop) := by
  simp only [rtDataQBal]
  split <;> split <;> exact ⟨rfl, rfl, rfl, rfl⟩

include reliable view

theorem rtDataQBalCount_eq {rtp : Racc} (own : rtp.bacc.id = account) :
    rtDataQBalCount env db' rtp = rtDataQBalCount env db rtp := by
  have same : db'.balance.values (fun row => row.baccId = rtp.bacc.id && row.active) =
      db.balance.values fun row => row.baccId = rtp.bacc.id && row.active := by
    refine view.balance_values fun row met => ?_
    simp only [Bool.and_eq_true, decide_eq_true_eq] at met
    exact met.1.trans own
  have lengths := congrArg List.length same
  simpa only [rtDataQBalCount, reliable.select, SerialTable.values, List.length_map] using lengths

theorem freeBillsecBalanceV2_sameBill {rtp rtp' : Racc} (same : rtp.SameBill rtp')
    (own : rtp.bacc.id = account) (start stop : String) :
    (freeBillsecBalanceV2 env db rtp start stop).SameBill
      (freeBillsecBalanceV2 env db' rtp' start stop) := by
  have seconds : db'.books.used env rtp.bacc.id start stop rtp.pre.freeBillsecId =
      db.books.used env rtp.bacc.id start stop rtp.pre.freeBillsecId := by
    rw [used_eq, used_eq, view.rating_values]
    intro row met
    rw [RatingRow.baccId_of_isFreeIn met, own]
  simp only [freeBillsecBalanceV2, reliable.select, same.bacc, same.pre]
  simp only [Books.used, Db.books] at seconds
  rw [seconds]
  exact ⟨same.rtm, rfl, same.bplan, rfl⟩

theorem freeBillsecSmsBalance_sameBill {rtp rtp' : Racc} (same : rtp.SameBill rtp')
    (own : rtp.bacc.id = account) (start stop : String) :
    (freeBillsecSmsBalance env db rtp start stop).SameBill
      (freeBillsecSmsBalance env db' rtp' start stop) := by
  have rows : db'.rating.values
      (RatingRow.isFreeIn env rtp.bacc.id start stop rtp.pre.freeBillsecId) =
        db.rating.values
          (RatingRow.isFreeIn env rtp.bacc.id start stop rtp.pre.freeBillsecId) := by
    refine view.rating_values fun row met => ?_
    rw [RatingRow.baccId_of_isFreeIn met, own]
  have lengths := congrArg List.length rows
  simp only [SerialTable.values, List.length_map] at lengths
  simp only [freeBillsecSmsBalance, reliable.select, same.bacc, same.pre, lengths]
  exact ⟨same.rtm, rfl, same.bplan, rfl⟩

theorem fFreeBillsecBalQuery2_eq {pre : Rating} (balId : pre.balId = 0)
    (used : allowances pre.freeBillsecId) :
    fFreeBillsecBalQuery2 env db' pre = fFreeBillsecBalQuery2 env db pre := by
  have counters := view.counters _ used
  have sums := congrArg (fun rows => (rows.map FreeBillsecBalanceRow.freeBillsec).sum) counters
  simp only [SerialTable.values, List.map_map, Db.books] at sums
  simp only [fFreeBillsecBalQuery2, reliable.select, Db.counters, balId]
  congr 1

theorem rtPreratingLoad_sameBill {rtp : Racc} (own : rtp.bacc.id = account)
    (balId : rtp.pre.balId = 0) (used : allowances rtp.pre.freeBillsecId) (card : Pcard) :
    (rtPreratingLoad env db rtp card).SameBill (rtPreratingLoad env db' rtp card) := by
  have read : (rtDataQBal env db rtp card.start card.stop).SameBill
      (rtDataQBal env db' rtp card.start card.stop) :=
    rtDataQBal_sameBill rtp card.start card.stop
  obtain ⟨pre_eq, bacc_eq, -⟩ := rtDataQBal_frame env db rtp card.start card.stop
  have counted := freeBillsecBalanceV2_sameBill reliable view read
    ((congrArg Bacc.id bacc_eq).trans own) card.start card.stop
  simp only [rtPreratingLoad, read.pre]
  split
  · refine ⟨counted.rtm, counted.bacc, counted.bplan, ?_⟩
    simp only [counted.pre]
    refine fFreeBillsecBalQuery2_eq reliable view ?_ ?_
    · simp [freeBillsecBalanceV2, reliable.select, pre_eq, balId]
    · simpa [freeBillsecBalanceV2, reliable.select, pre_eq] using used
  · exact read

theorem rtPreratingProcess_sameBill {rtp : Racc} (own : rtp.bacc.id = account)
    (balId : rtp.pre.balId = 0) (used : allowances rtp.pre.freeBillsecId) (card : Pcard) :
    (rtPreratingProcess env db rtp card).2.1.SameBill
      (rtPreratingProcess env db' rtp card).2.1 := by
  simp only [rtPreratingProcess, rtDataQBalCount_eq reliable view own]
  split
  · exact .refl _
  split
  · split
    · exact .refl _
    · exact rtPreratingLoad_sameBill reliable view own balId used card
  · exact .refl _

theorem rtRateSearching_sameBill {rtp : Racc} (own : rtp.bacc.id = account)
    (balId : rtp.pre.balId = 0) (used : allowances (rtDataQRate env rtp).pre.freeBillsecId) :
    (rtRateSearching env db rtp).1.SameBill (rtRateSearching env db' rtp).1 := by
  obtain ⟨-, bacc_eq, -⟩ := rtDataQRate_frame env rtp
  have kept := rtDataQRate_kept env rtp
  simp only [rtRateSearching]
  split
  · exact rtPreratingProcess_sameBill reliable view ((congrArg Bacc.id bacc_eq).trans own)
      (kept.balId.trans balId) used _
  · exact .refl _

/-- The rate search of a call. -/
def Racc.searched (rtp : Racc) (env : Env) : Racc :=
  rtDataQRate env { rtp with bplan := rtChkBplanPeriods rtp.bplan rtp.pre.ts }

/-- What a call loads does not depend on more of the books than its account sees. -/
theorem rtExecLoad_sameBill {rtp : Racc} (own : rtp.bacc.id = account) (balId : rtp.pre.balId = 0)
    (used : allowances (rtp.searched env).pre.freeBillsecId) :
    (rtExecLoad env db rtp).1.SameBill (rtExecLoad env db' rtp).1 := by
  let planned := { rtp with bplan := rtChkBplanPeriods rtp.bplan rtp.pre.ts }
  have own' : planned.bacc.id = account := own
  have same := rtRateSearching_sameBill reliable view own' balId used
  have bacc_eq : (rtRateSearching env db planned).1.bacc = rtp.bacc :=
    rtRateSearching_bacc env db planned
  have view' : SameView account allowances (rtRateSearching env db planned).2.books
      (rtRateSearching env db' planned).2.books := by
    rw [rtRateSearching_books, rtRateSearching_books]
    exact view
  simp only [rtExecLoad]
  revert same bacc_eq view'
  generalize rtRateSearching env db planned = first
  generalize rtRateSearching env db' planned = second
  rcases first with ⟨loaded, base⟩
  rcases second with ⟨loaded', base'⟩
  intro same bacc_eq view'
  have bplan_eq : loaded'.bplan = loaded.bplan := same.bplan
  have rounded : loaded.rounded.SameBill loaded'.rounded := same.rounded
  have own'' : loaded.rounded.bacc.id = account := by
    rw [(rounded_kept loaded).2.1, bacc_eq, own]
  simp only [bplan_eq, rounded.rtm, rounded.bacc, rounded.pre]
  split
  · exact same
  split
  · split
    · exact freeBillsecSmsBalance_sameBill reliable view' rounded own'' _ _
    · exact rounded
  · exact rounded

end Loading

section Allowance

variable (env : Env) (db : Db) (rtp : Racc)

theorem rtRateSearching_freeBillsecId :
    (rtRateSearching env db rtp).1.pre.freeBillsecId =
      (rtDataQRate env rtp).pre.freeBillsecId := by
  simp only [rtRateSearching]
  split
  · rename_i card _ _
    rcases rtPreratingProcess_cases env db (rtDataQRate env rtp) card with ⟨db', refused⟩ | loaded
    · rw [refused]
    · rw [loaded]
      have read := (rtDataQBal_frame env db (rtDataQRate env rtp) card.start card.stop).1
      simp only [rtPreratingLoad, freeBillsecBalanceV2, fFreeBillsecBalQuery2]
      split
      · split <;> split <;> rw [read]
      · rw [read]
  · rfl

/-- The allowance of a call is the one that the rate search found. -/
theorem rtExecLoad_freeBillsecId :
    (rtExecLoad env db rtp).1.pre.freeBillsecId = (rtp.searched env).pre.freeBillsecId := by
  have searched := rtRateSearching_freeBillsecId env db
    { rtp with bplan := rtChkBplanPeriods rtp.bplan rtp.pre.ts }
  rw [Racc.searched, ← searched]
  simp only [rtExecLoad]
  generalize rtRateSearching env db
    { rtp with bplan := rtChkBplanPeriods rtp.bplan rtp.pre.ts } = found
  rcases found with ⟨loaded, base⟩
  have rounded : loaded.rounded.pre.freeBillsecId = loaded.pre.freeBillsecId := by
    simp only [Racc.rounded]
    split <;> split <;> rfl
  simp only
  split
  · rfl
  split
  · split
    · simp only [freeBillsecSmsBalance]
      split <;> exact rounded
    · exact rounded
  · exact rounded

end Allowance

/-! ## Histories -/

/-- The turn rates a call of the account. -/
def Job.isOf (account : ℕ) (job : Job) : Bool :=
  job.record.map (fun rtp => rtp.bacc.id) = some account

/-- The allowance of the rate that the turn finds. -/
def Job.allowance (job : Job) : Option ℕ :=
  job.record.map fun rtp => (rtp.searched job.env).pre.freeBillsecId

/-- The allowances of the calls of an account. -/
def allowancesOf (account : ℕ) (history : List Job) (id : ℕ) : Prop :=
  ∃ job ∈ history.filter (Job.isOf account), job.allowance = some id

/-- The condition on a turn: a call of the account, or one that opens no counter of an allowance
that the account uses. -/
def Job.LeavesCounters (account : ℕ) (allowances : ℕ → Prop) (db : Db) (job : Job) : Prop :=
  job.isOf account = true ∨
    ∀ rtp, job.record = some rtp → ¬ (rtExecLoad job.env db rtp).1.Opens allowances db.books

section Turn

variable {account : ℕ} {allowances : ℕ → Prop} {job : Job}

theorem Job.account_of_isOf (own : job.isOf account = true) {rtp : Racc}
    (record : job.record = some rtp) : rtp.bacc.id = account := by
  simpa [Job.isOf, record] using own

/-- A turn of the account keeps the view. -/
theorem SameView.rate {db db' : Db} (view : SameView account allowances db.books db'.books)
    (own : job.isOf account = true) (used : ∀ id, job.allowance = some id → allowances id) :
    SameView account allowances (job.rate db).books (job.rate db').books := by
  rw [Job.rate_books, Job.rate_books]
  cases record : job.record with
  | none => exact view
  | some rtp =>
    have own_call : rtp.bacc.id = account := Job.account_of_isOf own record
    have found : allowances (rtp.searched job.env).pre.freeBillsecId :=
      used _ (by rw [Job.allowance, record, Option.map_some])
    have same := rtExecLoad_sameBill job.reliable view own_call
      (Job.fresh_of_record record).balId found
    simp only [post_of_sameBill same]
    refine view.post job.env ?_ ?_
    · rw [(rtExecLoad_kept job.env db rtp).1, own_call]
    · rw [rtExecLoad_freeBillsecId]
      exact found

/-- A turn of another account changes nothing that the account sees. -/
theorem sameView_rate {db : Db} (other : job.isOf account = false)
    (leaves : job.LeavesCounters account allowances db) :
    SameView account allowances db.books (job.rate db).books := by
  rw [Job.rate_books]
  cases record : job.record with
  | none => exact .refl _
  | some rtp =>
    have closed : ¬ (rtExecLoad job.env db rtp).1.Opens allowances db.books := by
      rcases leaves with own | closed
      · rw [other] at own
        cases own
      · exact closed rtp record
    refine sameView_post job.env ?_ closed
    rw [(rtExecLoad_kept job.env db rtp).1]
    simpa [Job.isOf, record] using other

end Turn

/-- An account sees a state as it sees the reference. -/
def SeenAs (account : ℕ) (allowances : ℕ → Prop) (db reference : Db) : Prop :=
  SameView account allowances reference.books db.books

/-- What an account sees after a guarded history is what its own calls make of it. -/
theorem seenAs_own {account : ℕ} {allowances : ℕ → Prop} {db after : Db} {history : List Job}
    (run : GuardedRun (fun db (job : Job) => some (job.rate db))
      (fun db job => job.LeavesCounters account allowances db) db history after)
    (used : ∀ id, allowancesOf account history id → allowances id) :
    SeenAs account allowances after ((history.filter (Job.isOf account)).foldl Job.rate db) := by
  have silent {a b reference : Db} {job : Job} (other : job.isOf account = false)
      (leaves : job.LeavesCounters account allowances a) (steps : some (job.rate a) = some b)
      (seen : SeenAs account allowances a reference) : SeenAs account allowances b reference :=
    Option.some.inj steps ▸ seen.trans (sameView_rate other leaves)
  have visible {a b reference : Db} {job : Job} (member : job ∈ history)
      (own : job.isOf account = true) (steps : some (job.rate a) = some b)
      (seen : SeenAs account allowances a reference) :
      SeenAs account allowances b (job.rate reference) := by
    obtain rfl := Option.some.inj steps
    exact seen.rate own fun id found => used id ⟨job, List.mem_filter.mpr ⟨member, own⟩, found⟩
  have start : SeenAs account allowances db db := SameView.refl db.books
  exact run.unwinds (SeenAs account allowances) silent visible start

end RateEngine
