import Mathlib.Tactic
import RateEngine.Rating

/-!
# The books of rating

Pricing a loaded call is a decision on numbers: no row, one row, or a row for the free part of a
split.  This file names that decision and says what it does to the rating rows, the balances and the
free-seconds counters.
-/

namespace RateEngine

/-! ## Pricing -/

/-- The tariff has an allowance and some of it is left. -/
def Racc.HasAllowance (rtp : Racc) : Prop := rtp.pre.freeBillsecLimit ≠ 0 ∧ 0 < rtp.freeSec

instance (rtp : Racc) : Decidable rtp.HasAllowance := inferInstanceAs (Decidable (_ ∧ _))

/-- Store a price and the seconds it is for. -/
def Racc.withPrice (rtp : Racc) (cprice : ℚ) (billsec : ℤ) : Racc :=
  { rtp with pre := { rtp.pre with cprice, billsec } }

@[simp]
theorem Racc.withPrice_cprice (rtp : Racc) (cprice : ℚ) (billsec : ℤ) :
    (rtp.withPrice cprice billsec).pre.cprice = cprice := rfl

/-- `append_free_billsec` marks a call inside the allowance and asks for a split beyond it. -/
theorem appendFreeBillsec_eq (pre : Rating) {left : ℤ}
    (left_eq : pre.freeBillsecLimit - pre.freeBillsecSum = left) :
    appendFreeBillsec pre =
      if ¬ (pre.freeBillsecLimit ≠ 0 ∧ 0 < left) then (0, pre)
      else if pre.billsec ≤ left then (0, { pre with cprice := -pre.cprice })
      else (1, pre) := by
  simp only [appendFreeBillsec, left_eq]
  by_cases limit : pre.freeBillsecLimit = 0
  · simp [limit]
  by_cases positive : 0 < left
  · have allowed : pre.freeBillsecLimit ≠ 0 ∧ 0 < left := ⟨limit, positive⟩
    rw [if_pos limit, if_pos positive, if_neg (not_not_intro allowed)]
    by_cases within : pre.billsec ≤ left
    · rw [if_neg within.not_gt, if_pos within]
      by_cases free : pre.cprice = 0
      · rw [if_neg (not_not_intro free), free, neg_zero, ← free]
      · rw [if_pos free, mul_neg_one]
    · rw [if_pos (not_le.mp within), if_neg within]
  · simp [limit, positive]

theorem calcCprice2_eq {rtp : Racc} {tr : List CalcFunction}
    (tariff : rtp.bplan.calcFuncs = some tr) {totals : CpriceTotals}
    (priced : calcCprice2Totals tr rtp.pre.billsec = totals) :
    calcCprice2 rtp =
      (if totals.checksec ≤ 0 then 0 else -1, rtp.withPrice totals.cprice totals.billsec) := by
  simp only [calcCprice2, tariff, priced, Racc.withPrice]

/-- `calc_cprice_group` on a tariff: a price or a failure, a mark on a call inside the allowance, or
a split. -/
theorem calcCpriceGroup_eq {rtp : Racc} {tr : List CalcFunction}
    (tariff : rtp.bplan.calcFuncs = some tr) {totals : CpriceTotals}
    (priced : calcCprice2Totals tr rtp.pre.billsec = totals) :
    calcCpriceGroup rtp =
      if 0 < totals.checksec then (-1, rtp.withPrice totals.cprice totals.billsec)
      else if ¬ rtp.HasAllowance then (0, rtp.withPrice totals.cprice totals.billsec)
      else if totals.billsec ≤ rtp.freeSec then (0, rtp.withPrice (-totals.cprice) totals.billsec)
      else (1, rtp.withPrice totals.cprice totals.billsec) := by
  have not_failure : ¬ (0 : ℤ) = -1 := by decide
  rw [calcCpriceGroup, calcCprice2_eq tariff priced]
  by_cases failed : 0 < totals.checksec
  · rw [if_neg failed.not_ge, if_pos failed]
    rfl
  rw [if_pos (not_lt.mp failed), if_neg failed]
  simp only [if_neg not_failure]
  have marked : appendFreeBillsec (rtp.withPrice totals.cprice totals.billsec).pre =
      if ¬ rtp.HasAllowance then (0, (rtp.withPrice totals.cprice totals.billsec).pre)
      else if totals.billsec ≤ rtp.freeSec then
        (0, (rtp.withPrice (-totals.cprice) totals.billsec).pre)
      else (1, (rtp.withPrice totals.cprice totals.billsec).pre) := appendFreeBillsec_eq _ rfl
  rw [marked]
  split
  · rfl
  · split <;> rfl

/-- What pricing decides for a call. -/
inductive Plan where
  | unrated
  /-- One row for the call. -/
  | single (cprice : ℚ) (billsec : ℤ)
  /-- A row for the free part of the call, and an attempt at the rest. -/
  | split (cprice : ℚ) (billsec : ℤ)
deriving DecidableEq

/-- The decision on a loaded call. -/
def Racc.plan (rtp : Racc) : Plan :=
  match rtp.bplan.calcFuncs with
  | none => .unrated
  | some tr =>
      let call := calcCprice2Totals tr rtp.pre.billsec
      if 0 < call.checksec then .unrated
      else if ¬ rtp.HasAllowance then .single call.cprice call.billsec
      else if call.billsec ≤ rtp.freeSec then .single (-call.cprice) call.billsec
      else
        let free := calcCprice2Totals tr rtp.freeSec
        if 0 < free.checksec then .unrated
        else if free.billsec ≤ rtp.freeSec then .split (-free.cprice) free.billsec
        else
          -- the free seconds are no whole units: the billed seconds are priced again
          let again := calcCprice2Totals tr call.billsec
          if 0 < again.checksec then .unrated
          else if again.billsec ≤ rtp.freeSec then .single (-again.cprice) again.billsec
          else .single again.cprice again.billsec

/-! ## The books -/

/-- The tables of the money: rating rows, balances and free-seconds counters. -/
structure Books where
  rating : SerialTable RatingRow
  balance : SerialTable BalanceRow
  counters : SerialTable FreeBillsecBalanceRow
deriving DecidableEq

def Db.books (db : Db) : Books := ⟨db.rating, db.balance, db.freeBillsecBalance⟩

namespace Books

variable (books : Books)

/-- The call is a stored CDR without a row. -/
def Admits (rtp : Racc) : Prop :=
  0 < rtp.pre.cdrId ∧
    books.rating.select (RatingRow.isOf rtp.pre.cdrId rtp.bacc.id rtp.pre.rateId) = []

instance (rtp : Racc) : Decidable (books.Admits rtp) := inferInstanceAs (Decidable (_ ∧ _))

/-- A price does not change whether the call has a row. -/
@[simp]
theorem admits_withPrice (rtp : Racc) (cprice : ℚ) (billsec : ℤ) :
    books.Admits (rtp.withPrice cprice billsec) ↔ books.Admits rtp := Iff.rfl

/-- Enter the row of a call that has none. -/
def enter (rtp : Racc) : Books :=
  if books.Admits rtp then { books with rating := books.rating.insert rtp.ratingRow } else books

/-- Add an amount to the balance of the period; unless exactly one is active, open one with it. -/
def charge (baccId : ℕ) (start stop : String) (amount : ℚ) : Books :=
  match books.balance.select (BalanceRow.isActiveFor baccId start stop) with
  | [(id, row)] =>
      { books with
        balance := books.balance.update (fun key _ => key = id) fun picked =>
          { picked with amount := row.amount + amount } }
  | _ =>
      { books with
        balance := books.balance.insert
          { baccId, startDate := start, endDate := stop, active := true, amount } }

/-- The free seconds of the account in the period. -/
def used (env : Env) (baccId : ℕ) (start stop : String) (freeBillsecId : ℕ) : ℤ :=
  ((books.rating.select (RatingRow.isFreeIn env baccId start stop freeBillsecId)).map
    fun row => row.2.callBillsec).sum

/-- Open a counter with the used seconds unless exactly one is there.  No balance id is ever set, so
the counters of all accounts have balance id `0` and are never updated. -/
def count (env : Env) (baccId : ℕ) (start stop : String) (freeBillsecId : ℕ) : Books :=
  match books.counters.select (FreeBillsecBalanceRow.isOf 0 freeBillsecId) with
  | [_] => books
  | _ =>
      { books with
        counters := books.counters.insert
          { balanceId := 0, freeBillsecId
            freeBillsec := books.used env baccId start stop freeBillsecId } }

/-- Charge a card with the price of the record and, for a tariff with an allowance, count. -/
def settle (env : Env) (rtp : Racc) (counts : Bool) (card : Option Pcard) : Books :=
  match card with
  | none => books
  | some card =>
      let books := books.charge rtp.bacc.id card.start card.stop rtp.pre.cprice
      if counts then books.count env rtp.bacc.id card.start card.stop rtp.pre.freeBillsecId
      else books

/-- After an entry the call has a row, or is no stored CDR. -/
theorem not_admits_enter (rtp : Racc) : ¬ (books.enter rtp).Admits rtp := by
  by_cases admits : books.Admits rtp
  · rw [enter, if_pos admits, Admits, SerialTable.select_insert]
    simp [RatingRow.isOf, Racc.ratingRow]
  · rw [enter, if_neg admits]
    exact admits

/-- Charging and counting leave the rating rows alone. -/
theorem settle_rating (env : Env) (rtp : Racc) (counts : Bool) (card : Option Pcard) :
    (books.settle env rtp counts card).rating = books.rating := by
  have charged (baccId : ℕ) (start stop : String) (amount : ℚ) :
      (books.charge baccId start stop amount).rating = books.rating := by
    simp only [charge]
    split <;> rfl
  cases card with
  | none => rfl
  | some card =>
    simp only [settle]
    split
    · simp only [count]
      split <;> exact charged _ _ _ _
    · exact charged _ _ _ _

end Books

/-- The card, when it has both dates. -/
def Racc.datedCard (rtp : Racc) : Option Pcard :=
  rtp.bacc.pcardPtr.filter fun card => card.start ≠ "" && card.stop ≠ ""

/-- A new row is charged, and counted unless it is for a message; an old one is left alone. -/
def Books.postRow (books : Books) (env : Env) (priced : Racc) : Books :=
  if books.Admits priced then
    (books.enter priced).settle env priced
      (priced.pre.freeBillsecLimit ≠ 0 ∧ priced.pre.ratingModeId < RtMode.sms.id)
      priced.bacc.pcardPtr
  else books

/-- The free part of a split is charged and counted, whether or not its row is new. -/
def Books.postFree (books : Books) (env : Env) (free : Racc) : Books :=
  (books.enter free).settle env free (free.pre.freeBillsecLimit ≠ 0) free.datedCard

/-- What rating a loaded call does to the books. -/
def Books.post (books : Books) (env : Env) (rtp : Racc) : Books :=
  match rtp.plan with
  | .unrated => books
  | .single cprice billsec => books.postRow env (rtp.withPrice cprice billsec)
  | .split cprice billsec => books.postFree env (rtp.withPrice cprice billsec)

end RateEngine
