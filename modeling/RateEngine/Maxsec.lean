import Mathlib.Tactic
import RateEngine.AccountLookup
import RateEngine.CalcFunctions
import RateEngine.Prerating

/-!
# Authorising a call

`rt_maxsec` grants seconds to a call: it finds the account and its card, searches rate and tariff,
takes the credit that is left on the card, splits it over the calls that the card admits and turns
the share into seconds.  A failed pre-rating leaves the balance of the record at zero, so the credit
looks untouched; this file states when such a call is refused all the same.
-/

namespace RateEngine

/-! ## `rt_maxsec` -/

/-- The `RT_MAXSEC_*` codes of `rt_maxsec`. -/
inductive MaxsecCode where
  | noBacc
  | noBplan
  | noPcard
  | noClimit
  | crestrict
  | noTariff
  | noCredit
deriving DecidableEq, Repr

/-- The value stored in `pre->maxsec`. -/
def MaxsecCode.value : MaxsecCode → ℤ
  | noBacc => -1
  | noBplan => -2
  | noPcard => -3
  | noClimit => -4
  | crestrict => -6
  | noTariff => -7
  | noCredit => -8

theorem MaxsecCode.value_neg (code : MaxsecCode) : code.value < 0 := by
  cases code <;> decide

/-- The account, the plan and the card of the call, up to the rate search. -/
def rtMaxsecAccount (env : Env) (pre : Rating) : Except (MaxsecCode × Rating) (Racc × Pcard) :=
  match rtRaccVoipAvA env pre with
  | none => .error (.noBacc, pre.withMode .acode)
  | some rtp =>
      if rtp.bacc.id = 0 then .error (.noBacc, rtp.pre)
      else if rtp.bplan.id = 0 then .error (.noBplan, rtp.pre)
      else
        let rtp := { rtp with bplan := rtChkBplanPeriods rtp.bplan rtp.pre.ts }
        let rtp := pcardManager env rtp
        match rtp.bacc.pcardPtr with
        | none => .error (.noPcard, rtp.pre)
        | some card => .ok (rtp, card)

/-- The credit limit of one more call on the card: the limit that is stored, and the code when the
call is refused.  The quotient `k` is taken on `double`s, so it is infinite for a card without an
amount. -/
def rtMaxsecLimit (kLimitMin : ℚ) (card : Pcard) (consumed : ℚ) (sim : ℤ) :
    Option MaxsecCode × ℚ :=
  let limit := card.amount - consumed
  if limit ≤ 0 then (some .noClimit, limit)
  else if card.callNumber ≤ 0 then (some .crestrict, limit)
  else if card.callNumber ≤ sim then (some .crestrict, limit)
  else if 1 < card.callNumber then
    if card.amount = 0 ∨ kLimitMin < limit / card.amount then
      let share := limit / card.callNumber
      if share ≤ 0 then (some .noPcard, share) else (none, share)
    else if 0 < sim then (some .crestrict, 0)
    else if limit ≤ 0 then (some .noPcard, limit)
    else (none, limit)
  else (none, limit)

/-- The grant: everything after the rate search. -/
def rtMaxsecGrant (env : Env) (rtp : Racc) (card : Pcard) (sim : ℤ) :
    Except (MaxsecCode × Rating) Racc :=
  match rtp.bplan.calcFuncs with
  | none => .error (.noTariff, rtp.pre)
  | some _ =>
      match rtMaxsecLimit env.kLimitMin card rtp.bal.amount sim with
      | (some code, limit) => .error (code, { rtp.pre with limit })
      | (none, limit) =>
          let rtp := calcMaxsec env.callMaxsecLimit { rtp with pre := { rtp.pre with limit } }
          if rtp.pre.maxsec ≤ 0 then .error (.noCredit, rtp.pre) else .ok rtp

/-- `rt_maxsec`: the record, the granted account data or `none`, and the database. -/
def rtMaxsec (env : Env) (db : Db) (pre : Rating) (sim : ℤ) : Rating × Option Racc × Db :=
  match rtMaxsecAccount env pre with
  | .error (code, pre) => ({ pre with maxsec := code.value }, none, db)
  | .ok (rtp, card) =>
      match rtRateSearching env db rtp with
      | (rtp, db) =>
          match rtMaxsecGrant env rtp card sim with
          | .error (code, pre) => ({ pre with maxsec := code.value }, none, db)
          | .ok rtp => (rtp.pre, some rtp, db)

/-! ## The record before the rate search -/

/-- Before the rate search the record holds the card and no balance. -/
theorem fresh_of_rtMaxsecAccount {env : Env} {pre : Rating} {rtp : Racc} {card : Pcard}
    (found : rtMaxsecAccount env pre = .ok (rtp, card)) :
    rtp.bal = {} ∧ rtp.bacc.pcardPtr = some card := by
  have looked_up {racc : Racc} (lookup : rtRaccVoipAvA env pre = some racc) : racc.bal = {} := by
    simp only [rtRaccVoipAvA] at lookup
    split at lookup
    · obtain rfl := Option.some.inj lookup
      rename_i found
      exact (fresh_of_rtDataQRacc found).1
    · exact (fresh_of_rtDataQRacc lookup).1
  simp only [rtMaxsecAccount] at found
  split at found
  · cases found
  rename_i racc lookup
  split at found
  · cases found
  split at found
  · cases found
  split at found
  · cases found
  · rename_i chosen card_eq
    simp only [Except.ok.injEq, Prod.mk.injEq] at found
    obtain ⟨rfl, rfl⟩ := found
    refine ⟨?_, card_eq⟩
    have fresh := looked_up lookup
    simpa only [pcardManager] using fresh

/-! ## What a grant rests on -/

/-- The share of one more call: the credit that is left, split over the calls of the card while
enough of the amount is left. -/
def Pcard.share (card : Pcard) (kLimitMin consumed : ℚ) : ℚ :=
  if 1 < card.callNumber ∧
      (card.amount = 0 ∨ kLimitMin < (card.amount - consumed) / card.amount) then
    (card.amount - consumed) / card.callNumber
  else card.amount - consumed

/-- A limit that is not refused is the share, is positive and leaves a call slot. -/
theorem rtMaxsecLimit_granted {kLimitMin : ℚ} {card : Pcard} {consumed : ℚ} {sim : ℤ} {limit : ℚ}
    (granted : rtMaxsecLimit kLimitMin card consumed sim = (none, limit)) :
    limit = card.share kLimitMin consumed ∧ 0 < limit ∧ sim < card.callNumber := by
  simp only [rtMaxsecLimit] at granted
  split_ifs at granted with amount number full several split_limit share others
  all_goals simp only [Prod.mk.injEq, reduceCtorEq, false_and, true_and] at granted
  · refine ⟨?_, granted ▸ not_le.mp share, not_le.mp full⟩
    simp [Pcard.share, several, split_limit, granted]
  · refine ⟨?_, granted ▸ not_le.mp amount, not_le.mp full⟩
    rw [Pcard.share, if_neg fun both => split_limit both.2, granted]
  · refine ⟨?_, granted ▸ not_le.mp amount, not_le.mp full⟩
    simp [Pcard.share, several, granted]

/-- A granted call holds the limit of its card at the balance that was read and the number of calls
in progress. -/
theorem rtMaxsec_granted {env : Env} {db : Db} {pre : Rating} {sim : ℤ} {rtp : Racc}
    (granted : (rtMaxsec env db pre sim).2.1 = some rtp) :
    ∃ card, rtp.bacc.pcardPtr = some card ∧
      rtMaxsecLimit env.kLimitMin card rtp.bal.amount sim = (none, rtp.pre.limit) := by
  simp only [rtMaxsec] at granted
  split at granted
  · cases granted
  rename_i racc card found
  split at granted
  · cases granted
  rename_i admitted grant
  obtain rfl := Option.some.inj granted
  simp only [rtMaxsecGrant] at grant
  split at grant
  · cases grant
  rename_i tr loaded
  split at grant
  · cases grant
  rename_i limit limit_eq
  split at grant
  · cases grant
  obtain rfl := Except.ok.inj grant
  have card_kept : (rtRateSearching env db racc).1.bacc.pcardPtr = some card := by
    rw [rtRateSearching_bacc]
    exact (fresh_of_rtMaxsecAccount found).2
  simp only [calcMaxsec, loaded]
  exact ⟨card, card_kept, limit_eq⟩

/-! ## Failed pre-rating -/

/-- `rt_prerating_process` is reached and reports an error, or the balance query it makes gives no
result or several rows. -/
def PreratingFailed (env : Env) (db : Db) (rtp : Racc) (card : Pcard) : Prop :=
  (rtDataQRate env rtp).bplan.ratesPtr ≠ none ∧
    ((rtPreratingProcess env db (rtDataQRate env rtp) card).1 ≠ 0 ∨
      env.lost .bal = true ∨
        1 < (db.balance.select (BalanceRow.isActiveFor rtp.bacc.id card.start card.stop)).length)

/-- The call gets no seconds and no account data. -/
def Refused (outcome : Rating × Option Racc × Db) : Prop :=
  outcome.2.1 = none ∧ outcome.1.maxsec ≤ 0

/-- The authorisation claim at one request: a call with a failed pre-rating is refused. -/
def NoAuthorisationAfterFailure (env : Env) (db : Db) (pre : Rating) (sim : ℤ) : Prop :=
  ∀ rtp card, rtMaxsecAccount env pre = .ok (rtp, card) → PreratingFailed env db rtp card →
    Refused (rtMaxsec env db pre sim)

/-- A reason to refuse the call with nothing consumed on the card: no tariff, no amount, no call
slot, or a tariff that sells no second for the share. -/
def RefusedAtFullAmount (env : Env) (rtp : Racc) (card : Pcard) (sim : ℤ) : Prop :=
  rtp.bplan.calcFuncs = none ∨ card.amount ≤ 0 ∨ card.callNumber ≤ 0 ∨ card.callNumber ≤ sim ∨
    (1 < card.callNumber ∧ 1 ≤ env.kLimitMin ∧ 0 < sim) ∨
      ∀ tr ∈ rtp.bplan.calcFuncs,
        calcMaxsecValue env.callMaxsecLimit tr (card.share env.kLimitMin 0)
          (rtp.pre.freeBillsecLimit - rtp.pre.freeBillsecSum) ≤ 0

/-! ## The record after a failed pre-rating -/

/-- A balance query without a result, or with several rows, leaves the record as it was. -/
theorem rtDataQBal_of_unread {env : Env} {db : Db} {rtp : Racc} {start stop : String}
    (unread : env.lost .bal = true ∨
      1 < (db.balance.select (BalanceRow.isActiveFor rtp.bacc.id start stop)).length) :
    rtDataQBal env db rtp start stop = rtp := by
  simp only [rtDataQBal, Env.select]
  rcases unread with lost | several
  · simp [lost]
  · split
    · rename_i id row selected
      split at selected
      · cases selected
      · rw [Option.some.inj selected] at several
        simp at several
    · rfl

/-- Pre-rating that fails leaves the balance of the record as it was. -/
theorem bal_eq_of_preratingFailed {env : Env} {db : Db} {rtp : Racc} {card : Pcard}
    (failed : (rtPreratingProcess env db rtp card).1 ≠ 0 ∨ env.lost .bal = true ∨
      1 < (db.balance.select (BalanceRow.isActiveFor rtp.bacc.id card.start card.stop)).length) :
    (rtPreratingProcess env db rtp card).2.1.bal = rtp.bal := by
  rcases rtPreratingProcess_cases env db rtp card with ⟨db', refused⟩ | loaded
  · rw [refused]
  · have unread := failed.resolve_left (by simp [loaded])
    rw [loaded, (rtPreratingLoad_frame env db rtp card).1, rtDataQBal_of_unread unread]

/-! ## Refusals at the full amount -/

/-- With nothing consumed the limit is refused for the amount or the call slots of the card. -/
theorem rtMaxsecLimit_zero_refused_iff (kLimitMin : ℚ) (card : Pcard) (sim : ℤ) :
    (∃ code limit, rtMaxsecLimit kLimitMin card 0 sim = (some code, limit)) ↔
      card.amount ≤ 0 ∨ card.callNumber ≤ 0 ∨ card.callNumber ≤ sim ∨
        (1 < card.callNumber ∧ 1 ≤ kLimitMin ∧ 0 < sim) := by
  simp only [rtMaxsecLimit, sub_zero]
  by_cases amount : card.amount ≤ 0
  · simp [amount]
  by_cases number : card.callNumber ≤ 0
  · simp [amount, number]
  by_cases full : card.callNumber ≤ sim
  · simp [amount, number, full]
  have amount_ne : card.amount ≠ 0 := (not_le.mp amount).ne'
  by_cases several : 1 < card.callNumber
  · have number_pos : (0 : ℚ) < card.callNumber := by exact_mod_cast not_le.mp number
    have share_pos : ¬ card.amount / card.callNumber ≤ 0 :=
      not_le.mpr (div_pos (not_le.mp amount) number_pos)
    by_cases split_limit : kLimitMin < 1
    · simp [amount, number, full, several, amount_ne, split_limit, share_pos]
    · by_cases others : 0 < sim
      · simp [amount, number, full, several, amount_ne, split_limit, others, not_lt.mp split_limit]
      · simp [amount, number, full, several, amount_ne, split_limit, others]
  · simp [amount, number, full, several]

/-- With nothing consumed the grant is refused exactly for the reasons at the full amount. -/
theorem rtMaxsecGrant_refused_iff {env : Env} {rtp : Racc} {card : Pcard} {sim : ℤ}
    (unread : rtp.bal.amount = 0) :
    (∃ refusal, rtMaxsecGrant env rtp card sim = .error refusal) ↔
      RefusedAtFullAmount env rtp card sim := by
  have limit_refused := rtMaxsecLimit_zero_refused_iff env.kLimitMin card sim
  simp only [RefusedAtFullAmount, rtMaxsecGrant, unread]
  cases loaded : rtp.bplan.calcFuncs with
  | none => simp
  | some tr =>
    cases limit_eq : rtMaxsecLimit env.kLimitMin card 0 sim with
    | mk refused limit =>
      cases refused with
      | some code =>
        have reasons := limit_refused.mp ⟨code, limit, limit_eq⟩
        simp only [Except.error.injEq, exists_eq', reduceCtorEq, false_or, true_iff]
        tauto
      | none =>
        have no_reason : ¬ (card.amount ≤ 0 ∨ card.callNumber ≤ 0 ∨ card.callNumber ≤ sim ∨
            (1 < card.callNumber ∧ 1 ≤ env.kLimitMin ∧ 0 < sim)) := by
          rw [← limit_refused]
          rintro ⟨code, limit', other⟩
          rw [limit_eq] at other
          cases other
        obtain rfl := (rtMaxsecLimit_granted limit_eq).1
        have seconds : (calcMaxsec env.callMaxsecLimit { rtp with
            pre := { rtp.pre with limit := card.share env.kLimitMin 0 } }).pre.maxsec =
              calcMaxsecValue env.callMaxsecLimit tr (card.share env.kLimitMin 0)
                (rtp.pre.freeBillsecLimit - rtp.pre.freeBillsecSum) := by
          simp only [calcMaxsec, loaded]
        simp only [seconds, Option.mem_def, Option.some.injEq, forall_eq', reduceCtorEq, false_or]
        split
        · rename_i none_sold
          simp [none_sold]
        · rename_i some_sold
          simp only [reduceCtorEq, exists_false, some_sold, or_false, false_iff]
          tauto

/-- One account with a debit card of 100 for `calls` simultaneous calls and one rate for every
number at one unit of money a second. -/
def prepaidCard (calls : ℤ) : Pcard where
  id := 1
  amount := 100
  start := "2024-01-01"
  stop := "2025-01-01"
  status := .active
  type := .debitCard
  callNumber := calls

/-- The environment of the prepaid account. -/
def prepaidEnv (calls : ℤ) : Env :=
  { bareEnv with
    racc := fun _ _ => some [⟨1, 1, 0, 0, 0, 0, 1, 0, 0⟩]
    pcard := fun _ => some [prepaidCard calls]
    rates := fun _ => some [⟨1, 1, "&", 1, 0, 0, 0⟩]
    calcFunction := fun _ => some [⟨1, 1, 1, 0⟩] }

/-- A request of the prepaid account. -/
def prepaidRequest : Rating where
  cdrServerId := 1
  clg := "100"
  cld := "200"
  ts := 1709546400

/-- Three unpaid balances, one more than the limit. -/
def unpaidDb : Db where
  balance :=
    ((SerialTable.empty.insert ⟨1, "2023-10-01", "2023-11-01", true, 10⟩).insert
      ⟨1, "2023-11-01", "2023-12-01", true, 10⟩).insert ⟨1, "2023-12-01", "2024-01-01", true, 10⟩

end RateEngine
