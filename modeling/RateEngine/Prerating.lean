import RateEngine.RtDataQ

/-!
# Cards and pre-rating

`pcard_manager` picks the card of a call, `rt_prerating_process` checks it and loads the balance,
`rt_rate_searching` runs both the rate search and pre-rating.  `rt_rate_searching` returns nothing:
what pre-rating reports goes no further.
-/

namespace RateEngine

/-! ## `pcard_manager` -/

/-- The billing window around a date: its first day and the first day after it. -/
def Tm.window (tm : Tm) (bday : ℤ) : String × String :=
  if bday ≤ tm.mday then
    (dateString tm.year tm.mon bday,
      if tm.mon + 1 ≤ 12 then dateString tm.year (tm.mon + 1) bday
      else dateString (tm.year + 1) 1 bday)
  else
    (if tm.mon = 1 then dateString (tm.year - 1) 12 bday else dateString tm.year (tm.mon - 1) bday,
      dateString tm.year tm.mon bday)

/-- A credit card takes the end of the window when it has none, and starts no earlier than the
window. -/
def Pcard.withWindow (card : Pcard) (window : String × String) : Pcard :=
  let card := if card.stop = "" then { card with stop := window.2 } else card
  if card.start < window.1 then { card with start := window.1 } else card

/-- The card covers the date. -/
def Pcard.covers (card : Pcard) (current : String) : Bool :=
  card.start ≤ current && current < card.stop

/-- The loop of `pcard_manager`: the first card that covers the date. -/
def selectPcard (window : String × String) (current : String) : List Pcard → Option Pcard
  | [] => none
  | card :: rest =>
      if card.id = 0 then none
      else
        match card.type with
        | .creditCard =>
            let card := card.withWindow window
            if card.covers current then some card else selectPcard window current rest
        | .debitCard =>
            if card.stop = "" ∨ card.start = "" then selectPcard window current rest
            else if card.covers current then some card
            else selectPcard window current rest
        | .unkn => selectPcard window current rest

/-- The time by which cards and unpaid balances are judged. -/
def Rating.cardTime (pre : Rating) : ℤ := if pre.epoch ≠ 0 then pre.epoch else pre.ts

/-- `pcard_manager`. -/
def pcardManager (env : Env) (rtp : Racc) : Racc :=
  let tm := env.localtime rtp.pre.cardTime
  let bday : ℤ := if 0 < rtp.bacc.billingDay then rtp.bacc.billingDay else 1
  let pcardPtr :=
    match env.pcard rtp.bacc.id with
    | none => rtp.bacc.pcardPtr
    | some cards => selectPcard (tm.window bday) tm.date cards
  { rtp with bacc := { rtp.bacc with pcardPtr } }

/-! ## `rt_prerating_process` -/

/-- The account has unpaid balances past the limit or past its day of payment. -/
def paymentOverdue (env : Env) (bacc : Bacc) (balNum : ℕ) (day : ℤ) : Bool :=
  let bday : ℤ := if bacc.billingDay = 0 then env.billingDay else bacc.billingDay
  if balNum ≤ 1 then false
  else if env.balNum < balNum then true
  else if bacc.dayOfPayment = 0 then false
  else if bacc.dayOfPayment < bday then day < bday && bacc.dayOfPayment ≤ day
  else bacc.dayOfPayment ≤ day

/-- The end of `rt_prerating_process`: load the balance of the card's period and, for a tariff with
an allowance, its used seconds. -/
def rtPreratingLoad (env : Env) (db : Db) (rtp : Racc) (card : Pcard) : Racc :=
  let rtp := rtDataQBal env db rtp card.start card.stop
  if rtp.pre.freeBillsecLimit ≠ 0 then
    let rtp := freeBillsecBalanceV2 env db rtp card.start card.stop
    { rtp with pre := fFreeBillsecBalQuery2 env db rtp.pre }
  else rtp

/-- `rt_prerating_process` for the card of the account: `0` when the card is usable. -/
def rtPreratingProcess (env : Env) (db : Db) (rtp : Racc) (card : Pcard) : ℤ × Racc × Db :=
  if card.id ≠ 0 ∧ rtp.pre.epoch = 0 ∧
      paymentOverdue env rtp.bacc (rtDataQBalCount env db rtp)
        (env.localtime rtp.pre.cardTime).mday then
    (1, rtp, rtDataQPcardSet env db card.id .block)
  else if card.start ≠ "" ∧ card.stop ≠ "" then
    if ¬ checkDateValid env.unset card.start ∨ ¬ checkDateValid env.unset card.stop then
      (1, rtp, rtDataQPcardSet env db card.id .block)
    else (0, rtPreratingLoad env db rtp card, db)
  else (1, rtp, db)

/-- `rt_rate_searching`. -/
def rtRateSearching (env : Env) (db : Db) (rtp : Racc) : Racc × Db :=
  let rtp := rtDataQRate env rtp
  match rtp.bplan.ratesPtr, rtp.bacc.pcardPtr with
  | some _, some card =>
      match rtPreratingProcess env db rtp card with
      | (_, rtp, db) => (rtp, db)
  | _, _ => (rtp, db)

/-- Pre-rating either reports an error and leaves the record as it was, or loads the balance. -/
theorem rtPreratingProcess_cases (env : Env) (db : Db) (rtp : Racc) (card : Pcard) :
    (∃ db', rtPreratingProcess env db rtp card = (1, rtp, db')) ∨
      rtPreratingProcess env db rtp card = (0, rtPreratingLoad env db rtp card, db) := by
  simp only [rtPreratingProcess]
  split
  · exact Or.inl ⟨_, rfl⟩
  split
  · split
    · exact Or.inl ⟨_, rfl⟩
    · exact Or.inr rfl
  · exact Or.inl ⟨_, rfl⟩

/-! ## Frames

What each query leaves alone: the balance, the account with its card, and the plan. -/

section Frames

variable (env : Env) (db : Db) (rtp : Racc)

/-- The free seconds query changes the used seconds only. -/
theorem freeBillsecBalanceV2_frame (start stop : String) :
    (freeBillsecBalanceV2 env db rtp start stop).bal = rtp.bal ∧
      (freeBillsecBalanceV2 env db rtp start stop).bacc = rtp.bacc ∧
        (freeBillsecBalanceV2 env db rtp start stop).bplan = rtp.bplan := by
  simp only [freeBillsecBalanceV2]
  split <;> exact ⟨rfl, rfl, rfl⟩

theorem rtDataQBal_frame (start stop : String) :
    (rtDataQBal env db rtp start stop).pre = rtp.pre ∧
      (rtDataQBal env db rtp start stop).bacc = rtp.bacc ∧
        (rtDataQBal env db rtp start stop).bplan = rtp.bplan := by
  simp only [rtDataQBal]
  split <;> exact ⟨rfl, rfl, rfl⟩

/-- Loading the usage leaves the account and the plan alone; the balance is that of the query. -/
theorem rtPreratingLoad_frame (card : Pcard) :
    (rtPreratingLoad env db rtp card).bal = (rtDataQBal env db rtp card.start card.stop).bal ∧
      (rtPreratingLoad env db rtp card).bacc = rtp.bacc ∧
        (rtPreratingLoad env db rtp card).bplan = rtp.bplan := by
  obtain ⟨-, bacc_eq, bplan_eq⟩ := rtDataQBal_frame env db rtp card.start card.stop
  obtain ⟨free_bal, free_bacc, free_bplan⟩ :=
    freeBillsecBalanceV2_frame env db (rtDataQBal env db rtp card.start card.stop) card.start
      card.stop
  simp only [rtPreratingLoad]
  split
  · exact ⟨free_bal, free_bacc.trans bacc_eq, free_bplan.trans bplan_eq⟩
  · exact ⟨rfl, bacc_eq, bplan_eq⟩

/-- Loading the usage of the period changes the used seconds of the record only. -/
theorem rtPreratingLoad_pre (card : Pcard) :
    ∃ freeBillsec freeBillsecSum, (rtPreratingLoad env db rtp card).pre =
      { rtp.pre with freeBillsec, freeBillsecSum } := by
  have read := (rtDataQBal_frame env db rtp card.start card.stop).1
  simp only [rtPreratingLoad]
  split
  · simp only [freeBillsecBalanceV2, fFreeBillsecBalQuery2]
    split <;> split <;> rw [read] <;> exact ⟨_, _, rfl⟩
  · exact ⟨_, _, read⟩

@[simp]
theorem rtDataQTariff_frame :
    (rtDataQTariff env rtp).bal = rtp.bal ∧ (rtDataQTariff env rtp).bacc = rtp.bacc ∧
      (rtDataQTariff env rtp).pre = rtp.pre ∧
        (rtDataQTariff env rtp).bplan.ratesPtr = rtp.bplan.ratesPtr := by
  unfold rtDataQTariff
  split
  · simp
  · split <;> simp

theorem rtDataQPrefix_frame (rates : List Rate) :
    (rtDataQPrefix env rates rtp).bal = rtp.bal ∧ (rtDataQPrefix env rates rtp).bacc = rtp.bacc ∧
      (rtDataQPrefix env rates rtp).bplan.ratesPtr = rtp.bplan.ratesPtr := by
  induction rates generalizing rtp with
  | nil => exact ⟨rfl, rfl, rfl⟩
  | cons rate rest ih =>
      simp only [rtDataQPrefix]
      split
      · exact ⟨rfl, rfl, rfl⟩
      split
      · exact ih rtp
      split
      · split
        · exact ⟨(rtDataQTariff_frame env _).1, (rtDataQTariff_frame env _).2.1,
            (rtDataQTariff_frame env _).2.2.2⟩
        · exact ih _
      · exact ih rtp

/-- The rate search leaves the balance and the account alone and loads the rates of the plan. -/
theorem rtDataQRate_frame :
    (rtDataQRate env rtp).bal = rtp.bal ∧ (rtDataQRate env rtp).bacc = rtp.bacc ∧
      (rtDataQRate env rtp).bplan.ratesPtr = env.rates rtp.bplan.id := by
  unfold rtDataQRate
  cases rates_eq : env.rates rtp.bplan.id with
  | none => simp
  | some rates =>
    obtain ⟨bal_eq, bacc_eq, rates_ptr⟩ := rtDataQPrefix_frame env
      { rtp with bplan := { rtp.bplan with ratesPtr := some rates, calcFuncs := none } } rates
    exact ⟨bal_eq, bacc_eq, rates_ptr⟩

/-- The rate search and pre-rating leave the account and its card alone. -/
theorem rtRateSearching_bacc : (rtRateSearching env db rtp).1.bacc = rtp.bacc := by
  obtain ⟨-, bacc_eq, -⟩ := rtDataQRate_frame env rtp
  simp only [rtRateSearching]
  split
  · rename_i card _ _
    rcases rtPreratingProcess_cases env db (rtDataQRate env rtp) card with ⟨db', refused⟩ | loaded
    · rw [refused]
      exact bacc_eq
    · rw [loaded]
      exact (rtPreratingLoad_frame env db _ card).2.1.trans bacc_eq
  · exact bacc_eq

end Frames

end RateEngine
