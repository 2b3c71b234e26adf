import RateEngine.AccountFile
import RateEngine.BplanInput

/-!
# What the tables say of accounts

A rating account has a payer and bill plans, and a payer has cards.  Told by names this does not
change when rows are added, so each insert adds one entry to the book of the accounts.
-/

namespace RateEngine.ReCli

open Committed

/-! ## The book -/

/-- What the tables say of a rating account. -/
structure AccountEntry where
  payer : Option String
  plans : List (Option String × Option (Option ℤ × Option ℤ))
deriving DecidableEq

/-- The rating accounts of each mode, and the cards of the payers. -/
@[ext] structure AccountBook where
  account : RatingMode → String → Option AccountEntry
  cards : String → List Card

namespace AccountDatabase

variable (db : AccountDatabase)

/-- What the tables say of a row. -/
def entry (mode : RatingMode) (row : ℕ × RatingAccount) : AccountEntry where
  payer := (db.billingAccount.get? row.2.billingAccountId).map BillingAccount.username
  plans := ((db.deff mode).values fun deff => deff.accountId = row.1).map fun deff =>
    ((db.billPlan.get? deff.billPlanId).map BillPlan.name, deff.nadi)

/-- The book of the tables. -/
def book : AccountBook where
  account mode name := ((db.ratingAccount mode).find name).map (db.entry mode)
  cards payer := (db.getBillingAccountId payer).elim [] fun id =>
    (db.pcard.values fun row => row.billingAccountId = id).map Pcard.card

/-- Every reference is to an identifier that was handed out. -/
structure HandedOut : Prop where
  plans : db.toDatabase.HandedOut
  payer : ∀ mode, ∀ row ∈ (db.ratingAccount mode).rows,
    row.2.billingAccountId < db.billingAccount.next
  account : ∀ mode, ∀ row ∈ (db.deff mode).rows, row.2.accountId < (db.ratingAccount mode).next
  plan : ∀ mode, ∀ row ∈ (db.deff mode).rows, row.2.billPlanId < db.billPlan.next
  card : ∀ row ∈ db.pcard.rows, row.2.billingAccountId < db.billingAccount.next

end AccountDatabase

/-! ## Offers -/

/-- Both dates are given. -/
def Card.Dated (card : Card) : Prop := card.startDate.isSome ∧ card.endDate.isSome

instance (card : Card) : Decidable card.Dated := inferInstanceAs (Decidable (_ ∧ _))

/-- Add a card unless it is there; a card without a date is never found. -/
def offerCard (cards : List Card) (card : Card) : List Card :=
  if card.Dated ∧ card ∈ cards then cards else cards ++ [card]

/-- What a row offers. -/
inductive AccountOffer where
  | account (mode : RatingMode) (name payer : String) (plan : Option String)
      (nadi : Option (Option ℤ × Option ℤ))
  | card (payer : String) (card : Card)

namespace AccountBook

/-- Enter an account. -/
def enter (book : AccountBook) (mode : RatingMode) (name : String) (entry : AccountEntry) :
    AccountBook :=
  { book with
    account :=
      Function.update book.account mode (Function.update (book.account mode) name (some entry)) }

/-- An account that is there stays, and one without a plan is not entered. -/
def offer (book : AccountBook) : AccountOffer → AccountBook
  | .account mode name payer plan nadi =>
      if (book.account mode name).isSome then book
      else plan.elim book fun plan => book.enter mode name ⟨some payer, [(some plan, nadi)]⟩
  | .card payer card =>
      { book with
        cards := Function.update book.cards payer (offerCard (book.cards payer) card) }

/-- Offers one after the other. -/
def offerAll (book : AccountBook) (offers : List AccountOffer) : AccountBook :=
  offers.foldl offer book

theorem offerAll_append (book : AccountBook) (offers more : List AccountOffer) :
    book.offerAll (offers ++ more) = (book.offerAll offers).offerAll more := List.foldl_append

/-- An offer that was taken before. -/
def Offered (book : AccountBook) : AccountOffer → Prop
  | .account mode name _ plan _ => plan = none ∨ (book.account mode name).isSome
  | .card payer card => card.Dated → card ∈ book.cards payer

variable {book : AccountBook} {own other : AccountOffer}

theorem isSome_account_offer {mode : RatingMode} {name : String}
    (known : (book.account mode name).isSome) : ((book.offer other).account mode name).isSome := by
  cases other with
  | card payer card => exact known
  | account mode' name' payer plan nadi =>
      simp only [AccountBook.offer]
      split
      · exact known
      · rename_i unknown
        cases plan with
        | none => exact known
        | some plan =>
            simp only [Option.elim_some, enter, Function.update_apply]
            split
            · rename_i same
              rw [Function.update_apply]
              split
              · rfl
              · exact same ▸ known
            · exact known

theorem mem_offerCard {cards : List Card} {card card' : Card} :
    card' ∈ offerCard cards card ↔ card' ∈ cards ∨ card' = card := by
  unfold offerCard
  split
  · rename_i there
    exact ⟨.inl, fun member => member.elim id fun same => same ▸ there.2⟩
  · simp

theorem mem_cards_offer {payer : String} {card : Card} (member : card ∈ book.cards payer) :
    card ∈ (book.offer other).cards payer := by
  cases other with
  | account mode name payer' plan nadi =>
      simp only [AccountBook.offer]
      split
      · exact member
      · cases plan <;> exact member
  | card payer' card' =>
      simp only [AccountBook.offer, Function.update_apply]
      split
      · rename_i same
        exact mem_offerCard.mpr (.inl (same ▸ member))
      · exact member

theorem Offered.offer (offered : book.Offered own) : (book.offer other).Offered own := by
  cases own with
  | account mode name payer plan nadi => exact offered.imp_right isSome_account_offer
  | card payer card => exact fun dated => mem_cards_offer (offered dated)

theorem offered_offer (book : AccountBook) (own : AccountOffer) :
    (book.offer own).Offered own := by
  cases own with
  | account mode name payer plan nadi =>
      cases plan with
      | none => exact .inl rfl
      | some plan =>
          refine .inr ?_
          simp only [AccountBook.offer]
          split
          · assumption
          · simp [enter]
  | card payer card =>
      intro dated
      simp only [AccountBook.offer, Function.update_self]
      exact mem_offerCard.mpr (.inr rfl)

theorem Offered.offerAll (offered : book.Offered own) (offers : List AccountOffer) :
    (book.offerAll offers).Offered own := by
  induction offers generalizing book with
  | nil => exact offered
  | cons first rest induction => exact induction offered.offer

theorem offered_offerAll (book : AccountBook) (offers : List AccountOffer) :
    ∀ own ∈ offers, (book.offerAll offers).Offered own := by
  induction offers generalizing book with
  | nil => nofun
  | cons first rest induction =>
      rw [List.forall_mem_cons]
      exact ⟨(offered_offer book first).offerAll rest, induction (book.offer first)⟩

/-- The cards without a date that are offered to a payer. -/
def undatedCards (offers : List AccountOffer) (payer : String) : List Card :=
  offers.filterMap fun
    | .card payer' card => if payer' = payer ∧ ¬ card.Dated then some card else none
    | .account .. => none

/-- Offers that were taken before add the cards without a date again. -/
theorem offerAll_of_offered {offers : List AccountOffer}
    (offered : ∀ own ∈ offers, book.Offered own) :
    book.offerAll offers =
      { book with cards := fun payer => book.cards payer ++ undatedCards offers payer } := by
  induction offers generalizing book with
  | nil => simp [offerAll, undatedCards]
  | cons first rest induction =>
      rw [List.forall_mem_cons] at offered
      have later : (book.offer first).offerAll rest = _ :=
        induction fun own member => (offered.2 own member).offer
      change (book.offer first).offerAll rest = _
      rw [later]
      cases first with
      | account mode name payer plan nadi =>
          have same : book.offer (.account mode name payer plan nadi) = book := by
            rcases offered.1 with rfl | known
            · exact ite_self _
            · exact if_pos known
          rw [same]
          rfl
      | card payer card =>
          refine AccountBook.ext rfl ?_
          funext payer'
          simp only [AccountBook.offer, Function.update_apply, undatedCards, List.filterMap_cons]
          by_cases own : payer' = payer
          · subst payer'
            by_cases dated : card.Dated
            · simp [offerCard, dated, offered.1 dated]
            · simp [offerCard, dated]
          · simp [own, Ne.symm own]

/-- Offered again, accounts stay and so do cards with both dates. -/
theorem offerAll_again (book : AccountBook) (offers : List AccountOffer) :
    (book.offerAll offers).offerAll offers =
      { book.offerAll offers with
        cards := fun payer => (book.offerAll offers).cards payer ++ undatedCards offers payer } :=
  offerAll_of_offered (offered_offerAll book offers)

end AccountBook

/-! ## Rows that stay -/

/-- The tables of bill plans keep their rows. -/
structure PlansKept (db db' : Database) : Prop where
  billPlan : db.billPlan.Extends db'.billPlan.toSerialTable
  prefixes : db.prefixes.Extends db'.prefixes.toSerialTable
  tariff : db.tariff.Extends db'.tariff.toSerialTable
  rate : db.rate.rows <+: db'.rate.rows
  calcFunction : db.calcFunction.rows <+: db'.calcFunction.rows
  billPlanType : db'.billPlanType = db.billPlanType

theorem PlansKept.refl (db : Database) : PlansKept db db where
  billPlan := .refl _
  prefixes := .refl _
  tariff := .refl _
  rate := List.prefix_rfl
  calcFunction := List.prefix_rfl
  billPlanType := rfl

instance : IsPreorder Database PlansKept where
  refl := .refl
  trans _ _ _ first later :=
    { billPlan := first.billPlan.trans later.billPlan
      prefixes := first.prefixes.trans later.prefixes
      tariff := first.tariff.trans later.tariff
      rate := first.rate.trans later.rate
      calcFunction := first.calcFunction.trans later.calcFunction
      billPlanType := later.billPlanType.trans first.billPlanType }

theorem Grows.kept {plans tariffs : List String} {db db' : Database}
    (grown : Grows plans tariffs db db') : PlansKept db db' where
  billPlan := grown.billPlan
  prefixes := grown.prefixes
  tariff := grown.tariff
  rate := by
    obtain ⟨new, rows, -⟩ := grown.rate
    exact ⟨new, rows.symm⟩
  calcFunction := by
    obtain ⟨new, rows, -⟩ := grown.calcFunction
    exact ⟨new, rows.symm⟩
  billPlanType := grown.billPlanType

/-- The tables keep their rows but for cards, and an account keeps its plans. -/
structure Kept (db db' : AccountDatabase) : Prop where
  plans : PlansKept db.toDatabase db'.toDatabase
  billingAccount : db.billingAccount.Extends db'.billingAccount.toSerialTable
  ratingAccount : ∀ mode, (db.ratingAccount mode).Extends (db'.ratingAccount mode).toSerialTable
  deff : ∀ mode, ∃ new, (db'.deff mode).rows = (db.deff mode).rows ++ new ∧
    ∀ row ∈ new, (db.ratingAccount mode).next ≤ row.2.accountId

namespace Kept

variable {db db' db'' : AccountDatabase}

theorem refl (db : AccountDatabase) : Kept db db where
  plans := .refl _
  billingAccount := .refl _
  ratingAccount _ := .refl _
  deff _ := ⟨[], by simp, by simp⟩

instance : IsPreorder AccountDatabase Kept where
  refl := .refl
  trans _ _ _ first later :=
    { plans := trans_of PlansKept first.plans later.plans
      billingAccount := first.billingAccount.trans later.billingAccount
      ratingAccount := fun mode => (first.ratingAccount mode).trans (later.ratingAccount mode)
      deff := fun mode => by
        obtain ⟨new, rows, later_keys⟩ := first.deff mode
        obtain ⟨new', rows', later_keys'⟩ := later.deff mode
        refine ⟨new ++ new', by rw [rows', rows, List.append_assoc], fun row member => ?_⟩
        rcases List.mem_append.mp member with old | new
        · exact later_keys row old
        · exact (first.ratingAccount mode).next_le.trans (later_keys' row new) }

theorem getBillingAccountId (kept : Kept db db') {payer : String} {id : ℕ}
    (known : db.getBillingAccountId payer = some id) : db'.getBillingAccountId payer = some id :=
  NamedTable.keyOf_of_extends kept.billingAccount known

theorem entry_eq (kept : Kept db db') (sound : db.HandedOut) {mode : RatingMode}
    {row : ℕ × RatingAccount} (member : row ∈ (db.ratingAccount mode).rows) :
    db'.entry mode row = db.entry mode row := by
  obtain ⟨new, rows, later_keys⟩ := kept.deff mode
  have below : row.1 < (db.ratingAccount mode).next := (db.ratingAccount mode).key_lt row member
  have own : ((db'.deff mode).values fun deff => deff.accountId = row.1) =
      (db.deff mode).values fun deff => deff.accountId = row.1 := by
    have none_new : new.filter (fun deff => deff.2.accountId = row.1) = [] := by
      refine List.filter_eq_nil_iff.mpr fun deff deff_mem same => ?_
      have above := later_keys deff deff_mem
      rw [of_decide_eq_true same] at above
      exact absurd below above.not_gt
    simp only [SerialTable.values, SerialTable.select]
    rw [rows, List.filter_append, none_new, List.append_nil]
  unfold AccountDatabase.entry
  rw [kept.billingAccount.get?_eq (sound.payer mode row member), own]
  refine congrArg _ (List.map_congr_left fun deff deff_mem => ?_)
  obtain ⟨pair, pair_mem, rfl⟩ := List.mem_map.mp deff_mem
  rw [kept.plans.billPlan.get?_eq
    (sound.plan mode pair (SerialTable.mem_rows_of_mem_select pair_mem))]

/-- An account that is there stays as it is. -/
theorem account_eq (kept : Kept db db') (sound : db.HandedOut) {mode : RatingMode} {name : String}
    {entry : AccountEntry} (known : db.book.account mode name = some entry) :
    db'.book.account mode name = some entry := by
  obtain ⟨row, found, rfl⟩ := Option.map_eq_some_iff.mp known
  obtain ⟨member, named⟩ := NamedTable.find_eq_some_iff.mp found
  have found' : (db'.ratingAccount mode).find name = some row :=
    NamedTable.find_eq_some_iff.mpr ⟨(kept.ratingAccount mode).mem member, named⟩
  exact Option.map_eq_some_iff.mpr ⟨row, found', kept.entry_eq sound member⟩

end Kept

end RateEngine.ReCli
