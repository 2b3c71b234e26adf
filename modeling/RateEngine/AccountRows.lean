import RateEngine.BplanImport

/-!
# The tables of accounts

A settings file also provisions billing accounts, rating accounts and prepaid cards.  A rating
account is a row in the table of its rating mode, and a row in the table `_deff` of the mode gives
it a bill plan.  This file models these tables and the statements of `re7/db.py` on them.
-/

namespace RateEngine.ReCli

/-! ## Columns -/

/-- `=` of columns and parameters: `NULL` equals nothing. -/
def sqlEq {α : Type} [DecidableEq α] : Option α → Option α → Bool
  | some a, some b => a = b
  | _, _ => false

/-- `LIKE`, after a backslash or not. -/
def patternLike : Bool → List Char → List Char → Bool
  | _, [], text => text.isEmpty
  | escaped, c :: pattern, text =>
      if ¬ escaped ∧ c = '\\' then patternLike true pattern text
      else if ¬ escaped ∧ c = '%' then text.tails.any (patternLike false pattern)
      else
        match text with
        | [] => false
        | d :: rest => (c = d ∨ ¬ escaped ∧ c = '_') ∧ patternLike false pattern rest

example : patternLike false "cr_dit%".toList "credit card".toList = true := by decide

/-! ## Rows -/

/-- The rows of `rating_mode`. -/
inductive RatingMode where
  | callingNumber
  | accountCode
  | srcContext
  | dstContext
  | srcTgroup
  | dstTgroup
  | callingNumberSms
deriving DecidableEq

/-- The table of a mode and the width of its names; there is none for text messages. -/
def RatingMode.width : RatingMode → Option ℕ
  | callingNumber => some 32
  | accountCode | srcContext | dstContext | srcTgroup | dstTgroup => some 64
  | callingNumberSms => none

/-- `billing_account`. -/
structure BillingAccount where
  username : String
  currencyId : ℤ
  leg : String
  cdrServerId : ℤ

/-- A row in the table of a rating mode. -/
structure RatingAccount where
  name : String
  billingAccountId : ℕ

/-- A row in the table `_deff` of a rating mode; the tables of trunk groups have the columns
`clg_nadi` and `cld_nadi`. -/
structure RatingDeff where
  accountId : ℕ
  billPlanId : ℕ
  nadi : Option (Option ℤ × Option ℤ)
deriving DecidableEq

/-- What an account has of a row of `pcard`. -/
structure Card where
  typeId : ℕ
  statusId : ℕ
  amount : ℚ
  startDate : Option String
  endDate : Option String
  startDate_fits : ∀ date ∈ startDate, Varchar 10 date
  endDate_fits : ∀ date ∈ endDate, Varchar 10 date
deriving DecidableEq

/-- `pcard`. -/
structure Pcard where
  billingAccountId : ℕ
  card : Card

/-- The tables that a settings file provisions. -/
structure AccountDatabase extends Database where
  billingAccount : NamedTable BillingAccount.username
  ratingAccount : RatingMode → NamedTable RatingAccount.name
  deff : RatingMode → SerialTable RatingDeff
  pcard : SerialTable Pcard

/-- The tables of the schema with their start values. -/
def AccountDatabase.schema : AccountDatabase where
  toDatabase := .schema
  billingAccount := .empty _
  ratingAccount _ := .empty _
  deff _ := .empty
  pcard := .empty

/-- A run on the tables. -/
abbrev AccountImport (α : Type) : Type := Committed ImportError AccountDatabase α

/-- A run on the tables of bill plans. -/
def onPlans {α : Type} (m : Import α) : AccountImport α :=
  m.zoom AccountDatabase.toDatabase fun plans db => { db with toDatabase := plans }

/-! ## Lookups -/

/-- `get_rating_mode`. -/
def getRatingMode (modeId : ℤ) : Option RatingMode :=
  [(1, .callingNumber), (2, .accountCode), (3, .srcContext), (4, .dstContext), (5, .srcTgroup),
    (6, .dstTgroup), (7, .callingNumberSms)].lookup modeId

/-- `get_pcard_type_id`. -/
def getPcardTypeId (pcardType : String) : Option ℕ :=
  ([(1, "debit card"), (2, "credit card")].find? fun row =>
    patternLike false (pcardType.toList ++ ['%']) row.2.toList).map Prod.fst

/-- `get_pcard_status_id`. -/
def getPcardStatusId (pcardStatus : String) : Option ℕ :=
  ([(0, "deactive"), (1, "active"), (2, "block")].find? fun row =>
    patternLike false (pcardStatus.toList ++ ['%']) row.2.toList).map Prod.fst

namespace AccountDatabase

variable (db : AccountDatabase)

/-- `get_billing_account_id`. -/
def getBillingAccountId (billingAccount : String) : Option ℕ :=
  db.billingAccount.keyOf billingAccount

/-- `get_pcard_id`. -/
def getPcardId (bacc typeId : ℕ) (statusId : Option ℕ) (amount : Option ℚ)
    (start stop : Option String) : Option ℕ :=
  (db.pcard.rows.find? fun row =>
    row.2.billingAccountId = bacc ∧ row.2.card.typeId = typeId ∧
      sqlEq (some row.2.card.statusId) statusId ∧ sqlEq (some row.2.card.amount) amount ∧
      sqlEq row.2.card.startDate start ∧ sqlEq row.2.card.endDate stop).map Prod.fst

end AccountDatabase

/-- `get_rating_account_id`. -/
def getRatingAccountId (mode : RatingMode) (ratingAccount : String) : AccountImport (Option ℕ) :=
  .statement .refused fun db =>
    mode.width.map fun _ => ((db.ratingAccount mode).keyOf ratingAccount, db)

/-- `get_bill_tree_id`. -/
def Database.getBillTreeId (db : Database) (tree root : ℕ) : Option ℕ :=
  (db.billPlanTree.rows.find? fun row =>
    row.2.billPlanId = tree ∧ row.2.rootBplanId = root).map Prod.fst

/-! ## Inserts -/

/-- `insert_bill_plan_v2`: the other columns have their defaults. -/
def insertBillPlanV2 (billPlan : String) : Import ℕ := insertBillPlan billPlan 2 0 0

/-- `insert_bill_tree`. -/
def insertBillTree (billPlanId rootBplanId : ℕ) : Import Unit :=
  .statement .refused fun db =>
    some ((), { db with billPlanTree := db.billPlanTree.insert { billPlanId, rootBplanId } })

/-- `insert_billing_account`. -/
def insertBillingAccount (billingAccount : String) (currId : ℤ) (leg : String) (cdrServerId : ℤ) :
    AccountImport ℕ :=
  .statement .refused fun db =>
    if accepted : Varchar 64 billingAccount ∧ Int4 currId ∧ Varchar 3 leg ∧ Int4 cdrServerId ∧
        billingAccount ∉ db.billingAccount.rows.map fun row => row.2.username then
      some (db.billingAccount.next, { db with
        billingAccount := db.billingAccount.insertNew
          { username := billingAccount, currencyId := currId, leg, cdrServerId }
          accepted.2.2.2.2 })
    else none

/-- The row of an account. -/
def insertAccountRow (mode : RatingMode) (ratingAccount : String) (billingAccountId : ℕ) :
    AccountImport ℕ :=
  .statement .refused fun db =>
    if accepted : (∃ width ∈ mode.width, Varchar width ratingAccount) ∧
        ratingAccount ∉ (db.ratingAccount mode).rows.map fun row => row.2.name then
      some ((db.ratingAccount mode).next, { db with
        ratingAccount := Function.update db.ratingAccount mode
          ((db.ratingAccount mode).insertNew { name := ratingAccount, billingAccountId }
            accepted.2) })
    else none

/-- The bill plan of an account. -/
def insertAccountDeff (mode : RatingMode) (accountId : ℕ) (billPlanId : Option ℕ)
    (nadi : Option (Option ℤ × Option ℤ)) : AccountImport Unit :=
  .statement .refused fun db =>
    match billPlanId with
    | none => none
    | some billPlanId =>
        if ∀ columns ∈ nadi, (∀ clg ∈ columns.1, Int4 clg) ∧ ∀ cld ∈ columns.2, Int4 cld then
          some ((), { db with
            deff := Function.update db.deff mode
              ((db.deff mode).insert { accountId, billPlanId, nadi }) })
        else none

/-- Both rows, each committed by itself. -/
def insertAccountRows (mode : RatingMode) (ratingAccount : String) (billingAccountId : ℕ)
    (billPlanId : Option ℕ) (nadi : Option (Option ℤ × Option ℤ)) : AccountImport Unit := do
  let rid ← insertAccountRow mode ratingAccount billingAccountId
  insertAccountDeff mode rid billPlanId nadi

/-- `insert_rating_account`. -/
def insertRatingAccount (mode : RatingMode) (ratingAccount : String) (billingAccountId : ℕ)
    (billPlanId : Option ℕ) : AccountImport Unit :=
  insertAccountRows mode ratingAccount billingAccountId billPlanId none

/-- `insert_rating_account_2`. -/
def insertRatingAccount2 (mode : RatingMode) (ratingAccount : String) (billingAccountId : ℕ)
    (billPlanId : Option ℕ) (clgNadi cldNadi : Option ℤ) : AccountImport Unit :=
  insertAccountRows mode ratingAccount billingAccountId billPlanId (some (clgNadi, cldNadi))

/-- The values of a row of `pcard` that its columns take. -/
def cardOf (typeId : ℕ) (statusId : Option ℕ) (amount : Option ℚ)
    (start stop : Option String) : Option Card :=
  match statusId, amount with
  | some statusId, some amount =>
      if fits : (∀ date ∈ start, Varchar 10 date) ∧ ∀ date ∈ stop, Varchar 10 date then
        some { typeId, statusId, amount, startDate := start, endDate := stop,
               startDate_fits := fits.1, endDate_fits := fits.2 }
      else none
  | _, _ => none

/-- `insert_pcard`. -/
def insertPcard (baccId pcardTp : ℕ) (pcardSts : Option ℕ) (amount : Option ℚ)
    (startDate endDate : Option String) : AccountImport ℕ :=
  .statement .refused fun db =>
    (cardOf pcardTp pcardSts amount (startDate.filter (· ≠ "")) (endDate.filter (· ≠ ""))).map
      fun card =>
        (db.pcard.next, { db with
          pcard := db.pcard.insert { billingAccountId := baccId, card } })

end RateEngine.ReCli
