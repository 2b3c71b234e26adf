import RateEngine.AccountRows

/-!
# Importing accounts

The modes `3`, `4` and `5` of a settings file: a billing account with a rating account, a card for
the billing account of the last account row, and a tree of bill plans.  With them `import_settings`
reads every file.
-/

namespace RateEngine.ReCli

open Committed

section File

variable (py : PyText)

/-! ## Accounts -/

/-- `ImportState`. -/
structure AccountState extends ImportState where
  billingAccountId : Option ℕ := none

/-- The mode of an account row. -/
def rowModeId (row : List String) : ℤ := intField py (field row 4)

/-- The billing account of an account row. -/
def rowPayer (row : List String) : String := stripQuotes py (field row 1)

/-- The rating account of an account row. -/
def rowAccount (row : List String) : String := stripQuotes py (field row 5)

/-- A column that a row may leave out. -/
def optionalInt (value : String) : Option ℤ :=
  if py.strip value = "" then none else some (intField py value)

/-- The columns `clg_nadi` and `cld_nadi` of an account row, for a mode that has them. -/
def rowNadi (row : List String) : Option (Option ℤ × Option ℤ) :=
  if rowModeId py row ≤ 4 then none
  else some (optionalInt py (field row 7), optionalInt py (field row 8))

/-- `_mode_accounts`; no mode has the identifier zero. -/
def modeAccounts (state : AccountState) (row : List String) : AccountImport AccountState :=
  match getRatingMode (rowModeId py row) with
  | none => return state
  | some mode => do
      let billingAccountId ← findOr (·.getBillingAccountId (rowPayer py row))
        (insertBillingAccount (rowPayer py row) (intField py (field row 3)) (py.strip (field row 2))
          (intField py (field row 6)))
      match ← getRatingAccountId mode (rowAccount py row) with
      | some _ => return { state with billingAccountId := some billingAccountId }
      | none => do
          if rowModeId py row ≤ 4 then
            insertRatingAccount mode (rowAccount py row) billingAccountId state.billPlanId
          else
            insertRatingAccount2 mode (rowAccount py row) billingAccountId state.billPlanId
              (optionalInt py (field row 7)) (optionalInt py (field row 8))
          return { state with billingAccountId := some billingAccountId }

/-! ## Cards -/

/-- The type of a card row. -/
def rowTypeId (row : List String) : Option ℕ :=
  let pcardType := stripQuotes py (field row 1)
  if pcardType = "" then some 2 else getPcardTypeId pcardType

/-- The status of a card row. -/
def rowStatusId (row : List String) : Option ℕ :=
  let pcardStatus := stripQuotes py (field row 2)
  if pcardStatus = "" then some 0 else getPcardStatusId pcardStatus

/-- A date of a card row; no text is no date. -/
def rowDate (row : List String) (idx : ℕ) : Option String :=
  some (stripQuotes py (field row idx)) |>.filter (· ≠ "")

/-- A text that a query takes: one with a NUL is refused. -/
@[irreducible] def plainText {σ : Type} (text : String) : Committed ImportError σ Unit :=
  .statement .refused fun db => if '\x00' ∈ text.toList then none else some ((), db)

/-- `_mode_pcard`. -/
def modePcard (state : AccountState) (row : List String) : AccountImport Unit :=
  match state.billingAccountId with
  | none => return ()
  | some billingAccountId => do
      let amount ← ofExcept (numField py (field row 3))
      plainText (stripQuotes py (field row 2))
      plainText (stripQuotes py (field row 1))
      match rowTypeId py row with
      | none => return ()
      | some typeId => do
          let _ ← findOr
            (·.getPcardId billingAccountId typeId (rowStatusId py row) amount (rowDate py row 4)
              (rowDate py row 5))
            (insertPcard billingAccountId typeId (rowStatusId py row) amount (rowDate py row 4)
              (rowDate py row 5))
          return ()

/-! ## Trees -/

/-- The names of a tree row: those before the first empty one. -/
def rowTree (row : List String) : List String :=
  (row.tail.takeWhile fun name => py.strip name ≠ "").map (stripQuotes py)

/-- Link a plan below a root. -/
def linkChild (rootId : ℕ) (name : String) : Import Unit := do
  plainText name
  match ← query (·.getBillPlanId name) with
  | none => return ()
  | some treeId => do
      match ← query (·.getBillTreeId treeId rootId) with
      | some _ => return ()
      | none => insertBillTree treeId rootId

/-- `_mode_bill_tree`. -/
def modeBillTree (row : List String) : Import Unit :=
  match rowTree py row with
  | [] => return ()
  | root :: children => do
      let rootId ← getOrInsert (·.getBillPlanId root) (insertBillPlanV2 root)
      children.forM (linkChild rootId)

/-! ## Files -/

/-- A row of a file. -/
def importAccountRow (state : AccountState) (row : List String) : AccountImport AccountState :=
  match row with
  | [] => return state
  | mode :: _ =>
      if py.strip mode = "3" then modeAccounts py state row
      else if py.strip mode = "4" then do
        modePcard py state row
        return state
      else if py.strip mode = "5" then do
        onPlans (modeBillTree py row)
        return state
      else do
        let plan ← onPlans (importRow py state.toImportState row)
        return { state with toImportState := plan }

/-- `import_settings`. -/
def importAccounts (rows : List (List String)) : AccountImport AccountState :=
  rows.foldlM (importAccountRow py) {}

variable {py}

theorem importAccountRow_plain {state : AccountState} {row : List String}
    (plain : ∀ mode ∈ row.head?, py.strip mode ∉ ["3", "4", "5"]) :
    importAccountRow py state row =
      onPlans (importRow py state.toImportState row) >>= fun plan =>
        (return { state with toImportState := plan }) := by
  cases row with
  | nil =>
      funext db
      rfl
  | cons mode fields =>
      have other := plain mode rfl
      simp only [List.mem_cons, List.not_mem_nil, or_false, not_or] at other
      simp only [importAccountRow, if_neg other.1, if_neg other.2.1, if_neg other.2.2]

/-- On a file of the modes `1`, `2` and `*` the import is that of its bill plans. -/
theorem importAccounts_plain (file : SettingsFile py) :
    importAccounts py file.rows =
      onPlans (importSettings py file) >>= fun plan => (return { toImportState := plan }) := by
  suffices loop : ∀ rows : List (List String),
      (∀ row ∈ rows, ∀ mode ∈ row.head?, py.strip mode ∉ ["3", "4", "5"]) →
        ∀ state : AccountState, rows.foldlM (importAccountRow py) state =
          onPlans (rows.foldlM (importRow py) state.toImportState) >>= fun plan =>
            (return { state with toImportState := plan }) from loop file.rows file.modes {}
  intro rows
  induction rows with
  | nil =>
      intro _ state
      rfl
  | cons row rows induction =>
      intro plain state
      rw [List.forall_mem_cons] at plain
      rw [List.foldlM_cons, List.foldlM_cons, importAccountRow_plain plain.1]
      funext db
      simp only [bind_apply, onPlans, zoom]
      rcases importRow py state.toImportState row db.toDatabase with ⟨e | plan, plans⟩
      · rfl
      · exact congrFun (induction plain.2 { state with toImportState := plan })
          { db with toDatabase := plans }

end File

end RateEngine.ReCli
