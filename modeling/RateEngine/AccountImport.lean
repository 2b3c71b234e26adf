import RateEngine.AccountOffers
import RateEngine.BplanFrame

/-!
# What an import of accounts does

A file of any modes says, row by row, which accounts and cards it offers.  An import that ends
without an error has offered them in their order, and what it offered of bill plans is what the
file says of them.
-/

namespace RateEngine.ReCli

open Committed

/-! ## Trees of bill plans -/

/-- The tables of bill plans have the same catalogue, and nothing is lost. -/
structure SamePlans (db db' : Database) : Prop where
  kept : PlansKept db db'
  same : db.HandedOut → db'.HandedOut ∧ db'.catalogue = db.catalogue

instance : IsPreorder Database SamePlans where
  refl db := ⟨.refl db, fun sound => ⟨sound, rfl⟩⟩
  trans _ _ _ first later :=
    { kept := trans_of PlansKept first.kept later.kept
      same := fun sound =>
        ⟨(later.same (first.same sound).1).1,
          (later.same (first.same sound).1).2.trans (first.same sound).2⟩ }

section Trees

variable {db : Database} {root : String} {rootId : ℕ}

theorem meets_plainText (text : String) :
    Meets SamePlans (fun _ t => t = db) (plainText text) db := by
  unfold plainText
  refine meets_statement fun {_ t} taken => ?_
  split at taken
  · cases taken
  · obtain ⟨-, rfl⟩ := Prod.mk.inj (Option.some.inj taken)
    exact ⟨refl_of SamePlans db, rfl⟩

theorem meets_linkChild (sound : db.HandedOut) (known : db.getBillPlanId root = some rootId)
    (name : String) :
    Meets SamePlans (fun _ t => t.HandedOut ∧ t.getBillPlanId root = some rootId)
      (linkChild rootId name) db := by
  refine meets_bind (meets_plainText name) fun {_ u} _ same => ?_
  subst u
  refine meets_query_bind _ ?_
  cases found : db.getBillPlanId name with
  | none => exact meets_pure ⟨sound, known⟩
  | some treeId =>
      refine meets_query_bind _ ?_
      cases db.getBillTreeId treeId rootId with
      | some id => exact meets_pure ⟨sound, known⟩
      | none =>
          refine meets_statement fun {_ t} inserted => ?_
          obtain ⟨-, rfl⟩ := Prod.mk.inj (Option.some.inj inserted)
          have below {plan : String} {id : ℕ} (plan_known : db.getBillPlanId plan = some id) :
              id < db.billPlan.next := by
            obtain ⟨row, member, -⟩ := NamedTable.keyOf_eq_some_iff.mp plan_known
            exact SerialTable.lt_next_of_mem member
          have handed : Database.HandedOut { db with
              billPlanTree := db.billPlanTree.insert ⟨treeId, rootId⟩ } :=
            { sound with
              tree_billPlan := fun row member => by
                rcases SerialTable.mem_insert.mp member with old | ⟨-, new⟩
                · exact sound.tree_billPlan row old
                · rw [new]
                  exact below found
              tree_root := fun row member => by
                rcases SerialTable.mem_insert.mp member with old | ⟨-, new⟩
                · exact sound.tree_root row old
                · rw [new]
                  exact below known }
          exact ⟨⟨⟨.refl _, .refl _, .refl _, List.prefix_rfl, List.prefix_rfl, rfl⟩,
            fun _ => ⟨handed, rfl⟩⟩, handed, known⟩

/-- A tree has a root plan, and no new rate. -/
theorem meets_modeBillTree (py : PyText) (sound : db.HandedOut) (row : List String) :
    Meets SamePlans (fun _ _ => True) (modeBillTree py row) db := by
  unfold modeBillTree
  cases rowTree py row with
  | nil => exact meets_pure trivial
  | cons root children =>
      have created : Meets SamePlans
          (fun id t => t.HandedOut ∧ t.getBillPlanId root = some id)
          (getOrInsert (·.getBillPlanId root) (insertBillPlanV2 root)) db := by
        refine meets_query_bind _ ?_
        cases found : db.getBillPlanId root with
        | some id => exact meets_pure ⟨sound, found⟩
        | none =>
            have inserts : Meets (Grows [root] []) _ (insertBillPlan root 2 0 0) db :=
              meets_insertBillPlan sound (List.mem_singleton_self root)
            refine meets_statement fun {id t} inserted => ?_
            obtain ⟨grown, known, same⟩ := inserts.ensures.of_ok (statement_eq_ok.mpr inserted)
            have handed := grown.handedOut sound
            exact ⟨⟨grown.kept, fun _ => ⟨handed, same⟩⟩, handed, known⟩
      refine meets_bind created fun {rootId t} _ ⟨handed, known⟩ => ?_
      refine (meets_forM (fun _ t => t.HandedOut ∧ t.getBillPlanId root = some rootId)
        (fun _ holds => meets_linkChild holds.1 holds.2 _) ⟨handed, known⟩).weaken ?_
      exact fun _ _ => trivial

end Trees

/-! ## Rows of bill plans -/

section Plans

variable {db : AccountDatabase} {plans : Database}

theorem handedOut_withPlans (sound : db.HandedOut) (kept : PlansKept db.toDatabase plans)
    (handedOut : plans.HandedOut) :
    ({ db with toDatabase := plans } : AccountDatabase).HandedOut where
  plans := handedOut
  payer := sound.payer
  account := sound.account
  plan mode row member := (sound.plan mode row member).trans_le kept.billPlan.next_le
  card := sound.card

theorem kept_withPlans (kept : PlansKept db.toDatabase plans) :
    Kept db { db with toDatabase := plans } where
  plans := kept
  billingAccount := .refl _
  ratingAccount _ := .refl _
  deff _ := ⟨[], by simp, by simp⟩

theorem book_withPlans (sound : db.HandedOut) (kept : PlansKept db.toDatabase plans) :
    ({ db with toDatabase := plans } : AccountDatabase).book = db.book := by
  refine AccountBook.ext ?_ rfl
  funext mode name
  refine Option.map_congr fun row found => ?_
  exact (kept_withPlans kept).entry_eq sound (NamedTable.find_eq_some_iff.mp found).1

end Plans

/-! ## What a file says -/

section Input

variable (py : PyText)

/-- The payer that a card row refers to, and what the rows before it say. -/
structure AccountInput extends CsvInput where
  payer : Option String := none
  offers : List AccountOffer := []

/-- The card of a card row. -/
def rowCard (row : List String) : Option Card :=
  match numField py (field row 3), rowTypeId py row with
  | .ok amount, some typeId =>
      cardOf typeId (rowStatusId py row) amount (rowDate py row 4) (rowDate py row 5)
  | _, _ => none

namespace AccountInput

variable (input : AccountInput) (row : List String)

/-- Read an account row. -/
def readAccount : AccountInput :=
  match getRatingMode (rowModeId py row) with
  | none => input
  | some mode =>
      { input with
        payer := some (rowPayer py row)
        offers := input.offers ++
          [.account mode (rowAccount py row) (rowPayer py row) input.plan (rowNadi py row)] }

/-- Read a card row. -/
def readCard : AccountInput :=
  match input.payer, rowCard py row with
  | some payer, some card => { input with offers := input.offers ++ [.card payer card] }
  | _, _ => input

/-- Read a row. -/
def read : AccountInput :=
  match row with
  | [] => input
  | mode :: _ =>
      if py.strip mode = "3" then input.readAccount py row
      else if py.strip mode = "4" then input.readCard py row
      else if py.strip mode = "5" then input
      else { input with toCsvInput := input.toCsvInput.read py row }

end AccountInput

/-- Read rows. -/
def accountInput (rows : List (List String)) : AccountInput := rows.foldl (AccountInput.read py) {}

/-! ## Rows -/

/-- What holds after the rows of an input. -/
structure AfterAccounts (plans tariffs : List String) (db : AccountDatabase) (input : AccountInput)
    (state : AccountState) (t : AccountDatabase) : Prop where
  rows : AfterRows plans tariffs db.toDatabase input.toCsvInput state.toImportState t.toDatabase
  payer : Option.Rel (fun name id => t.getBillingAccountId name = some id) input.payer
    state.billingAccountId
  kept : Kept db t
  handedOut : t.HandedOut
  book : t.book = db.book.offerAll input.offers

/-- What is left by a row that stops an import: the book of the rows before it, or also its account
without a plan. -/
structure StopsAt (db : AccountDatabase) (input : AccountInput) (row : List String)
    (t : AccountDatabase) : Prop where
  kept : Kept db t
  handedOut : t.HandedOut
  book : t.book = db.book.offerAll input.offers ∨
    ∃ mode, row.head?.map py.strip = some "3" ∧ getRatingMode (rowModeId py row) = some mode ∧
      (db.book.offerAll input.offers).account mode (rowAccount py row) = none ∧
      t.book = (db.book.offerAll input.offers).enter mode (rowAccount py row)
        ⟨some (rowPayer py row), []⟩

variable {py} {plans tariffs : List String} {db t u : AccountDatabase} {input : AccountInput}
  {state : AccountState} {row : List String}

theorem AfterAccounts.stopsAt (after : AfterAccounts plans tariffs db input state t) :
    StopsAt py db input row t := ⟨after.kept, after.handedOut, .inl after.book⟩

theorem ensures_getRatingAccountId {mode : RatingMode} {name : String}
    {stop : AccountDatabase → Prop} (stays : stop t) :
    Ensures (fun found u => u = t ∧ found = (t.ratingAccount mode).keyOf name) stop
      (getRatingAccountId mode name) t := by
  refine ensures_statement (fun found u result => ?_) fun _ => stays
  obtain ⟨width, -, same⟩ := Option.map_eq_some_iff.mp result
  obtain ⟨rfl, rfl⟩ := Prod.mk.inj same
  exact ⟨rfl, rfl⟩

theorem account_eq_none_of_keyOf {mode : RatingMode} {name : String}
    (unknown : (t.ratingAccount mode).keyOf name = none) : t.book.account mode name = none := by
  rw [NamedTable.keyOf, Option.map_eq_none_iff] at unknown
  exact Option.map_eq_none_iff.mpr unknown

theorem isSome_account_of_keyOf {mode : RatingMode} {name : String} {id : ℕ}
    (known : (t.ratingAccount mode).keyOf name = some id) :
    (t.book.account mode name).isSome := by
  obtain ⟨row, found, -⟩ := Option.map_eq_some_iff.mp known
  exact Option.isSome_of_eq_some (Option.map_eq_some_iff.mpr ⟨row, found, rfl⟩)

/-- An account row offers its account, or it leaves the account without a plan. -/
theorem ensures_modeAccounts (after : AfterAccounts plans tariffs db input state t)
    (account_mode : row.head?.map py.strip = some "3") :
    Ensures (AfterAccounts plans tariffs db (input.readAccount py row)) (StopsAt py db input row)
      (modeAccounts py state row) t := by
  unfold modeAccounts AccountInput.readAccount
  cases mode_eq : getRatingMode (rowModeId py row) with
  | none => exact ensures_pure after
  | some mode =>
      refine ensures_bind ((ensures_billingAccount after.handedOut).weaken (fun _ _ => id)
        fun u same => same ▸ after.stopsAt) fun {payerId u} ⟨payer_known, leaves⟩ => ?_
      have book_eq : u.book = db.book.offerAll input.offers := leaves.book_eq.trans after.book
      have kept : Kept db u := trans_of Kept after.kept leaves.kept
      have stays : StopsAt py db input row u := ⟨kept, leaves.handedOut, .inl book_eq⟩
      refine ensures_bind (ensures_getRatingAccountId stays) fun {found u'} ⟨same, found_eq⟩ => ?_
      subst u'
      cases found with
      | some id =>
          refine ensures_pure ⟨leaves.plans ▸ after.rows, .some payer_known, kept,
            leaves.handedOut, ?_⟩
          have there := isSome_account_of_keyOf found_eq.symm
          rw [AccountBook.offerAll_append, ← book_eq]
          exact (if_pos there).symm
      | none =>
          have unknown := account_eq_none_of_keyOf found_eq.symm
          have plan_known : Option.Rel (fun name id => u.getBillPlanId name = some id) input.plan
              state.billPlanId := leaves.plans ▸ after.rows.keeps.plan
          have inserted : Ensures
              (fun _ v => AfterAccounts plans tariffs db
                { input with
                  payer := some (rowPayer py row)
                  offers := input.offers ++ [.account mode (rowAccount py row) (rowPayer py row)
                    input.plan (rowNadi py row)] }
                { state with billingAccountId := some payerId } v)
              (StopsAt py db input row)
              (insertAccountRows mode (rowAccount py row) payerId state.billPlanId
                (rowNadi py row)) u := by
            refine (ensures_insertAccountRows leaves.handedOut payer_known plan_known).weaken
              (fun _ v => ?_) fun v => ?_
            · rintro ⟨plan, plan_eq, done⟩
              refine ⟨done.plans ▸ leaves.plans ▸ after.rows,
                .some (done.kept.getBillingAccountId payer_known), trans_of Kept kept done.kept,
                done.handedOut, ?_⟩
              rw [AccountBook.offerAll_append, ← book_eq, done.book_eq]
              simp only [AccountBook.offerAll, List.foldl_cons, List.foldl_nil, AccountBook.offer,
                unknown, Option.isSome_none, Bool.false_eq_true, if_false, plan_eq,
                Option.elim_some]
            · rintro (rfl | done)
              · exact stays
              · refine ⟨trans_of Kept kept done.kept, done.handedOut,
                  .inr ⟨mode, account_mode, mode_eq, book_eq ▸ unknown, ?_⟩⟩
                rw [← book_eq]
                exact done.book_eq
          by_cases few : rowModeId py row ≤ 4
          · have nadi_eq : rowNadi py row = none := if_pos few
            rw [nadi_eq] at inserted ⊢
            simp only [if_pos few]
            exact ensures_bind inserted fun done => ensures_pure done
          · have nadi_eq : rowNadi py row = some _ := if_neg few
            rw [nadi_eq] at inserted ⊢
            simp only [if_neg few]
            exact ensures_bind inserted fun done => ensures_pure done

theorem ensures_plainText (text : String) {stop : AccountDatabase → Prop} (stays : stop t) :
    Ensures (fun _ u => u = t) stop (plainText text) t := by
  unfold plainText
  refine ensures_statement (fun _ u taken => ?_) fun _ => stays
  split at taken
  · cases taken
  · exact (Prod.mk.inj (Option.some.inj taken)).2.symm

theorem filter_rowDate (row : List String) (idx : ℕ) :
    (rowDate py row idx).filter (· ≠ "") = rowDate py row idx := by
  rw [rowDate, Option.filter_filter]
  simp only [Bool.and_self]

/-- A card row offers its card. -/
theorem ensures_modePcard (after : AfterAccounts plans tariffs db input state t) :
    Ensures (fun _ => AfterAccounts plans tariffs db (input.readCard py row) state)
      (StopsAt py db input row) (modePcard py state row) t := by
  have known := after.payer
  unfold modePcard AccountInput.readCard
  generalize payer_eq : input.payer = payer at known ⊢
  generalize id_eq : state.billingAccountId = id at known ⊢
  cases known with
  | none => exact ensures_pure after
  | some known =>
      rename_i payer id
      have read : Ensures (fun amount u => numField py (field row 3) = .ok amount ∧ u = t)
          (StopsAt py db input row) (ofExcept (numField py (field row 3))) t :=
        ensures_ofExcept (fun amount given => ⟨given, rfl⟩) after.stopsAt
      refine ensures_bind read fun {amount u} ⟨amount_eq, same⟩ => ?_
      subst u
      have plain (text : String) : Ensures (fun _ u => u = t) (StopsAt py db input row)
          (plainText text) t := ensures_plainText text after.stopsAt
      refine ensures_bind (plain _) fun {_ u} same => ?_
      subst u
      refine ensures_bind (plain _) fun {_ u} same => ?_
      subst u
      cases type_eq : rowTypeId py row with
      | none =>
          have no_card : rowCard py row = none := by
            unfold rowCard
            rw [amount_eq, type_eq]
          rw [no_card]
          exact ensures_pure after
      | some typeId =>
          refine ensures_bind ((ensures_pcard after.handedOut known (filter_rowDate row 4)
            (filter_rowDate row 5)).weaken (fun _ _ done => done)
              fun u same => same ▸ after.stopsAt) fun {_ u} ⟨card, card_eq, leaves⟩ => ?_
          refine ensures_pure ?_
          have row_card : rowCard py row = some card := by
            unfold rowCard
            rw [amount_eq, type_eq]
            exact card_eq
          rw [row_card]
          refine ⟨leaves.plans ▸ after.rows,
            id_eq ▸ .some (leaves.kept.getBillingAccountId known),
            trans_of Kept after.kept leaves.kept, leaves.handedOut, ?_⟩
          rw [AccountBook.offerAll_append, ← after.book]
          exact leaves.book_eq

/-- A row of the modes `1`, `2` and `*`. -/
theorem ensures_planRow (after : AfterAccounts plans tariffs db input state t)
    (plan_mem : row ∈ modeRows py "1" [row] → rowPlan py row ∈ plans)
    (tariff_mem : row ∈ modeRows py "2" [row] → rowTariff py row ∈ tariffs) :
    Ensures
      (fun plan => AfterAccounts plans tariffs db
        { input with toCsvInput := input.toCsvInput.read py row }
        { state with toImportState := plan })
      (StopsAt py db input row) (onPlans (importRow py state.toImportState row)) t := by
  have same_book {tables : Database} (kept : PlansKept t.toDatabase tables) :
      ({ t with toDatabase := tables } : AccountDatabase).book = db.book.offerAll input.offers :=
    (book_withPlans after.handedOut kept).trans after.book
  refine ensures_zoom (meets_importRow after.rows plan_mem tariff_mem).ensures ?_ ?_
  · rintro plan tables ⟨grown, read⟩
    exact ⟨read, after.payer, trans_of Kept after.kept (kept_withPlans grown.kept),
      handedOut_withPlans after.handedOut grown.kept read.handedOut, same_book grown.kept⟩
  · intro tables grown
    have handed := grown.handedOut after.rows.handedOut
    exact ⟨trans_of Kept after.kept (kept_withPlans grown.kept),
      handedOut_withPlans after.handedOut grown.kept handed, .inl (same_book grown.kept)⟩

private theorem rel_mono {α β : Type} {r r' : α → β → Prop} (weaker : ∀ a b, r a b → r' a b)
    {x : Option α} {y : Option β} : Option.Rel r x y → Option.Rel r' x y
  | .some related => .some (weaker _ _ related)
  | .none => .none

theorem ensures_treeRow (after : AfterAccounts plans tariffs db input state t) :
    Ensures (fun _ => AfterAccounts plans tariffs db input state) (StopsAt py db input row)
      (onPlans (modeBillTree py row)) t := by
  have done {tables : Database} (moved : SamePlans t.toDatabase tables) :
      AfterAccounts plans tariffs db input state { t with toDatabase := tables } := by
    obtain ⟨handed, catalogue⟩ := moved.same after.rows.handedOut
    have kept := moved.kept
    exact
      { rows :=
          { keeps :=
              { plan := rel_mono (fun _ _ => NamedTable.keyOf_of_extends kept.billPlan)
                  after.rows.keeps.plan
                tariff := rel_mono (fun _ _ => NamedTable.keyOf_of_extends kept.tariff)
                  after.rows.keeps.tariff
                plan_mem := after.rows.keeps.plan_mem
                tariff_mem := after.rows.keeps.tariff_mem }
            handedOut := handed
            catalogue := catalogue.trans after.rows.catalogue }
        payer := after.payer
        kept := trans_of Kept after.kept (kept_withPlans kept)
        handedOut := handedOut_withPlans after.handedOut kept handed
        book := (book_withPlans after.handedOut kept).trans after.book }
  exact ensures_zoom (meets_modeBillTree py after.rows.handedOut row).ensures
    (fun _ _ moved => done moved.1) fun _ moved => (done moved).stopsAt

/-- A row offers what the file says, or it stops the import. -/
theorem ensures_importAccountRow (after : AfterAccounts plans tariffs db input state t)
    (plan_mem : row ∈ modeRows py "1" [row] → rowPlan py row ∈ plans)
    (tariff_mem : row ∈ modeRows py "2" [row] → rowTariff py row ∈ tariffs) :
    Ensures (AfterAccounts plans tariffs db (input.read py row)) (StopsAt py db input row)
      (importAccountRow py state row) t := by
  unfold importAccountRow AccountInput.read
  rcases row with - | ⟨mode, fields⟩
  · exact ensures_pure after
  by_cases account_mode : py.strip mode = "3"
  · simp only [if_pos account_mode]
    exact ensures_modeAccounts after (congrArg some account_mode)
  by_cases card_mode : py.strip mode = "4"
  · simp only [if_neg account_mode, if_pos card_mode]
    exact ensures_bind (ensures_modePcard after) fun done => ensures_pure done
  by_cases tree_mode : py.strip mode = "5"
  · simp only [if_neg account_mode, if_neg card_mode, if_pos tree_mode]
    exact ensures_bind (ensures_treeRow after) fun done => ensures_pure done
  · simp only [if_neg account_mode, if_neg card_mode, if_neg tree_mode]
    exact ensures_bind (ensures_planRow after plan_mem tariff_mem) fun done => ensures_pure done

/-! ## Files -/

/-- An import offers what its file says, row by row. -/
theorem ensures_importAccounts (sound : db.HandedOut) (rows : List (List String)) :
    Ensures
      (AfterAccounts ((modeRows py "1" rows).map (rowPlan py))
        ((modeRows py "2" rows).map (rowTariff py)) db (accountInput py rows))
      (fun t => ∃ front row back, rows = front ++ row :: back ∧
        StopsAt py db (accountInput py front) row t)
      (importAccounts py rows) db := by
  refine ensures_foldlM (fun front => AfterAccounts _ _ db (accountInput py front))
    (fun {front row back state t} split after => ?_)
    ⟨⟨⟨.none, .none, nofun, nofun⟩, sound.plans, db.catalogue.merge_empty.symm⟩, .none, .refl db,
      sound, rfl⟩
  have mem : row ∈ rows := split ▸ List.mem_append_right _ List.mem_cons_self
  have mode_mem {mode : String} (own : row ∈ modeRows py mode [row]) :
      row ∈ modeRows py mode rows := List.mem_filter.mpr ⟨mem, (List.mem_filter.mp own).2⟩
  have read : accountInput py (front ++ [row]) = (accountInput py front).read py row :=
    List.foldl_append
  rw [read]
  exact (ensures_importAccountRow after (fun own => List.mem_map_of_mem (mode_mem own))
    fun own => List.mem_map_of_mem (mode_mem own)).weaken (fun _ _ => id)
      fun t stopped => ⟨front, row, back, split, stopped⟩

theorem AccountDatabase.schema_handedOut : AccountDatabase.schema.HandedOut where
  plans := Database.schema_handedOut
  payer _ := by simp [schema, NamedTable.empty, SerialTable.empty]
  account _ := by simp [schema, SerialTable.empty]
  plan _ := by simp [schema, SerialTable.empty]
  card := by simp [schema, SerialTable.empty]

private theorem exists_eq_ok {α : Type} (m : AccountImport α) (db : AccountDatabase)
    (ok : (m db).1.isOk = true) : ∃ a, m db = (.ok a, (m db).2) := by
  rcases run : m db with ⟨e | a, t⟩
  · rw [run] at ok
    cases ok
  · exact ⟨a, rfl⟩

private theorem exists_eq_error {α : Type} (m : AccountImport α) (db : AccountDatabase)
    (stopped : (m db).1.isOk = false) : ∃ e, m db = (.error e, (m db).2) := by
  rcases run : m db with ⟨e | a, t⟩
  · exact ⟨e, rfl⟩
  · rw [run] at stopped
    cases stopped

/-- The tables that a file leaves. -/
def tablesOf (rows : List (List String)) : AccountDatabase :=
  (importAccounts .digits rows .schema).2

/-- An account row without a plan row before it. -/
def unplannedFile : List (List String) := [["3", "acme", "", "1", "1", "100"]]

/-- An account with a card without a date and a card with both. -/
def cardFile : List (List String) :=
  [["1", "retail"], ["3", "acme", "", "1", "1", "100"], ["4", "credit", "active", "50"],
    ["4", "debit", "active", "10", "2024-01-01", "2024-12-31"]]

end Input

end RateEngine.ReCli
