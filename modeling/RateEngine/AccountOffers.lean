import RateEngine.AccountBook

/-!
# What the inserts add to the book

Each insert of an account or of a card offers its entry to the book.  Only between the two rows of a
rating account an error leaves an entry that no row of the file says: an account without a plan.
-/

namespace RateEngine.ReCli

open Committed

variable {db t u : AccountDatabase}

/-- The tables of bill plans are the same, nothing is lost, and the book is as given. -/
structure Leaves (book : AccountBook) (db t : AccountDatabase) : Prop where
  plans : t.toDatabase = db.toDatabase
  kept : Kept db t
  handedOut : t.HandedOut
  book_eq : t.book = book

theorem Leaves.refl (sound : db.HandedOut) : Leaves db.book db db := ⟨rfl, .refl db, sound, rfl⟩

theorem Leaves.trans {book book' : AccountBook} (first : Leaves book db t)
    (later : Leaves book' t u) : Leaves book' db u where
  plans := later.plans.trans first.plans
  kept := trans_of Kept first.kept later.kept
  handedOut := later.handedOut
  book_eq := later.book_eq

/-! ## Billing accounts -/

/-- A new payer has no card yet. -/
theorem leaves_insertBillingAccount (sound : db.HandedOut) (row : BillingAccount)
    (fresh : row.username ∉ db.billingAccount.rows.map fun row => row.2.username) :
    Leaves db.book db { db with billingAccount := db.billingAccount.insertNew row fresh } := by
  have kept : Kept db { db with billingAccount := db.billingAccount.insertNew row fresh } :=
    { plans := .refl _
      billingAccount := .insert _ row
      ratingAccount := fun _ => .refl _
      deff := fun _ => ⟨[], by simp, by simp⟩ }
  refine ⟨rfl, kept, ?_, AccountBook.ext ?_ ?_⟩
  · exact
      { plans := sound.plans
        payer := fun mode row member => Nat.lt_succ_of_lt (sound.payer mode row member)
        account := sound.account
        plan := sound.plan
        card := fun row member => Nat.lt_succ_of_lt (sound.card row member) }
  · funext mode name
    refine Option.map_congr fun row found => ?_
    exact kept.entry_eq sound (NamedTable.find_eq_some_iff.mp found).1
  · funext payer
    have own := NamedTable.keyOf_insertNew (n := payer) fresh
    simp only [AccountDatabase.book, AccountDatabase.getBillingAccountId, own]
    split
    · rename_i same
      have unknown : db.billingAccount.keyOf payer = none :=
        NamedTable.keyOf_eq_none_iff.mpr (same ▸ fresh)
      have no_card : db.pcard.rows.filter
          (fun card => card.2.billingAccountId = db.billingAccount.next) = [] := by
        refine List.filter_eq_nil_iff.mpr fun card member own => ?_
        have below := sound.card card member
        rw [of_decide_eq_true own] at below
        exact lt_irrefl _ below
      simp only [unknown, Option.elim_some, Option.elim_none, SerialTable.values,
        SerialTable.select, no_card, List.map_nil]
    · rfl

/-- The billing account of a row is there. -/
theorem ensures_billingAccount (sound : db.HandedOut) {payer leg : String} {currId serverId : ℤ} :
    Ensures (fun id t => t.getBillingAccountId payer = some id ∧ Leaves db.book db t) (· = db)
      (findOr (·.getBillingAccountId payer) (insertBillingAccount payer currId leg serverId))
      db := by
  refine ensures_findOr (fun id known => ⟨known, .refl sound⟩) fun _ => ?_
  refine ensures_statement (fun id t inserted => ?_) fun _ => rfl
  split at inserted
  · rename_i accepted
    obtain ⟨rfl, rfl⟩ := Prod.mk.inj (Option.some.inj inserted)
    exact ⟨NamedTable.keyOf_insertNew_self accepted.2.2.2.2,
      leaves_insertBillingAccount sound _ _⟩
  · cases inserted

/-! ## Rating accounts -/

namespace AccountDatabase

variable (db) (mode : RatingMode) (row : RatingAccount)
  (fresh : row.name ∉ (db.ratingAccount mode).rows.map fun row => row.2.name)
  (deffs : List RatingDeff)

/-- The tables with a new account and its plans. -/
def withAccount : AccountDatabase :=
  { db with
    ratingAccount :=
      Function.update db.ratingAccount mode ((db.ratingAccount mode).insertNew row fresh)
    deff := Function.update db.deff mode ((db.deff mode).insertAll deffs) }

@[simp] theorem ratingAccount_withAccount :
    (db.withAccount mode row fresh deffs).ratingAccount mode =
      (db.ratingAccount mode).insertNew row fresh := Function.update_self ..

@[simp] theorem deff_withAccount :
    (db.withAccount mode row fresh deffs).deff mode = (db.deff mode).insertAll deffs :=
  Function.update_self ..

variable {db mode row fresh deffs} {mode' : RatingMode}

theorem ratingAccount_withAccount_of_ne (other : mode' ≠ mode) :
    (db.withAccount mode row fresh deffs).ratingAccount mode' = db.ratingAccount mode' :=
  Function.update_of_ne other ..

theorem deff_withAccount_of_ne (other : mode' ≠ mode) :
    (db.withAccount mode row fresh deffs).deff mode' = db.deff mode' :=
  Function.update_of_ne other ..

end AccountDatabase

section WithAccount

variable {mode : RatingMode} {row : RatingAccount}
  {fresh : row.name ∉ (db.ratingAccount mode).rows.map fun row => row.2.name}
  {deffs : List RatingDeff}

private theorem mem_of_mem_newRows {table : SerialTable RatingDeff} {deff : ℕ × RatingDeff}
    (member : deff ∈ table.newRows deffs) : deff.2 ∈ deffs := by
  rw [← table.map_snd_newRows deffs]
  exact List.mem_map_of_mem member

/-- The plans of a new account are its own. -/
structure OwnPlans (db : AccountDatabase) (mode : RatingMode) (deffs : List RatingDeff) :
    Prop where
  account : ∀ deff ∈ deffs, deff.accountId = (db.ratingAccount mode).next
  plan : ∀ deff ∈ deffs, deff.billPlanId < db.billPlan.next

theorem kept_withAccount (own : OwnPlans db mode deffs) :
    Kept db (db.withAccount mode row fresh deffs) where
  plans := .refl _
  billingAccount := .refl _
  ratingAccount mode' := by
    by_cases same : mode' = mode
    · subst mode'
      rw [AccountDatabase.ratingAccount_withAccount]
      exact .insert _ row
    · rw [AccountDatabase.ratingAccount_withAccount_of_ne same]
      exact .refl _
  deff mode' := by
    by_cases same : mode' = mode
    · subst mode'
      rw [AccountDatabase.deff_withAccount]
      exact ⟨_, SerialTable.rows_insertAll _ _, fun deff member =>
        (own.account deff.2 (mem_of_mem_newRows member)).ge⟩
    · rw [AccountDatabase.deff_withAccount_of_ne same]
      exact ⟨[], by simp, by simp⟩

theorem handedOut_withAccount (sound : db.HandedOut)
    (payer : row.billingAccountId < db.billingAccount.next) (own : OwnPlans db mode deffs) :
    (db.withAccount mode row fresh deffs).HandedOut where
  plans := sound.plans
  payer mode' account member := by
    by_cases same : mode' = mode
    · subst mode'
      rw [AccountDatabase.ratingAccount_withAccount] at member
      rcases SerialTable.mem_insert.mp member with old | ⟨-, new⟩
      · exact sound.payer mode account old
      · exact new ▸ payer
    · rw [AccountDatabase.ratingAccount_withAccount_of_ne same] at member
      exact sound.payer mode' account member
  account mode' deff member := by
    by_cases same : mode' = mode
    · subst mode'
      rw [AccountDatabase.deff_withAccount, SerialTable.rows_insertAll] at member
      rw [AccountDatabase.ratingAccount_withAccount]
      rcases List.mem_append.mp member with old | new
      · exact Nat.lt_succ_of_lt (sound.account mode deff old)
      · exact Nat.lt_succ_of_le (own.account deff.2 (mem_of_mem_newRows new)).le
    · rw [AccountDatabase.deff_withAccount_of_ne same] at member
      rw [AccountDatabase.ratingAccount_withAccount_of_ne same]
      exact sound.account mode' deff member
  plan mode' deff member := by
    by_cases same : mode' = mode
    · subst mode'
      rw [AccountDatabase.deff_withAccount, SerialTable.rows_insertAll] at member
      rcases List.mem_append.mp member with old | new
      · exact sound.plan mode deff old
      · exact own.plan deff.2 (mem_of_mem_newRows new)
    · rw [AccountDatabase.deff_withAccount_of_ne same] at member
      exact sound.plan mode' deff member
  card := sound.card

theorem entry_withAccount (sound : db.HandedOut) (own : OwnPlans db mode deffs) :
    (db.withAccount mode row fresh deffs).entry mode ((db.ratingAccount mode).next, row) =
      { payer := (db.billingAccount.get? row.billingAccountId).map BillingAccount.username
        plans := deffs.map fun deff =>
          ((db.billPlan.get? deff.billPlanId).map BillPlan.name, deff.nadi) } := by
  have none_old :
      (db.deff mode).values (fun deff => deff.accountId = (db.ratingAccount mode).next) = [] := by
    refine List.map_eq_nil_iff.mpr (List.filter_eq_nil_iff.mpr fun deff member same => ?_)
    exact (sound.account mode deff member).ne (of_decide_eq_true same)
  have all_own :
      deffs.filter (fun deff => deff.accountId = (db.ratingAccount mode).next) = deffs :=
    List.filter_eq_self.mpr fun deff member => decide_eq_true (own.account deff member)
  unfold AccountDatabase.entry
  rw [AccountDatabase.deff_withAccount, SerialTable.values_insertAll, none_old, all_own]
  rfl

theorem book_withAccount (sound : db.HandedOut) (own : OwnPlans db mode deffs) :
    (db.withAccount mode row fresh deffs).book =
      db.book.enter mode row.name
        { payer := (db.billingAccount.get? row.billingAccountId).map BillingAccount.username
          plans := deffs.map fun deff =>
            ((db.billPlan.get? deff.billPlanId).map BillPlan.name, deff.nadi) } := by
  have kept : Kept db (db.withAccount mode row fresh deffs) := kept_withAccount own
  refine AccountBook.ext ?_ rfl
  funext mode' name
  simp only [AccountDatabase.book, AccountBook.enter]
  by_cases same : mode' = mode
  · subst mode'
    rw [Function.update_self, AccountDatabase.ratingAccount_withAccount,
      NamedTable.find_insertNew]
    by_cases named : row.name = name
    · subst name
      rw [if_pos rfl, Function.update_self, Option.map_some, entry_withAccount sound own]
    · rw [if_neg named, Function.update_of_ne (Ne.symm named)]
      refine Option.map_congr fun row found => ?_
      exact kept.entry_eq sound (NamedTable.find_eq_some_iff.mp found).1
  · rw [Function.update_of_ne same, AccountDatabase.ratingAccount_withAccount_of_ne same]
    refine Option.map_congr fun row found => ?_
    exact kept.entry_eq sound (NamedTable.find_eq_some_iff.mp found).1

end WithAccount

/-- An identifier that a name finds was handed out, and its row has the name. -/
theorem username_of_known {payer : String} {id : ℕ}
    (known : db.getBillingAccountId payer = some id) :
    id < db.billingAccount.next ∧
      (db.billingAccount.get? id).map BillingAccount.username = some payer := by
  obtain ⟨row, member, named⟩ := NamedTable.keyOf_eq_some_iff.mp known
  refine ⟨SerialTable.lt_next_of_mem member, ?_⟩
  rw [SerialTable.get?_eq_some_iff.mpr member, Option.map_some, named]

theorem name_of_known {plan : String} {id : ℕ} (known : db.getBillPlanId plan = some id) :
    id < db.billPlan.next ∧ (db.billPlan.get? id).map BillPlan.name = some plan := by
  obtain ⟨row, member, named⟩ := NamedTable.keyOf_eq_some_iff.mp known
  refine ⟨SerialTable.lt_next_of_mem member, ?_⟩
  rw [SerialTable.get?_eq_some_iff.mpr member, Option.map_some, named]

/-- An account with a plan that is known, or without one. -/
theorem leaves_withAccount (sound : db.HandedOut) {mode : RatingMode} {name payer : String}
    {payerId : ℕ} (plans : List (String × ℕ)) (nadi : Option (Option ℤ × Option ℤ))
    (fresh : name ∉ (db.ratingAccount mode).rows.map fun row => row.2.name)
    (payer_known : db.getBillingAccountId payer = some payerId)
    (plans_known : ∀ plan ∈ plans, db.getBillPlanId plan.1 = some plan.2) :
    Leaves (db.book.enter mode name ⟨some payer, plans.map fun plan => (some plan.1, nadi)⟩) db
      (db.withAccount mode ⟨name, payerId⟩ fresh
        (plans.map fun plan => ⟨(db.ratingAccount mode).next, plan.2, nadi⟩)) := by
  have own : OwnPlans db mode
      (plans.map fun plan => ⟨(db.ratingAccount mode).next, plan.2, nadi⟩) := by
    constructor <;> rintro _ member <;> obtain ⟨plan, plan_mem, rfl⟩ := List.mem_map.mp member
    · rfl
    · exact (name_of_known (plans_known plan plan_mem)).1
  obtain ⟨payer_lt, payer_name⟩ := username_of_known payer_known
  refine ⟨rfl, kept_withAccount own, handedOut_withAccount sound payer_lt own, ?_⟩
  rw [book_withAccount sound own, payer_name, List.map_map]
  congr 2
  refine List.map_congr_left fun plan plan_mem => ?_
  simp only [Function.comp_apply, (name_of_known (plans_known plan plan_mem)).2]

/-- Both rows are inserted, or the second is refused. -/
theorem ensures_insertAccountRows (sound : db.HandedOut) {mode : RatingMode} {name payer : String}
    {payerId : ℕ} {plan : Option String} {planId : Option ℕ}
    {nadi : Option (Option ℤ × Option ℤ)}
    (payer_known : db.getBillingAccountId payer = some payerId)
    (plan_known : Option.Rel (fun name id => db.getBillPlanId name = some id) plan planId) :
    Ensures
      (fun _ t => ∃ own, plan = some own ∧
        Leaves (db.book.enter mode name ⟨some payer, [(some own, nadi)]⟩) db t)
      (fun t => t = db ∨ Leaves (db.book.enter mode name ⟨some payer, []⟩) db t)
      (insertAccountRows mode name payerId planId nadi) db := by
  have inserted_row : Ensures
      (fun rid t => rid = (db.ratingAccount mode).next ∧
        ∃ fresh, t = db.withAccount mode ⟨name, payerId⟩ fresh [])
      (fun t => t = db ∨ Leaves (db.book.enter mode name ⟨some payer, []⟩) db t)
      (insertAccountRow mode name payerId) db := by
    refine ensures_statement (fun id t inserted => ?_) fun _ => .inl rfl
    split at inserted
    · rename_i accepted
      obtain ⟨rfl, rfl⟩ := Prod.mk.inj (Option.some.inj inserted)
      refine ⟨rfl, accepted.2, ?_⟩
      simp [AccountDatabase.withAccount, SerialTable.insertAll]
    · cases inserted
  refine ensures_bind inserted_row fun {rid t} done => ?_
  obtain ⟨rid_eq, fresh, t_eq⟩ := done
  subst rid t
  have without : Leaves (db.book.enter mode name ⟨some payer, []⟩) db
      (db.withAccount mode ⟨name, payerId⟩ fresh []) :=
    leaves_withAccount sound [] nadi fresh payer_known (by simp)
  refine ensures_statement (fun _ t inserted => ?_) fun _ => .inr without
  cases plan_known with
  | none => cases inserted
  | some known =>
      rename_i own id
      simp only at inserted
      split at inserted
      · obtain ⟨-, rfl⟩ := Prod.mk.inj (Option.some.inj inserted)
        refine ⟨own, rfl, ?_⟩
        have both := leaves_withAccount sound [(own, id)] nadi fresh payer_known
          (by simpa using known)
        simpa [AccountDatabase.withAccount, SerialTable.insertAll] using both
      · cases inserted

/-! ## Cards -/

theorem sqlEq_some_left {α : Type} [DecidableEq α] {a : α} {y : Option α} :
    sqlEq (some a) y = true ↔ y = some a := by
  cases y <;> simp [sqlEq, eq_comm]

theorem sqlEq_iff {α : Type} [DecidableEq α] {x y : Option α} :
    sqlEq x y = true ↔ x.isSome ∧ y = x := by
  cases x with
  | none => simp [sqlEq]
  | some a => simp [sqlEq_some_left]

variable {typeId : ℕ} {statusId : Option ℕ} {amount : Option ℚ} {start stop : Option String}

theorem cardOf_eq_some_iff {card : Card} :
    cardOf typeId statusId amount start stop = some card ↔
      card.typeId = typeId ∧ statusId = some card.statusId ∧ amount = some card.amount ∧
        start = card.startDate ∧ stop = card.endDate := by
  constructor
  · intro made
    unfold cardOf at made
    split at made
    · split at made
      · obtain rfl := Option.some.inj made
        exact ⟨rfl, rfl, rfl, rfl, rfl⟩
      · cases made
    · cases made
  · rintro ⟨rfl, rfl, rfl, rfl, rfl⟩
    exact dif_pos ⟨card.startDate_fits, card.endDate_fits⟩

/-- A card is found again if it has both dates. -/
theorem isSome_getPcardId {bacc : ℕ} :
    (db.getPcardId bacc typeId statusId amount start stop).isSome ↔
      ∃ row ∈ db.pcard.rows, row.2.billingAccountId = bacc ∧ row.2.card.Dated ∧
        cardOf typeId statusId amount start stop = some row.2.card := by
  rw [AccountDatabase.getPcardId, Option.isSome_map, List.find?_isSome]
  refine exists_congr fun row => and_congr_right fun _ => ?_
  rw [decide_eq_true_eq, sqlEq_some_left, sqlEq_some_left, sqlEq_iff, sqlEq_iff,
    cardOf_eq_some_iff, Card.Dated]
  tauto

/-- A new card of a payer. -/
theorem leaves_insertPcard (sound : db.HandedOut) {payer : String} {id : ℕ}
    (known : db.getBillingAccountId payer = some id) (card : Card) :
    Leaves
      { db.book with
        cards := Function.update db.book.cards payer (db.book.cards payer ++ [card]) } db
      { db with pcard := db.pcard.insert { billingAccountId := id, card } } := by
  refine ⟨rfl, ⟨.refl _, .refl _, fun _ => .refl _, fun _ => ⟨[], by simp, by simp⟩⟩, ?_,
    AccountBook.ext rfl ?_⟩
  · refine { sound with card := fun row member => ?_ }
    rcases SerialTable.mem_insert.mp member with old | ⟨-, new⟩
    · exact sound.card row old
    · rw [new]
      exact (username_of_known known).1
  · funext name
    simp only [AccountDatabase.book]
    by_cases own : name = payer
    · subst name
      rw [Function.update_self, known]
      simp only [AccountDatabase.getBillingAccountId] at known
      simp only [AccountDatabase.getBillingAccountId, known, Option.elim_some,
        SerialTable.values_insert, decide_true, if_true, List.map_append, List.map_cons,
        List.map_nil]
    · rw [Function.update_of_ne own]
      simp only [AccountDatabase.getBillingAccountId]
      cases other : db.billingAccount.keyOf name with
      | none => rfl
      | some id' =>
          have distinct : id ≠ id' := fun same =>
            own (NamedTable.name_eq_of_keyOf other (same ▸ known))
          simp only [Option.elim_some, SerialTable.values_insert, decide_eq_false distinct,
            Bool.false_eq_true, if_false, List.append_nil]

/-- The card of a row is offered. -/
theorem ensures_pcard (sound : db.HandedOut) {payer : String} {id : ℕ}
    (known : db.getBillingAccountId payer = some id) (start_filled : start.filter (· ≠ "") = start)
    (stop_filled : stop.filter (· ≠ "") = stop) :
    Ensures
      (fun _ t => ∃ card, cardOf typeId statusId amount start stop = some card ∧
        Leaves (db.book.offer (.card payer card)) db t)
      (· = db)
      (findOr (·.getPcardId id typeId statusId amount start stop)
        (insertPcard id typeId statusId amount start stop)) db := by
  have mem_cards {card : Card} : card ∈ db.book.cards payer ↔
      ∃ row ∈ db.pcard.rows, row.2.billingAccountId = id ∧ row.2.card = card := by
    simp only [AccountDatabase.book, known, Option.elim_some, SerialTable.values,
      SerialTable.select, List.map_map, List.mem_map, List.mem_filter, decide_eq_true_eq,
      and_assoc, Function.comp_apply]
  refine ensures_findOr (fun key found => ?_) fun unfound => ?_
  · obtain ⟨row, member, own, dated, card_eq⟩ :=
      isSome_getPcardId.mp (Option.isSome_of_eq_some found)
    refine ⟨row.2.card, card_eq, ?_⟩
    have there : offerCard (db.book.cards payer) row.2.card = db.book.cards payer :=
      if_pos ⟨dated, mem_cards.mpr ⟨row, member, own, rfl⟩⟩
    rw [AccountBook.offer, there, Function.update_eq_self]
    exact .refl sound
  · refine ensures_statement (fun key t inserted => ?_) fun _ => rfl
    rw [start_filled, stop_filled] at inserted
    obtain ⟨card, card_eq, done⟩ := Option.map_eq_some_iff.mp inserted
    obtain ⟨-, rfl⟩ := Prod.mk.inj done
    refine ⟨card, card_eq, ?_⟩
    have new : ¬ (card.Dated ∧ card ∈ db.book.cards payer) := by
      rintro ⟨dated, old⟩
      obtain ⟨row, member, own, rfl⟩ := mem_cards.mp old
      have found := isSome_getPcardId.mpr ⟨row, member, own, dated, card_eq⟩
      rw [unfound] at found
      cases found
    rw [AccountBook.offer, offerCard, if_neg new]
    exact leaves_insertPcard sound known card

end RateEngine.ReCli
