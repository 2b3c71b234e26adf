import RateEngine.BplanImport

/-!
# How an import changes the tables

An import only inserts.  A new rate belongs to a plan that the input names, and a new calc function
to a tariff that the input names, at a position that the tariff did not have.  References are to
identifiers that a serial column has handed out, so a new row is never mistaken for an old one.
-/

namespace RateEngine.ReCli

/-- Every reference is to an identifier that was handed out. -/
structure Database.HandedOut (db : Database) : Prop where
  rate_billPlan : ∀ row ∈ db.rate.rows, row.2.billPlanId < db.billPlan.next
  rate_tariff : ∀ row ∈ db.rate.rows, row.2.tariffId < db.tariff.next
  rate_prefixes : ∀ row ∈ db.rate.rows, row.2.prefixId < db.prefixes.next
  function_tariff : ∀ row ∈ db.calcFunction.rows, row.2.tariffId < db.tariff.next
  tree_billPlan : ∀ row ∈ db.billPlanTree.rows, row.2.billPlanId < db.billPlan.next
  tree_root : ∀ row ∈ db.billPlanTree.rows, row.2.rootBplanId < db.billPlan.next

/-- The tables have grown by some plans, rates of them and calc functions of some tariffs, and
references are still to identifiers that were handed out. -/
structure Grows (plans tariffs : List String) (db db' : Database) : Prop where
  billPlan : db.billPlan.Extends db'.billPlan.toSerialTable
  other_plans : ∀ name, name ∉ plans → db'.getBillPlanId name = db.getBillPlanId name
  prefixes : db.prefixes.Extends db'.prefixes.toSerialTable
  tariff : db.tariff.Extends db'.tariff.toSerialTable
  rate : ∃ new, db'.rate.rows = db.rate.rows ++ new ∧
    ∀ row ∈ new, ∃ name ∈ plans, db'.getBillPlanId name = some row.2.billPlanId
  calcFunction : ∃ new, db'.calcFunction.rows = db.calcFunction.rows ++ new ∧
    ∀ row ∈ new, (∃ name ∈ tariffs, db'.tariff.keyOf name = some row.2.tariffId) ∧
      ∀ old ∈ db.tariffCalcs row.2.tariffId, old.pos ≠ row.2.pos
  billPlanTree : db'.billPlanTree = db.billPlanTree
  billPlanType : db'.billPlanType = db.billPlanType
  freeBillsec : db'.freeBillsec = db.freeBillsec
  handedOut : db.HandedOut → db'.HandedOut

namespace Grows

variable {plans tariffs : List String} {db db' db'' : Database}

theorem refl (db : Database) : Grows plans tariffs db db where
  billPlan := .refl _
  other_plans _ _ := rfl
  prefixes := .refl _
  tariff := .refl _
  rate := ⟨[], by simp, by simp⟩
  calcFunction := ⟨[], by simp, by simp⟩
  billPlanTree := rfl
  billPlanType := rfl
  freeBillsec := rfl
  handedOut := id

theorem getBillPlanId (grown : Grows plans tariffs db db') {name : String} {id : ℕ}
    (known : db.getBillPlanId name = some id) : db'.getBillPlanId name = some id :=
  NamedTable.keyOf_of_extends grown.billPlan known

theorem isSome_getBillPlanId (grown : Grows plans tariffs db db') {name : String}
    (known : (db.getBillPlanId name).isSome) : (db'.getBillPlanId name).isSome := by
  obtain ⟨id, known⟩ := Option.isSome_iff_exists.mp known
  exact Option.isSome_of_eq_some (grown.getBillPlanId known)

theorem keyOf_tariff (grown : Grows plans tariffs db db') {name : String} {id : ℕ}
    (known : db.tariff.keyOf name = some id) : db'.tariff.keyOf name = some id :=
  NamedTable.keyOf_of_extends grown.tariff known

theorem trans (first : Grows plans tariffs db db') (later : Grows plans tariffs db' db'') :
    Grows plans tariffs db db'' where
  billPlan := first.billPlan.trans later.billPlan
  other_plans name other := (later.other_plans name other).trans (first.other_plans name other)
  prefixes := first.prefixes.trans later.prefixes
  tariff := first.tariff.trans later.tariff
  rate := by
    obtain ⟨new, rows, named⟩ := first.rate
    obtain ⟨new', rows', named'⟩ := later.rate
    refine ⟨new ++ new', by rw [rows', rows, List.append_assoc], fun row member => ?_⟩
    rcases List.mem_append.mp member with old | new
    · obtain ⟨name, mem, known⟩ := named row old
      exact ⟨name, mem, later.getBillPlanId known⟩
    · exact named' row new
  calcFunction := by
    obtain ⟨new, rows, named⟩ := first.calcFunction
    obtain ⟨new', rows', named'⟩ := later.calcFunction
    refine ⟨new ++ new', by rw [rows', rows, List.append_assoc], fun row member => ?_⟩
    rcases List.mem_append.mp member with old | new
    · obtain ⟨⟨name, mem, known⟩, fresh⟩ := named row old
      exact ⟨⟨name, mem, later.keyOf_tariff known⟩, fresh⟩
    · refine ⟨(named' row new).1, fun function old => (named' row new).2 function ?_⟩
      obtain ⟨row', member', rfl⟩ := List.mem_map.mp old
      refine List.mem_map.mpr ⟨row', ?_, rfl⟩
      rw [rows, List.filter_append]
      exact List.mem_append_left _ member'
  billPlanTree := later.billPlanTree.trans first.billPlanTree
  billPlanType := later.billPlanType.trans first.billPlanType
  freeBillsec := later.freeBillsec.trans first.freeBillsec
  handedOut sound := later.handedOut (first.handedOut sound)

instance : IsPreorder Database (Grows plans tariffs) where
  refl := refl
  trans _ _ _ := trans

/-- A rate keeps its tariff and its prefix. -/
theorem rateData_eq (grown : Grows plans tariffs db db') (sound : db.HandedOut) {row : ℕ × Rate}
    (member : row ∈ db.rate.rows) : db'.rateData row.2 = db.rateData row.2 := by
  unfold Database.rateData
  rw [grown.tariff.get?_eq (sound.rate_tariff row member),
    grown.prefixes.get?_eq (sound.rate_prefixes row member)]

/-- New rates have the identifiers of plans of the input. -/
theorem planRates_eq (grown : Grows plans tariffs db db') (sound : db.HandedOut) {id : ℕ}
    (others : ∀ name ∈ plans, db'.getBillPlanId name ≠ some id) :
    db'.planRates id = db.planRates id := by
  obtain ⟨new, rows, named⟩ := grown.rate
  have none_new : new.filter (fun row => row.2.billPlanId = id) = [] := by
    refine List.filter_eq_nil_iff.mpr fun row member same => ?_
    obtain ⟨name, mem, known⟩ := named row member
    exact others name mem (of_decide_eq_true same ▸ known)
  rw [Database.planRates, rows, List.filter_append, none_new, List.append_nil]
  refine List.filterMap_congr fun row member => ?_
  exact grown.rateData_eq sound (List.mem_of_mem_filter member)

/-- The calc functions of a tariff grow at new positions, and only for tariffs of the input. -/
theorem exists_tariffCalcs_eq (grown : Grows plans tariffs db db') (id : ℕ) :
    ∃ added, db'.tariffCalcs id = db.tariffCalcs id ++ added ∧
      (∀ row ∈ added, ∀ old ∈ db.tariffCalcs id, old.pos ≠ row.pos) ∧
      ∀ name, db'.tariff.keyOf name = some id → name ∉ tariffs → added = [] := by
  obtain ⟨new, rows, named⟩ := grown.calcFunction
  refine ⟨(new.filter fun row => row.2.tariffId = id).map Prod.snd, ?_, ?_, ?_⟩
  · rw [Database.tariffCalcs, rows, List.filter_append, List.map_append, ← Database.tariffCalcs]
  · intro function member
    obtain ⟨row, mem, rfl⟩ := List.mem_map.mp member
    obtain ⟨mem, own⟩ := List.mem_filter.mp mem
    exact of_decide_eq_true own ▸ (named row mem).2
  · intro name known unnamed
    rw [List.map_eq_nil_iff, List.filter_eq_nil_iff]
    intro row mem own
    obtain ⟨⟨other, other_mem, other_known⟩, -⟩ := named row mem
    rw [of_decide_eq_true own] at other_known
    exact unnamed (NamedTable.name_eq_of_keyOf known other_known ▸ other_mem)

end Grows

/-! ## Inserts -/

section Inserts

variable {plans tariffs : List String} {db : Database}

theorem grows_insertBillPlan (row : BillPlan)
    (fresh : row.name ∉ db.billPlan.rows.map fun row => row.2.name) (named : row.name ∈ plans) :
    Grows plans tariffs db { db with billPlan := db.billPlan.insertNew row fresh } where
  billPlan := .insert _ row
  other_plans name other := by
    have distinct : row.name ≠ name := fun same => other (same ▸ named)
    exact (NamedTable.keyOf_insertNew fresh).trans (if_neg distinct)
  prefixes := .refl _
  tariff := .refl _
  rate := ⟨[], by simp, by simp⟩
  calcFunction := ⟨[], by simp, by simp⟩
  billPlanTree := rfl
  billPlanType := rfl
  freeBillsec := rfl
  handedOut sound :=
    { sound with
      rate_billPlan := fun rate mem => Nat.lt_succ_of_lt (sound.rate_billPlan rate mem)
      tree_billPlan := fun tree mem => Nat.lt_succ_of_lt (sound.tree_billPlan tree mem)
      tree_root := fun tree mem => Nat.lt_succ_of_lt (sound.tree_root tree mem) }

theorem grows_insertPrefix (row : Prefix)
    (fresh : row.prefixStr ∉ db.prefixes.rows.map fun row => row.2.prefixStr) :
    Grows plans tariffs db { db with prefixes := db.prefixes.insertNew row fresh } where
  billPlan := .refl _
  other_plans _ _ := rfl
  prefixes := .insert _ row
  tariff := .refl _
  rate := ⟨[], by simp, by simp⟩
  calcFunction := ⟨[], by simp, by simp⟩
  billPlanTree := rfl
  billPlanType := rfl
  freeBillsec := rfl
  handedOut sound :=
    { sound with
      rate_prefixes := fun rate mem => Nat.lt_succ_of_lt (sound.rate_prefixes rate mem) }

theorem grows_insertTariff (row : Tariff)
    (fresh : row.name ∉ db.tariff.rows.map fun row => row.2.name) :
    Grows plans tariffs db { db with tariff := db.tariff.insertNew row fresh } where
  billPlan := .refl _
  other_plans _ _ := rfl
  prefixes := .refl _
  tariff := .insert _ row
  rate := ⟨[], by simp, by simp⟩
  calcFunction := ⟨[], by simp, by simp⟩
  billPlanTree := rfl
  billPlanType := rfl
  freeBillsec := rfl
  handedOut sound :=
    { sound with
      rate_tariff := fun rate mem => Nat.lt_succ_of_lt (sound.rate_tariff rate mem)
      function_tariff := fun row mem => Nat.lt_succ_of_lt (sound.function_tariff row mem) }

/-- The identifiers of the new rate are those of a plan of the input and of rows that are there. -/
theorem grows_insertRate {row : Rate} {plan : String} (named : plan ∈ plans)
    (own : db.getBillPlanId plan = some row.billPlanId) (tariff_lt : row.tariffId < db.tariff.next)
    (prefix_lt : row.prefixId < db.prefixes.next) :
    Grows plans tariffs db { db with rate := db.rate.insert row } where
  billPlan := .refl _
  other_plans _ _ := rfl
  prefixes := .refl _
  tariff := .refl _
  rate := ⟨[(db.rate.next, row)], rfl, by simpa using ⟨plan, named, own⟩⟩
  calcFunction := ⟨[], by simp, by simp⟩
  billPlanTree := rfl
  billPlanType := rfl
  freeBillsec := rfl
  handedOut sound := by
    obtain ⟨value, member, -⟩ := NamedTable.keyOf_eq_some_iff.mp own
    have plan_lt : row.billPlanId < db.billPlan.next := SerialTable.lt_next_of_mem member
    have all {ref : Rate → ℕ} {next : ℕ} (old : ∀ rate ∈ db.rate.rows, ref rate.2 < next)
        (new : ref row < next) : ∀ rate ∈ (db.rate.insert row).rows, ref rate.2 < next := by
      intro rate member
      rcases List.mem_append.mp member with known | added
      · exact old rate known
      · exact List.mem_singleton.mp added ▸ new
    exact
      { sound with
        rate_billPlan := all sound.rate_billPlan plan_lt
        rate_tariff := all sound.rate_tariff tariff_lt
        rate_prefixes := all sound.rate_prefixes prefix_lt }

/-- The new calc function belongs to a tariff of the input, which has none at its position. -/
theorem grows_insertFunction {row : CalcFunction} {tariff : String} (named : tariff ∈ tariffs)
    (own : db.tariff.keyOf tariff = some row.tariffId)
    (fresh : ∀ old ∈ db.tariffCalcs row.tariffId, old.pos ≠ row.pos) :
    Grows plans tariffs db { db with calcFunction := db.calcFunction.insert row } where
  billPlan := .refl _
  other_plans _ _ := rfl
  prefixes := .refl _
  tariff := .refl _
  rate := ⟨[], by simp, by simp⟩
  calcFunction := ⟨[(db.calcFunction.next, row)], rfl, by
    simpa using ⟨⟨tariff, named, own⟩, fresh⟩⟩
  billPlanTree := rfl
  billPlanType := rfl
  freeBillsec := rfl
  handedOut sound := by
    obtain ⟨value, member, -⟩ := NamedTable.keyOf_eq_some_iff.mp own
    refine { sound with function_tariff := fun function mem => ?_ }
    rcases List.mem_append.mp mem with known | added
    · exact sound.function_tariff function known
    · exact List.mem_singleton.mp added ▸ SerialTable.lt_next_of_mem member

end Inserts

end RateEngine.ReCli
