import RateEngine.BplanGrowth
import RateEngine.Lib.KeepFirst

/-!
# The catalogue of bill plans

By names, the tables say which prefixes and tariffs a plan has, which free seconds a tariff has and
which calc functions.  An input says the same, in the order of its entries.  The catalogue after it
is imported is the catalogue before, to which its entries were offered: of each tariff the first
free seconds stay, and of each position of a tariff the first calc function.
-/

namespace RateEngine.ReCli

/-! ## Catalogues -/

/-- Prefixes and tariffs of the plans, free seconds and calc functions of the tariffs. -/
@[ext]
structure Catalogue where
  rates : String → List (String × String)
  free : String → Option ℤ
  functions : String → List (ModelFunction ℚ)

/-- A rate of a plan, with the free seconds of its tariff. -/
structure RateEntry where
  plan : String
  prefixStr : String
  tariff : String
  free : ℤ

/-- What an input says: rates, and calc functions of tariffs. -/
structure Provisions where
  rates : List RateEntry := []
  functions : List (String × ModelFunction ℚ) := []

/-- One input after the other. -/
instance : Append Provisions where
  append p q := ⟨p.rates ++ q.rates, p.functions ++ q.functions⟩

/-- Prefix and tariff of a rate. -/
def RateEntry.pair (entry : RateEntry) : String × String := (entry.prefixStr, entry.tariff)

/-- The entries of an input offered to a catalogue. -/
def Catalogue.merge (catalogue : Catalogue) (p : Provisions) : Catalogue where
  rates plan := KeepFirst.merge id (catalogue.rates plan)
    ((p.rates.filter fun entry => entry.plan = plan).map RateEntry.pair)
  free tariff := (catalogue.free tariff).or
    ((p.rates.find? fun entry => entry.tariff = tariff).map RateEntry.free)
  functions tariff := KeepFirst.merge ModelFunction.pos (catalogue.functions tariff)
    ((p.functions.filter fun entry => entry.1 = tariff).map Prod.snd)

theorem Catalogue.merge_append (catalogue : Catalogue) (p q : Provisions) :
    catalogue.merge (p ++ q) = (catalogue.merge p).merge q := by
  have rates : (p ++ q).rates = p.rates ++ q.rates := rfl
  have functions : (p ++ q).functions = p.functions ++ q.functions := rfl
  ext1
  · funext plan
    simp only [merge, rates, List.filter_append, List.map_append, KeepFirst.merge_append]
  · funext tariff
    simp only [merge, rates, List.find?_append, Option.map_or, Option.or_assoc]
  · funext tariff
    simp only [merge, functions, List.filter_append, List.map_append, KeepFirst.merge_append]

@[simp]
theorem Catalogue.merge_empty (catalogue : Catalogue) : catalogue.merge {} = catalogue := by
  ext1 <;> simp [merge]

/-! ## One entry -/

/-- Offer a calc function for a tariff. -/
def Catalogue.offerFunction (catalogue : Catalogue) (tariff : String) (row : ModelFunction ℚ) :
    Catalogue :=
  { catalogue with
    functions := fun other =>
      if tariff = other then KeepFirst.add ModelFunction.pos (catalogue.functions other) row
      else catalogue.functions other }

/-- Offer the free seconds of a tariff. -/
def Catalogue.offerFree (catalogue : Catalogue) (tariff : String) (free : ℤ) : Catalogue :=
  { catalogue with
    free := fun other =>
      (catalogue.free other).or (if tariff = other then some free else none) }

/-- Offer a rate of a plan. -/
def Catalogue.offerRate (catalogue : Catalogue) (plan : String) (pair : String × String) :
    Catalogue :=
  { catalogue with
    rates := fun other =>
      if plan = other then KeepFirst.add id (catalogue.rates other) pair
      else catalogue.rates other }

theorem Catalogue.offerFunction_of_free {catalogue : Catalogue} {tariff : String}
    {row : ModelFunction ℚ}
    (free : row.pos ∉ (catalogue.functions tariff).map ModelFunction.pos) :
    catalogue.offerFunction tariff row =
      { catalogue with
        functions := fun other =>
          if tariff = other then catalogue.functions other ++ [row]
          else catalogue.functions other } := by
  ext1
  · rfl
  · rfl
  · funext other
    simp only [offerFunction]
    split
    · rename_i own
      rw [KeepFirst.add, if_neg (own ▸ free)]
    · rfl

theorem Catalogue.offerRate_of_free {catalogue : Catalogue} {plan : String}
    {pair : String × String} (free : pair ∉ catalogue.rates plan) :
    catalogue.offerRate plan pair =
      { catalogue with
        rates := fun other =>
          if plan = other then catalogue.rates other ++ [pair] else catalogue.rates other } := by
  ext1
  · funext other
    simp only [offerRate]
    split
    · rename_i own
      rw [KeepFirst.add, List.map_id, id_eq, if_neg (own ▸ free)]
    · rfl
  · rfl
  · rfl

theorem Catalogue.offerRate_of_taken {catalogue : Catalogue} {plan : String}
    {pair : String × String} (taken : pair ∈ catalogue.rates plan) :
    catalogue.offerRate plan pair = catalogue := by
  ext1
  · funext other
    simp only [offerRate]
    split
    · rename_i own
      rw [KeepFirst.add, List.map_id, id_eq, if_pos (own ▸ taken)]
    · rfl
  · rfl
  · rfl

theorem Catalogue.merge_function (catalogue : Catalogue) (tariff : String) (row : ModelFunction ℚ) :
    catalogue.merge { functions := [(tariff, row)] } = catalogue.offerFunction tariff row := by
  ext1
  · simp [merge, offerFunction]
  · simp [merge, offerFunction]
  · funext other
    by_cases own : tariff = other <;>
      simp [merge, offerFunction, own, KeepFirst.merge_cons]

/-- Calc functions at taken positions change nothing. -/
theorem Catalogue.merge_of_taken {catalogue : Catalogue} {tariff : String}
    {rows : List (ModelFunction ℚ)}
    (taken : ∀ row ∈ rows, row.pos ∈ (catalogue.functions tariff).map ModelFunction.pos) :
    catalogue.merge { functions := rows.map fun row => (tariff, row) } = catalogue := by
  ext1
  · simp [merge]
  · simp [merge]
  · funext other
    by_cases own : tariff = other
    · subst own
      have all : (rows.map fun row => (tariff, row)).filter (fun entry => entry.1 = tariff) =
          rows.map fun row => (tariff, row) := List.filter_eq_self.mpr (by simp)
      simp only [merge, all, List.map_map]
      exact KeepFirst.merge_of_taken _ (by simpa using taken)
    · have none_own :
          (rows.map fun row => (tariff, row)).filter (fun entry => entry.1 = other) = [] :=
        List.filter_eq_nil_iff.mpr (by simp [own])
      simp only [merge, none_own, List.map_nil, KeepFirst.merge_nil]

theorem Catalogue.merge_rate (catalogue : Catalogue) (entry : RateEntry) :
    catalogue.merge { rates := [entry] } =
      (catalogue.offerFree entry.tariff entry.free).offerRate entry.plan entry.pair := by
  ext1
  · funext other
    by_cases own : entry.plan = other <;>
      simp [merge, offerRate, offerFree, own, KeepFirst.merge_cons]
  · funext other
    by_cases own : entry.tariff = other <;> simp [merge, offerRate, offerFree, own]
  · simp [merge, offerRate, offerFree]

/-! ## The catalogue of the tables -/

/-- The catalogue of the tables. -/
def Database.catalogue (db : Database) : Catalogue where
  rates plan := (db.getBillPlanId plan).elim [] fun id =>
    (db.planRates id).map fun rate => (rate.prefixStr, rate.tariff)
  free tariff := (db.tariff.find tariff).map fun row => row.2.freeBillsecId
  functions tariff := (db.tariff.keyOf tariff).elim [] fun id =>
    (db.tariffCalcs id).map collectFunction

/-! ## Inserts -/

section Inserts

variable {db : Database} (sound : db.HandedOut)
include sound

/-- A new plan has no rates. -/
theorem catalogue_insertBillPlan (row : BillPlan)
    (fresh : row.name ∉ db.billPlan.rows.map fun row => row.2.name) :
    ({ db with billPlan := db.billPlan.insertNew row fresh } : Database).catalogue =
      db.catalogue := by
  have unrated : db.planRates db.billPlan.next = [] := by
    have none_new : db.rate.rows.filter (fun row => row.2.billPlanId = db.billPlan.next) = [] :=
      List.filter_eq_nil_iff.mpr fun rate member same =>
        (sound.rate_billPlan rate member).ne (of_decide_eq_true same)
    rw [Database.planRates, none_new, List.filterMap_nil]
  ext1
  · funext plan
    simp only [Database.catalogue, Database.getBillPlanId, NamedTable.keyOf_insertNew]
    split
    · rename_i own
      have unknown : db.billPlan.keyOf plan = none :=
        NamedTable.keyOf_eq_none_iff.mpr (own ▸ fresh)
      rw [unknown]
      exact congrArg (List.map _) unrated
    · rfl
  · rfl
  · rfl

/-- A new prefix has no rates. -/
theorem catalogue_insertPrefix (row : Prefix)
    (fresh : row.prefixStr ∉ db.prefixes.rows.map fun row => row.2.prefixStr) :
    ({ db with prefixes := db.prefixes.insertNew row fresh } : Database).catalogue =
      db.catalogue := by
  have grown : Grows [] [] db { db with prefixes := db.prefixes.insertNew row fresh } :=
    grows_insertPrefix row fresh
  ext1
  · funext plan
    have same (id : ℕ) :
        Database.planRates { db with prefixes := db.prefixes.insertNew row fresh } id =
        db.planRates id := grown.planRates_eq sound (by simp)
    simp only [Database.catalogue, same]
    rfl
  · rfl
  · rfl

/-- A new tariff has its free seconds, and neither rates nor calc functions. -/
theorem catalogue_insertTariff (row : Tariff)
    (fresh : row.name ∉ db.tariff.rows.map fun row => row.2.name) :
    ({ db with tariff := db.tariff.insertNew row fresh } : Database).catalogue =
      { db.catalogue with
        free := fun tariff =>
          if row.name = tariff then some row.freeBillsecId else db.catalogue.free tariff } := by
  have grown : Grows [] [] db { db with tariff := db.tariff.insertNew row fresh } :=
    grows_insertTariff row fresh
  have unused : db.tariffCalcs db.tariff.next = [] := by
    have none_new : db.calcFunction.rows.filter (fun row => row.2.tariffId = db.tariff.next) = [] :=
      List.filter_eq_nil_iff.mpr fun function member same =>
        (sound.function_tariff function member).ne (of_decide_eq_true same)
    rw [Database.tariffCalcs, none_new, List.map_nil]
  ext1
  · funext plan
    have same (id : ℕ) : Database.planRates { db with tariff := db.tariff.insertNew row fresh } id =
        db.planRates id := grown.planRates_eq sound (by simp)
    simp only [Database.catalogue, same]
    rfl
  · funext tariff
    simp only [Database.catalogue, NamedTable.find_insertNew]
    split <;> rfl
  · funext tariff
    simp only [Database.catalogue, NamedTable.keyOf_insertNew]
    split
    · rename_i own
      have unknown : db.tariff.keyOf tariff = none :=
        NamedTable.keyOf_eq_none_iff.mpr (own ▸ fresh)
      rw [unknown]
      exact congrArg (List.map _) unused
    · rfl

omit sound in
/-- A new rate of a plan joins its prefix and its tariff. -/
theorem catalogue_insertRate {row : Rate} {plan prefixStr tariff : String}
    (plan_eq : db.getBillPlanId plan = some row.billPlanId)
    (prefix_eq : db.prefixes.keyOf prefixStr = some row.prefixId)
    (tariff_eq : db.tariff.keyOf tariff = some row.tariffId) :
    ({ db with rate := db.rate.insert row } : Database).catalogue =
      { db.catalogue with
        rates := fun other =>
          if plan = other then db.catalogue.rates other ++ [(prefixStr, tariff)]
          else db.catalogue.rates other } := by
  obtain ⟨pre, pre_mem, rfl⟩ := NamedTable.keyOf_eq_some_iff.mp prefix_eq
  obtain ⟨tr, tr_mem, rfl⟩ := NamedTable.keyOf_eq_some_iff.mp tariff_eq
  have data : db.rateData row = some ⟨row.tariffId, tr.name, row.prefixId, pre.prefixStr⟩ := by
    rw [Database.rateData, SerialTable.get?_eq_some_iff.mpr tr_mem,
      SerialTable.get?_eq_some_iff.mpr pre_mem]
    rfl
  have rates (id : ℕ) : Database.planRates { db with rate := db.rate.insert row } id =
      db.planRates id ++ if row.billPlanId = id then
        [⟨row.tariffId, tr.name, row.prefixId, pre.prefixStr⟩] else [] := by
    simp only [Database.planRates, SerialTable.insert, List.filter_append, List.filterMap_append]
    congr 1
    by_cases own : row.billPlanId = id
    · have kept : [(db.rate.next, row)].filter (fun row => row.2.billPlanId = id) =
          [(db.rate.next, row)] := by simp [own]
      rw [if_pos own, kept]
      exact List.filterMap_cons_some data
    · have dropped : [(db.rate.next, row)].filter (fun row => row.2.billPlanId = id) = [] := by
        simp [own]
      rw [if_neg own, dropped, List.filterMap_nil]
  ext1
  · funext other
    simp only [Database.catalogue, rates]
    change (db.getBillPlanId other).elim [] _ = _
    by_cases own : plan = other
    · subst own
      rw [if_pos rfl, plan_eq, Option.elim_some, Option.elim_some, if_pos rfl, List.map_append]
      rfl
    · rw [if_neg own]
      cases known : db.getBillPlanId other with
      | none => rfl
      | some id =>
          have distinct : row.billPlanId ≠ id := fun same =>
            own (NamedTable.name_eq_of_keyOf plan_eq (same ▸ known))
          rw [Option.elim_some, Option.elim_some, if_neg distinct, List.append_nil]
  · rfl
  · rfl

omit sound in
/-- A new calc function joins those of its tariff. -/
theorem catalogue_insertFunction {row : CalcFunction} {tariff : String}
    (tariff_eq : db.tariff.keyOf tariff = some row.tariffId) :
    ({ db with calcFunction := db.calcFunction.insert row } : Database).catalogue =
      { db.catalogue with
        functions := fun other =>
          if tariff = other then db.catalogue.functions other ++ [collectFunction row]
          else db.catalogue.functions other } := by
  have calcs (id : ℕ) :
      Database.tariffCalcs { db with calcFunction := db.calcFunction.insert row } id =
        db.tariffCalcs id ++ if row.tariffId = id then [row] else [] := by
    simp only [Database.tariffCalcs, SerialTable.insert, List.filter_append, List.map_append]
    congr 1
    by_cases own : row.tariffId = id <;> simp [own]
  ext1
  · rfl
  · rfl
  · funext other
    simp only [Database.catalogue, calcs]
    by_cases own : tariff = other
    · subst own
      rw [if_pos rfl, tariff_eq, Option.elim_some, Option.elim_some, if_pos rfl, List.map_append]
      rfl
    · rw [if_neg own]
      cases known : db.tariff.keyOf other with
      | none => rfl
      | some id =>
          have distinct : row.tariffId ≠ id := fun same =>
            own (NamedTable.name_eq_of_keyOf tariff_eq (same ▸ known))
          rw [Option.elim_some, Option.elim_some, if_neg distinct, List.append_nil]

end Inserts

end RateEngine.ReCli
