import RateEngine.BplanCatalogue

/-!
# Reading the catalogue

The lookups of an import find what the catalogue has.  A dump of a plan shows, up to identifiers and
the order of rates, the rates of the plan in the catalogue.
-/

namespace RateEngine.ReCli

/-! ## Lookups -/

section Lookups

variable {db : Database} {plan prefixStr tariff : String}
    {billPlanId prefixId tariffId : ℕ} {pos : ℤ}

theorem mem_ratedTariffs : tariffId ∈ db.ratedTariffs tariff ↔
    db.tariff.keyOf tariff = some tariffId ∧ ∃ row ∈ db.rate.rows, row.2.tariffId = tariffId := by
  simp only [Database.ratedTariffs, List.mem_flatMap, List.mem_map, List.mem_filter,
    decide_eq_true_eq, NamedTable.keyOf_eq_some_iff]
  constructor
  · rintro ⟨rt, rt_mem, tr, ⟨member, named, same⟩, rfl⟩
    exact ⟨⟨tr.2, same ▸ member, named⟩, rt, rt_mem, rfl⟩
  · rintro ⟨⟨tr, member, named⟩, rt, rt_mem, rfl⟩
    exact ⟨rt, rt_mem, (rt.2.tariffId, tr), ⟨member, named, rfl⟩, rfl⟩

/-- A tariff is found under its own name, whatever the plan. -/
theorem keyOf_of_getTariffId (found : db.getTariffId billPlanId tariff = some tariffId) :
    db.tariff.keyOf tariff = some tariffId := by
  unfold Database.getTariffId at found
  split at found
  · rename_i rid rated
    obtain rfl : rid = tariffId := Option.some.inj found
    exact (mem_ratedTariffs.mp (List.mem_of_mem_head? rated)).1
  · obtain ⟨tr, chosen, rfl⟩ := Option.map_eq_some_iff.mp found
    have named : tr.2.name = tariff ∧ tr.2.tempId = billPlanId := by
      simpa using List.find?_some chosen
    exact NamedTable.keyOf_eq_some_iff.mpr ⟨tr.2, List.mem_of_find?_eq_some chosen, named.1⟩

/-- A tariff that some rate refers to is found for every plan. -/
theorem getTariffId_of_rated {row : ℕ × Rate} (member : row ∈ db.rate.rows)
    (known : db.tariff.keyOf tariff = some row.2.tariffId) :
    db.getTariffId billPlanId tariff = some row.2.tariffId := by
  have rated : row.2.tariffId ∈ db.ratedTariffs tariff :=
    mem_ratedTariffs.mpr ⟨known, row, member, rfl⟩
  cases first : (db.ratedTariffs tariff).head? with
  | none =>
      rw [List.head?_eq_none_iff.mp first] at rated
      exact absurd rated List.not_mem_nil
  | some rid =>
      have found : db.getTariffId billPlanId tariff = some rid := by
        rw [Database.getTariffId, first]
      rw [found, ← known, keyOf_of_getTariffId found]

/-- A tariff staged for the plan is found for it. -/
theorem getTariffId_of_staged {row : Tariff} (member : (tariffId, row) ∈ db.tariff.rows)
    (named : row.name = tariff) (staged : row.tempId = billPlanId) :
    db.getTariffId billPlanId tariff = some tariffId := by
  have found : (db.getTariffId billPlanId tariff).isSome := by
    unfold Database.getTariffId
    split
    · rfl
    · rw [Option.isSome_map, List.find?_isSome]
      exact ⟨(tariffId, row), member, by simp [named, staged]⟩
  obtain ⟨id, id_eq⟩ := Option.isSome_iff_exists.mp found
  have known : db.tariff.keyOf tariff = some tariffId :=
    NamedTable.keyOf_eq_some_iff.mpr ⟨row, member, named⟩
  rw [id_eq, ← known, keyOf_of_getTariffId id_eq]

/-- A calc function is found if the tariff has one at the position. -/
theorem getCalcId_eq_none_iff :
    db.getCalcId tariffId pos = none ↔ ∀ old ∈ db.tariffCalcs tariffId, old.pos ≠ pos := by
  simp only [Database.getCalcId, Option.map_eq_none_iff, List.find?_eq_none, Database.tariffCalcs,
    List.mem_map, List.mem_filter, decide_eq_true_eq]
  constructor
  · rintro none_found old ⟨row, ⟨member, own⟩, rfl⟩ same
    exact none_found row member ⟨own, same⟩
  · intro free row member found
    exact free row.2 ⟨row, ⟨member, found.1⟩, rfl⟩ found.2

theorem functions_of_keyOf (known : db.tariff.keyOf tariff = some tariffId) :
    db.catalogue.functions tariff = (db.tariffCalcs tariffId).map collectFunction := by
  simp only [Database.catalogue, known, Option.elim_some]

theorem rates_of_getBillPlanId (known : db.getBillPlanId plan = some billPlanId) :
    db.catalogue.rates plan =
      (db.planRates billPlanId).map fun rate => (rate.prefixStr, rate.tariff) := by
  simp only [Database.catalogue, known, Option.elim_some]

/-- Looking up a position finds a calc function of the catalogue. -/
theorem getCalcId_isSome_iff (known : db.tariff.keyOf tariff = some tariffId) :
    (db.getCalcId tariffId pos).isSome ↔
      pos ∈ (db.catalogue.functions tariff).map ModelFunction.pos := by
  rw [← Option.ne_none_iff_isSome, Ne, getCalcId_eq_none_iff,
    functions_of_keyOf known, List.map_map]
  simp [collectFunction]

theorem getRateId_isSome : (db.getRateId billPlanId prefixId tariffId).isSome ↔
    ∃ row ∈ db.rate.rows, row.2.tariffId = tariffId ∧ row.2.billPlanId = billPlanId ∧
      row.2.prefixId = prefixId := by
  simp [Database.getRateId, List.find?_isSome]

/-- The names of a rate, by the rows that it refers to. -/
theorem rateData_eq_some_iff {row : Rate} {data : Database.RateData} :
    db.rateData row = some data ↔
      data.tariffId = row.tariffId ∧ data.prefixId = row.prefixId ∧
        db.tariff.keyOf data.tariff = some row.tariffId ∧
        db.prefixes.keyOf data.prefixStr = some row.prefixId := by
  simp only [Database.rateData, Option.bind_eq_some_iff, Option.map_eq_some_iff,
    SerialTable.get?_eq_some_iff, NamedTable.keyOf_eq_some_iff]
  constructor
  · rintro ⟨tr, tr_mem, pre, pre_mem, rfl⟩
    exact ⟨rfl, rfl, ⟨tr, tr_mem, rfl⟩, pre, pre_mem, rfl⟩
  · rintro ⟨tariff_eq, prefix_eq, ⟨tr, tr_mem, tr_name⟩, pre, pre_mem, pre_str⟩
    refine ⟨tr, tr_mem, pre, pre_mem, ?_⟩
    rw [tr_name, pre_str, ← tariff_eq, ← prefix_eq]

/-- Looking up a rate finds a rate of the catalogue. -/
theorem getRateId_isSome_iff (plan_eq : db.getBillPlanId plan = some billPlanId)
    (prefix_eq : db.prefixes.keyOf prefixStr = some prefixId)
    (tariff_eq : db.tariff.keyOf tariff = some tariffId) :
    (db.getRateId billPlanId prefixId tariffId).isSome ↔
      (prefixStr, tariff) ∈ db.catalogue.rates plan := by
  rw [getRateId_isSome, rates_of_getBillPlanId plan_eq]
  simp only [Database.planRates, List.mem_map, List.mem_filterMap, List.mem_filter,
    rateData_eq_some_iff, decide_eq_true_eq]
  constructor
  · rintro ⟨row, member, same_tariff, own, same_prefix⟩
    refine ⟨⟨tariffId, tariff, prefixId, prefixStr⟩, ⟨row, ⟨member, own⟩, ?_⟩, rfl⟩
    exact ⟨same_tariff.symm, same_prefix.symm, same_tariff ▸ tariff_eq, same_prefix ▸ prefix_eq⟩
  · rintro ⟨data, ⟨row, ⟨member, own⟩, tariff_own, prefix_own, tariff_key, prefix_key⟩, names⟩
    obtain ⟨rfl, rfl⟩ := Prod.mk.inj names
    refine ⟨row, member, ?_, own, ?_⟩
    · exact Option.some.inj (tariff_key.symm.trans tariff_eq)
    · exact Option.some.inj (prefix_key.symm.trans prefix_eq)

theorem getCalcId_isSome : (db.getCalcId tariffId pos).isSome ↔
    ∃ row ∈ db.calcFunction.rows, row.2.tariffId = tariffId ∧ row.2.pos = pos := by
  simp [Database.getCalcId, List.find?_isSome]

end Lookups

/-! ## Later lookups -/

section Grown

variable {plans tariffs : List String} {db db' : Database} (grown : Grows plans tariffs db db')
  {tariff : String} {billPlanId prefixId tariffId : ℕ} {pos : ℤ}
include grown

/-- A tariff that was found is found again. -/
theorem getTariffId_of_grows (found : db.getTariffId billPlanId tariff = some tariffId) :
    db'.getTariffId billPlanId tariff = some tariffId := by
  have known := grown.keyOf_tariff (keyOf_of_getTariffId found)
  unfold Database.getTariffId at found
  split at found
  · rename_i rid rated
    obtain ⟨-, row, row_mem, refers⟩ := mem_ratedTariffs.mp (List.mem_of_mem_head? rated)
    obtain rfl : rid = tariffId := Option.some.inj found
    obtain ⟨new, rows, -⟩ := grown.rate
    have row_mem : row ∈ db'.rate.rows := rows ▸ List.mem_append_left new row_mem
    exact refers ▸ getTariffId_of_rated row_mem (refers.symm ▸ known)
  · obtain ⟨tr, chosen, rfl⟩ := Option.map_eq_some_iff.mp found
    have named : tr.2.name = tariff ∧ tr.2.tempId = billPlanId := by
      simpa using List.find?_some chosen
    exact getTariffId_of_staged (grown.tariff.mem (List.mem_of_find?_eq_some chosen)) named.1
      named.2

theorem getRateId_of_grows (found : (db.getRateId billPlanId prefixId tariffId).isSome) :
    (db'.getRateId billPlanId prefixId tariffId).isSome := by
  obtain ⟨row, row_mem, refers⟩ := getRateId_isSome.mp found
  obtain ⟨new, rows, -⟩ := grown.rate
  exact getRateId_isSome.mpr ⟨row, rows ▸ List.mem_append_left new row_mem, refers⟩

theorem getCalcId_of_grows (found : (db.getCalcId tariffId pos).isSome) :
    (db'.getCalcId tariffId pos).isSome := by
  obtain ⟨row, row_mem, refers⟩ := getCalcId_isSome.mp found
  obtain ⟨new, rows, -⟩ := grown.calcFunction
  exact getCalcId_isSome.mpr ⟨row, rows ▸ List.mem_append_left new row_mem, refers⟩

end Grown

/-! ## Dumps -/

/-- A rate without its identifiers. -/
def ModelRate.named (rate : ModelRate ℚ) : ModelRate ℚ :=
  { rate with prefixId := none, tariffId := none }

/-- A rate as a catalogue has it. -/
def Catalogue.rate (catalogue : Catalogue) (seconds : ℤ → Option ℤ) (pair : String × String) :
    ModelRate ℚ where
  prefixStr := pair.1
  tariff := pair.2
  freeBillsec := (catalogue.free pair.2).bind fun id =>
    (seconds id).map fun value => { id, value }
  calcFunctions := (catalogue.functions pair.2).insertionSort fun row row' => row.pos ≤ row'.pos

section Dumps

variable {db : Database}

/-- The seconds and the calc functions of a rate are those of its tariff. -/
theorem named_collectRate {row : Rate} {data : Database.RateData}
    (rated : db.rateData row = some data) :
    (collectRate db data).named = db.catalogue.rate db.freeSeconds
      (data.prefixStr, data.tariff) := by
  obtain ⟨tariff_id, -, tariff_key, -⟩ := rateData_eq_some_iff.mp rated
  have tariff_key : db.tariff.keyOf data.tariff = some data.tariffId := tariff_id ▸ tariff_key
  obtain ⟨tariff, tariff_mem, named⟩ := NamedTable.keyOf_eq_some_iff.mp tariff_key
  have found : db.tariff.find data.tariff = some (data.tariffId, tariff) :=
    NamedTable.find_eq_some_iff.mpr ⟨tariff_mem, named⟩
  have positive : data.tariffId ≠ 0 := (db.tariff.key_pos _ tariff_mem).ne'
  have free : (db.getFreeBillsecV2 data.tariffId).map (fun free => (⟨free.1, free.2⟩ : ModelFree)) =
      (db.catalogue.free data.tariff).bind fun id =>
        (db.freeSeconds id).map fun value => { id, value } := by
    rw [Database.getFreeBillsecV2, SerialTable.get?_eq_some_iff.mpr tariff_mem]
    simp [Database.catalogue, found, Function.comp_def]
  have calcs : (db.getCalcFunctionsV2 data.tariffId).map collectFunction =
      (db.catalogue.functions data.tariff).insertionSort fun row row' => row.pos ≤ row'.pos := by
    rw [Database.getCalcFunctionsV2, if_neg positive, functions_of_keyOf tariff_key]
    exact List.map_insertionSort _ _ _ _ fun _ _ _ _ => Iff.rfl
  simp only [ModelRate.named, collectRate, Catalogue.rate, free, calcs]

/-- The rates of a dumped plan are those of the catalogue. -/
theorem perm_collectPlan {plan : String} {id : ℕ} (known : db.getBillPlanId plan = some id) :
    ((collectPlan db (id, plan)).rates.map ModelRate.named).Perm
      ((db.catalogue.rates plan).map (db.catalogue.rate db.freeSeconds)) := by
  have sorted : (db.getRateData id).Perm (db.planRates id) := List.perm_insertionSort _ _
  have named : ((collectPlan db (id, plan)).rates.map ModelRate.named) =
      (db.getRateData id).map fun data =>
        db.catalogue.rate db.freeSeconds (data.prefixStr, data.tariff) := by
    rw [collectPlan, List.map_map]
    refine List.map_congr_left fun data member => ?_
    obtain ⟨row, -, rated⟩ := List.mem_filterMap.mp (sorted.mem_iff.mp member)
    exact named_collectRate rated
  rw [named, rates_of_getBillPlanId known, List.map_map]
  exact sorted.map _

end Dumps

end RateEngine.ReCli
