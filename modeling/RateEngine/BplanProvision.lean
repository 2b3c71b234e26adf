import RateEngine.BplanLookups

/-!
# What provisioning does to the catalogue

Looking a row up and inserting it if it is not there offers one entry to the catalogue.  So
an import that ends without an error offers the entries of its input in their order, and one that
ends with an error has still only grown the tables.
-/

namespace RateEngine.ReCli

open Committed

/-! ## Get or create -/

section Provision

variable {plans tariffs : List String} {db : Database}

/-- A looked up identifier meets the specification, or else the insert does. -/
theorem meets_getOrInsert {get : Database → Option ℕ} {insert : Import ℕ}
    {post : ℕ → Database → Prop} (found : ∀ {id}, get db = some id → post id db)
    (created : get db = none → Meets (Grows plans tariffs) post insert db) :
    Meets (Grows plans tariffs) post (getOrInsert get insert) db := by
  refine meets_query_bind get ?_
  cases got : get db with
  | some id => exact meets_pure (found got)
  | none => exact created got

theorem getOrInsert_of_found {get : Database → Option ℕ} {insert : Import ℕ} {id : ℕ}
    (found : get db = some id) : getOrInsert get insert db = (.ok id, db) := by
  rw [getOrInsert, query_bind_apply, found]
  rfl

theorem provisionRate_of_found {billPlanId prefixId tariffId : ℕ}
    (found : (db.getRateId billPlanId prefixId tariffId).isSome) :
    provisionRate billPlanId prefixId tariffId db = (.ok (), db) := by
  obtain ⟨id, id_eq⟩ := Option.isSome_iff_exists.mp found
  rw [provisionRate, bind_of_ok (getOrInsert_of_found id_eq)]
  rfl

theorem provisionFunction_of_found {tariffId : ℕ} {pos : ℤ}
    {fee : Except ImportError (Option ℚ)} {deltaTime iterations : Option ℤ}
    (found : (db.getCalcId tariffId pos).isSome) :
    provisionFunction tariffId pos fee deltaTime iterations db = (.ok (), db) := by
  obtain ⟨id, id_eq⟩ := Option.isSome_iff_exists.mp found
  rw [provisionFunction, query_bind_apply, id_eq]
  rfl

/-- A new plan is known under its name, and the catalogue stays. -/
theorem meets_insertBillPlan {plan : String} {typeId : ℕ} {start stop : ℤ} (sound : db.HandedOut)
    (named : plan ∈ plans) :
    Meets (Grows plans tariffs)
      (fun id db' => db'.getBillPlanId plan = some id ∧ db'.catalogue = db.catalogue)
      (insertBillPlan plan typeId start stop) db := by
  refine meets_statement fun {id t} inserted => ?_
  split at inserted
  · rename_i accepted
    obtain ⟨rfl, rfl⟩ := Prod.mk.inj (Option.some.inj inserted)
    refine ⟨grows_insertBillPlan _ _ named, ?_, catalogue_insertBillPlan sound _ _⟩
    exact NamedTable.keyOf_insertNew_self accepted.2.2.2
  · cases inserted

/-- A prefix is known under its digits, and the catalogue stays. -/
theorem meets_provisionPrefix {prefixStr : String} {desc : Option String} (sound : db.HandedOut) :
    Meets (Grows plans tariffs)
      (fun id db' => db'.prefixes.keyOf prefixStr = some id ∧ db'.catalogue = db.catalogue)
      (provisionPrefix prefixStr desc) db := by
  refine meets_getOrInsert (fun known => ⟨known, rfl⟩) fun _ => ?_
  refine meets_statement fun {id t} inserted => ?_
  split at inserted
  · rename_i accepted
    obtain ⟨rfl, rfl⟩ := Prod.mk.inj (Option.some.inj inserted)
    refine ⟨grows_insertPrefix _ _, ?_, catalogue_insertPrefix sound _ _⟩
    exact NamedTable.keyOf_insertNew_self accepted.2.2
  · cases inserted

/-- A tariff is found for the plan, and its free seconds have been offered. -/
theorem meets_provisionTariff {billPlanId : ℕ} {tariff : String} {start stop free : ℤ}
    (sound : db.HandedOut) :
    Meets (Grows plans tariffs)
      (fun id db' => db'.getTariffId billPlanId tariff = some id ∧
        db'.catalogue = db.catalogue.offerFree tariff free)
      (provisionTariff billPlanId tariff start stop free) db := by
  refine meets_getOrInsert (fun {id} found => ?_) fun _ => ?_
  · have known := keyOf_of_getTariffId found
    refine ⟨found, ?_⟩
    ext1
    · rfl
    · funext other
      obtain ⟨row, found, -⟩ := Option.map_eq_some_iff.mp known
      by_cases own : tariff = other
      · subst own
        simp [Catalogue.offerFree, Database.catalogue, found]
      · simp [Catalogue.offerFree, own]
    · rfl
  · refine meets_statement fun {id t} inserted => ?_
    split at inserted
    · rename_i accepted
      obtain ⟨rfl, rfl⟩ := Prod.mk.inj (Option.some.inj inserted)
      refine ⟨grows_insertTariff _ _,
        getTariffId_of_staged (SerialTable.mem_insert_self _ _) rfl rfl, ?_⟩
      rw [catalogue_insertTariff sound]
      have unknown : db.tariff.find tariff = none :=
        NamedTable.find_eq_none_iff.mpr accepted.2.2.2.2
      ext1
      · rfl
      · funext other
        by_cases own : tariff = other
        · subst own
          simp [Catalogue.offerFree, Database.catalogue, unknown]
        · simp [Catalogue.offerFree, own]
      · rfl
    · cases inserted

/-- A rate of a plan of the input has been offered. -/
theorem meets_provisionRate {plan prefixStr tariff : String} {billPlanId prefixId tariffId : ℕ}
    (named : plan ∈ plans)
    (plan_eq : db.getBillPlanId plan = some billPlanId)
    (prefix_eq : db.prefixes.keyOf prefixStr = some prefixId)
    (tariff_eq : db.tariff.keyOf tariff = some tariffId) :
    Meets (Grows plans tariffs)
      (fun _ db' => (db'.getRateId billPlanId prefixId tariffId).isSome ∧
        db'.catalogue = db.catalogue.offerRate plan (prefixStr, tariff))
      (provisionRate billPlanId prefixId tariffId) db := by
  have listed := getRateId_isSome_iff plan_eq prefix_eq tariff_eq
  have given : Meets (Grows plans tariffs)
      (fun _ db' => (db'.getRateId billPlanId prefixId tariffId).isSome ∧
        db'.catalogue = db.catalogue.offerRate plan (prefixStr, tariff))
      (getOrInsert (·.getRateId billPlanId prefixId tariffId)
        (insertRate billPlanId prefixId tariffId)) db := by
    refine meets_getOrInsert (fun found => ?_) fun missing => ?_
    · have there := Option.isSome_of_eq_some found
      exact ⟨there, (Catalogue.offerRate_of_taken (listed.mp there)).symm⟩
    · refine meets_statement fun {id t} inserted => ?_
      obtain ⟨rfl, rfl⟩ := Prod.mk.inj (Option.some.inj inserted)
      obtain ⟨tr, tr_mem, -⟩ := NamedTable.keyOf_eq_some_iff.mp tariff_eq
      obtain ⟨pre, pre_mem, -⟩ := NamedTable.keyOf_eq_some_iff.mp prefix_eq
      refine ⟨grows_insertRate named plan_eq (SerialTable.lt_next_of_mem tr_mem)
        (SerialTable.lt_next_of_mem pre_mem),
        getRateId_isSome.mpr ⟨_, SerialTable.mem_insert_self _ _, rfl, rfl, rfl⟩, ?_⟩
      have free : (prefixStr, tariff) ∉ db.catalogue.rates plan := fun taken =>
        absurd missing (Option.ne_none_iff_isSome.mpr (listed.mpr taken))
      rw [catalogue_insertRate plan_eq prefix_eq tariff_eq, Catalogue.offerRate_of_free free]
  exact meets_bind given fun _ offered => meets_pure offered

/-- The calc function that an input offers, if its fee and its seconds are given. -/
def functionOffer (pos : ℤ) (fee : Except ImportError (Option ℚ))
    (deltaTime iterations : Option ℤ) : Option (ModelFunction ℚ) :=
  match fee, deltaTime with
  | .ok (some fee), some deltaTime =>
      some { pos, deltaTime := some deltaTime, fee := some fee,
             iterations := iterations.filter fun n => n ≠ 0 }
  | _, _ => none

theorem pos_of_functionOffer {pos : ℤ} {fee : Except ImportError (Option ℚ)}
    {deltaTime iterations : Option ℤ} {row : ModelFunction ℚ}
    (offered : row ∈ (functionOffer pos fee deltaTime iterations).toList) : row.pos = pos := by
  unfold functionOffer at offered
  split at offered
  · obtain rfl := List.mem_singleton.mp offered
    rfl
  · cases offered

/-- A calc function of a tariff of the input has been offered. -/
theorem meets_provisionFunction {tariff : String} {tariffId : ℕ} {pos : ℤ}
    {fee : Except ImportError (Option ℚ)} {deltaTime iterations : Option ℤ}
    (named : tariff ∈ tariffs) (tariff_eq : db.tariff.keyOf tariff = some tariffId) :
    Meets (Grows plans tariffs)
      (fun _ db' => (db'.getCalcId tariffId pos).isSome ∧ db'.catalogue = db.catalogue.merge
        { functions :=
            (functionOffer pos fee deltaTime iterations).toList.map fun row => (tariff, row) })
      (provisionFunction tariffId pos fee deltaTime iterations) db := by
  have listed : (db.getCalcId tariffId pos).isSome ↔
      pos ∈ (db.catalogue.functions tariff).map ModelFunction.pos := getCalcId_isSome_iff tariff_eq
  refine meets_query_bind _ ?_
  cases found : db.getCalcId tariffId pos with
  | some id =>
      have there := Option.isSome_of_eq_some found
      refine meets_pure ⟨there, ?_⟩
      have taken := listed.mp there
      refine (Catalogue.merge_of_taken fun row offered => ?_).symm
      exact (pos_of_functionOffer offered).symm ▸ taken
  | none =>
      have read : Meets (Grows plans tariffs) (fun value db' => fee = .ok value ∧ db' = db)
          (ofExcept fee) db := meets_ofExcept fun given => ⟨given, rfl⟩
      refine meets_bind read fun {value t} _ ⟨given, same⟩ => ?_
      subst t
      refine meets_statement fun {_ t} inserted => ?_
      split at inserted
      · rename_i fee deltaTime
        split at inserted
        · obtain ⟨-, rfl⟩ := Prod.mk.inj (Option.some.inj inserted)
          refine ⟨grows_insertFunction named tariff_eq (getCalcId_eq_none_iff.mp found),
            getCalcId_isSome.mpr ⟨_, SerialTable.mem_insert_self _ _, rfl, rfl⟩, ?_⟩
          rw [catalogue_insertFunction tariff_eq, given]
          change _ = Catalogue.merge _ { functions := [(tariff, _)] }
          rw [Catalogue.merge_function, Catalogue.offerFunction_of_free]
          · rfl
          · exact fun taken => absurd found (Option.ne_none_iff_isSome.mpr (listed.mpr taken))
        · cases inserted
      · cases inserted

end Provision

end RateEngine.ReCli
