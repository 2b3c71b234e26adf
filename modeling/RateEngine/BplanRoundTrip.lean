import Mathlib.Data.List.Induction
import RateEngine.BplanFrame
import RateEngine.Lib.RankedRows

/-!
# From a dump back to the tables

The dump of a plan without a tree, imported into tables without plans and tariffs, dumps to the same
model again, but for identifiers, the order of rates, and iterations of zero, which are left out.
Every statement of the import is accepted, as each value comes from a column of its own type and
each tariff is staged for the one plan.
-/

namespace RateEngine.ReCli

open Committed

/-! ## The same model -/

/-- A calc function whose iterations of zero are left out. -/
def ModelFunction.present (row : ModelFunction ℚ) : ModelFunction ℚ :=
  { row with iterations := row.iterations.filter fun n => n ≠ 0 }

/-- A rate without identifiers and iterations of zero. -/
def ModelRate.present (rate : ModelRate ℚ) : ModelRate ℚ :=
  { rate.named with calcFunctions := rate.calcFunctions.map ModelFunction.present }

/-- Plans of one name with the same rates in any order. -/
structure SamePlan (plan plan' : ModelPlan ℚ) : Prop where
  name : plan'.name = plan.name
  rates : (plan'.rates.map ModelRate.present).Perm (plan.rates.map ModelRate.present)

/-- Models of one name with the same plans. -/
structure SameModel (model model' : BplanModel ℚ) : Prop where
  billPlan : model'.billPlan = model.billPlan
  plans : List.Forall₂ SamePlan model.plans model'.plans

@[simp]
theorem ModelFunction.present_present (row : ModelFunction ℚ) :
    row.present.present = row.present := by
  simp [present, Option.filter_filter]

/-! ## Plans and tables -/

/-- A plan without a tree, whose rates are listed once, and whose calc functions have distinct
positions and fees of some digits. -/
structure RoundTrips (digits : ℚ → Prop) (db : Database) (id : ℕ) : Prop where
  no_tree : db.getBillPlansTree id = []
  rates_nodup : (db.planRates id).Nodup
  positions_nodup : ∀ rate ∈ db.planRates id,
    ((db.tariffCalcs rate.tariffId).map CalcFunction.pos).Nodup
  fees : ∀ rate ∈ db.planRates id, ∀ row ∈ db.tariffCalcs rate.tariffId, digits row.fee

/-- Tables without plans and tariffs, with the free seconds and the plan types of other tables. -/
structure BlankFor (db db' : Database) : Prop where
  billPlan : db'.billPlan.rows = []
  tariff : db'.tariff.rows = []
  freeBillsec : db'.freeBillsec.rows = db.freeBillsec.rows
  billPlanType : db'.billPlanType.rows = db.billPlanType.rows

/-! ## What a dump says -/

/-- What inputs one after the other say is what each of them says. -/
theorem Provisions.field_all {Entry : Type} {field : Provisions → List Entry}
    (empty : field {} = [])
    (append : ∀ p q, field (p ++ q) = field p ++ field q) (ps : List Provisions) :
    field (.all ps) = ps.flatMap field := by
  induction ps using List.reverseRecOn with
  | nil => exact empty
  | append_singleton ps p induction =>
      rw [all_append_singleton, append, List.flatMap_append, List.flatMap_singleton, ← induction]

theorem Provisions.rates_all (ps : List Provisions) :
    (Provisions.all ps).rates = ps.flatMap Provisions.rates := field_all rfl (fun _ _ => rfl) ps

theorem Provisions.functions_all (ps : List Provisions) :
    (Provisions.all ps).functions = ps.flatMap Provisions.functions :=
  field_all rfl (fun _ _ => rfl) ps

section Dump

variable {φ : Type} (codec : FeeCodec φ) {db : Database}

theorem feeOf_plain {fee : ℚ} (digits : FifteenDigits fee) :
    feeOf codec (some (codec.plain fee)) = .ok (some fee) := by
  rw [feeOf, codec.fee_plain fee digits]

/-- A plan with a name is imported under it. -/
theorem planName_collectPlan {plan : String} {id : ℕ} (named : plan ≠ "") :
    planName (some plan) ((collectPlan db (id, plan)).map codec.plain) = some plan := by
  simp [planName, ModelPlan.map, collectPlan, named]

/-- A calc function comes back as it was dumped. -/
theorem calcProvisions_collectFunction (tariff : String) {row : CalcFunction}
    (digits : FifteenDigits row.fee) :
    calcProvisions codec tariff ((collectFunction row).map codec.plain) =
      { functions := [(tariff, (collectFunction row).present)] } := by
  simp only [calcProvisions, functionProvisions, ModelFunction.map, collectFunction,
    Option.map_some, feeOf_plain codec digits]
  rfl

theorem mem_getCalcFunctionsV2 {tariffId : ℕ} {row : CalcFunction}
    (member : row ∈ db.getCalcFunctionsV2 tariffId) : row ∈ db.tariffCalcs tariffId := by
  unfold Database.getCalcFunctionsV2 at member
  split at member
  · cases member
  · exact (List.perm_insertionSort _ _).mem_iff.mp member

theorem mem_planRates_of_getRateData {id : ℕ} {rate : Database.RateData}
    (member : rate ∈ db.getRateData id) : rate ∈ db.planRates id :=
  (List.perm_insertionSort _ _).mem_iff.mp member

/-- The calc functions of a dumped rate, as they come back. -/
def presentFunctions (db : Database) (rate : Database.RateData) : List (ModelFunction ℚ) :=
  (collectRate db rate).calcFunctions.map ModelFunction.present

/-- A rate comes back with its free seconds and its calc functions. -/
theorem rateProvisions_collectRate (plan : String) {rate : Database.RateData}
    (digits : ∀ row ∈ db.tariffCalcs rate.tariffId, FifteenDigits row.fee) :
    rateProvisions codec plan ((collectRate db rate).map codec.plain) =
      { rates := [⟨plan, rate.prefixStr, rate.tariff,
          (collectRate db rate).freeBillsec.elim 0 ModelFree.id⟩]
        functions := (presentFunctions db rate).map fun row => (rate.tariff, row) } := by
  let calcs : Provisions := .all (((collectRate db rate).map codec.plain).calcFunctions.map
    (calcProvisions codec rate.tariff))
  have no_rates : calcs.rates = [] := by
    rw [Provisions.rates_all, List.flatMap_eq_nil_iff]
    intro p member
    obtain ⟨row, -, rfl⟩ := List.mem_map.mp member
    rfl
  have functions : calcs.functions = (presentFunctions db rate).map fun row =>
      (rate.tariff, row) := by
    have each (row : CalcFunction) (member : row ∈ db.getCalcFunctionsV2 rate.tariffId) :
        (calcProvisions codec rate.tariff ((collectFunction row).map codec.plain)).functions =
          [(rate.tariff, (collectFunction row).present)] := by
      rw [calcProvisions_collectFunction codec rate.tariff
        (digits row (mem_getCalcFunctionsV2 member))]
    rw [Provisions.functions_all]
    simp only [ModelRate.map, collectRate, presentFunctions, List.map_map, List.flatMap_map]
    rw [List.map_eq_flatMap]
    exact List.flatMap_congr each
  have offered : rateProvisions codec plan ((collectRate db rate).map codec.plain) =
      { rates := [⟨plan, rate.prefixStr, rate.tariff,
          (collectRate db rate).freeBillsec.elim 0 ModelFree.id⟩] ++ calcs.rates
        functions := [] ++ calcs.functions } := rfl
  rw [offered, no_rates, functions]
  rfl

/-- What the dump of a plan says. -/
def dumpProvisions (db : Database) (plan : String) (id : ℕ) : Provisions where
  rates := (db.getRateData id).map fun rate => ⟨plan, rate.prefixStr, rate.tariff,
    (collectRate db rate).freeBillsec.elim 0 ModelFree.id⟩
  functions := (db.getRateData id).flatMap fun rate =>
    (presentFunctions db rate).map fun row => (rate.tariff, row)

/-- The dump of a plan comes back rate by rate. -/
theorem modelProvisions_collectPlan {plan : String} {id : ℕ} (named : plan ≠ "")
    (digits : ∀ rate ∈ db.planRates id, ∀ row ∈ db.tariffCalcs rate.tariffId,
      FifteenDigits row.fee) :
    modelProvisions codec (plain codec
        { billPlan := some plan, plans := [collectPlan db (id, plan)] }) =
      dumpProvisions db plan id := by
  let front : Provisions := .all ((((db.getRateData id).map (collectRate db)).map
    (ModelRate.map codec.plain)).map (rateProvisions codec plan))
  have each (rate : Database.RateData) (member : rate ∈ db.getRateData id) :=
    rateProvisions_collectRate codec plan (digits rate (mem_planRates_of_getRateData member))
  have rates : front.rates = (db.getRateData id).map fun rate => ⟨plan, rate.prefixStr, rate.tariff,
      (collectRate db rate).freeBillsec.elim 0 ModelFree.id⟩ := by
    rw [Provisions.rates_all, List.map_map, List.map_map, List.flatMap_map, List.map_eq_flatMap]
    refine List.flatMap_congr fun rate member => ?_
    simp only [Function.comp_apply, each rate member]
  have functions : front.functions = (db.getRateData id).flatMap fun rate =>
      (presentFunctions db rate).map fun row => (rate.tariff, row) := by
    rw [Provisions.functions_all, List.map_map, List.map_map, List.flatMap_map]
    refine List.flatMap_congr fun rate member => ?_
    simp only [Function.comp_apply, each rate member]
  have offered : planProvisions codec (some plan) ((collectPlan db (id, plan)).map codec.plain) =
      front := by
    rw [planProvisions, planName_collectPlan codec named]
    rfl
  rw [dumpProvisions, ← rates, ← functions, ← offered]
  rfl

end Dump

/-! ## The catalogue that comes back -/

section Merged

variable {digits : ℚ → Prop} {db db' : Database} {plan : String} {id : ℕ}

theorem keyOf_of_mem_getRateData {rate : Database.RateData} (member : rate ∈ db.getRateData id) :
    db.tariff.keyOf rate.tariff = some rate.tariffId ∧
      db.prefixes.keyOf rate.prefixStr = some rate.prefixId := by
  obtain ⟨row, -, rated⟩ := List.mem_filterMap.mp (mem_planRates_of_getRateData member)
  obtain ⟨tariff_eq, prefix_eq, tariff_key, prefix_key⟩ := rateData_eq_some_iff.mp rated
  exact ⟨tariff_eq ▸ tariff_key, prefix_eq ▸ prefix_key⟩

/-- The names of a tariff's rates have one tariff. -/
theorem tariffId_eq_of_tariff {rate rate' : Database.RateData} (member : rate ∈ db.getRateData id)
    (member' : rate' ∈ db.getRateData id) (same : rate'.tariff = rate.tariff) :
    rate'.tariffId = rate.tariffId := by
  have key := (keyOf_of_mem_getRateData member).1
  have key' := (keyOf_of_mem_getRateData member').1
  exact Option.some.inj (key'.symm.trans (same ▸ key))

/-- Rates that are listed once have distinct names. -/
theorem nodup_pairs (source : RoundTrips digits db id) :
    ((db.getRateData id).map fun rate => (rate.prefixStr, rate.tariff)).Nodup := by
  have nodup : (db.getRateData id).Nodup :=
    (List.perm_insertionSort _ _).nodup_iff.mpr source.rates_nodup
  refine List.Nodup.map_on (fun rate member rate' member' same => ?_) nodup
  obtain ⟨prefix_eq, tariff_eq⟩ := Prod.mk.inj same
  have tariff_id := tariffId_eq_of_tariff member' member tariff_eq
  have prefix_key := (keyOf_of_mem_getRateData member).2
  have prefix_key' := (keyOf_of_mem_getRateData member').2
  have prefix_id : rate.prefixId = rate'.prefixId :=
    Option.some.inj (prefix_key.symm.trans (prefix_eq ▸ prefix_key'))
  obtain ⟨_, _, _, _⟩ := rate
  obtain ⟨_, _, _, _⟩ := rate'
  simp_all

theorem BlankFor.getBillPlanId (target : BlankFor db db') (name : String) :
    db'.getBillPlanId name = none := by
  rw [Database.getBillPlanId, NamedTable.keyOf_eq_none_iff, target.billPlan]
  exact List.not_mem_nil

theorem catalogue_of_blank (target : BlankFor db db') :
    db'.catalogue = ⟨fun _ => [], fun _ => none, fun _ => []⟩ := by
  have no_tariff (name : String) : db'.tariff.find name = none := by
    rw [NamedTable.find_eq_none_iff, target.tariff]
    exact List.not_mem_nil
  ext1
  · funext name
    simp only [Database.catalogue, target.getBillPlanId, Option.elim_none]
  · funext name
    simp only [Database.catalogue, no_tariff, Option.map_none]
  · funext name
    simp only [Database.catalogue, NamedTable.keyOf, no_tariff, Option.map_none, Option.elim_none]

theorem rates_merge (source : RoundTrips digits db id) (target : BlankFor db db') :
    (db'.catalogue.merge (dumpProvisions db plan id)).rates plan =
      (db.getRateData id).map fun rate => (rate.prefixStr, rate.tariff) := by
  have all : ((dumpProvisions db plan id).rates.filter fun entry => entry.plan = plan) =
      (dumpProvisions db plan id).rates := by
    refine List.filter_eq_self.mpr fun entry member => ?_
    obtain ⟨rate, -, rfl⟩ := List.mem_map.mp member
    exact decide_eq_true rfl
  have pairs : (dumpProvisions db plan id).rates.map RateEntry.pair =
      (db.getRateData id).map fun rate => (rate.prefixStr, rate.tariff) := List.map_map
  simp only [Catalogue.merge, catalogue_of_blank target, all, pairs]
  have distinct := nodup_pairs source
  exact KeepFirst.merge_of_nodup _ (by simpa using distinct)

/-- A rate comes back with the free seconds of its tariff. -/
theorem freeBillsec_merge (target : BlankFor db db') {rate : Database.RateData}
    (member : rate ∈ db.getRateData id) :
    ((db'.catalogue.merge (dumpProvisions db plan id)).free rate.tariff).bind (fun free =>
        (db'.freeSeconds free).map fun value => ({ id := free, value } : ModelFree)) =
      (collectRate db rate).freeBillsec := by
  have found : ((db.getRateData id).find? fun rate' => rate'.tariff = rate.tariff).isSome :=
    List.find?_isSome.mpr ⟨rate, member, by simp⟩
  obtain ⟨first, first_eq⟩ := Option.isSome_iff_exists.mp found
  have first_tariff : first.tariff = rate.tariff := by simpa using List.find?_some first_eq
  have same : (collectRate db first).freeBillsec = (collectRate db rate).freeBillsec := by
    simp only [collectRate,
      tariffId_eq_of_tariff member (List.mem_of_find?_eq_some first_eq) first_tariff]
  have free : (db'.catalogue.merge (dumpProvisions db plan id)).free rate.tariff =
      some ((collectRate db rate).freeBillsec.elim 0 ModelFree.id) := by
    simp only [Catalogue.merge, catalogue_of_blank target, dumpProvisions, List.find?_map,
      Option.none_or, Function.comp_def, first_eq, Option.map_some, same]
  have seconds (free : ℤ) : db'.freeSeconds free = db.freeSeconds free := by
    simp only [Database.freeSeconds, target.freeBillsec]
  rw [free, Option.bind_some, seconds]
  cases own : (collectRate db rate).freeBillsec with
  | none =>
      have unknown : db.freeSeconds 0 = none := by
        rw [Database.freeSeconds, Option.map_eq_none_iff, List.find?_eq_none]
        intro row row_mem
        have positive := db.freeBillsec.key_pos row row_mem
        simp only [decide_eq_true_eq]
        omega
      rw [Option.elim_none, unknown, Option.map_none]
  | some given =>
      obtain ⟨free, free_eq, rfl⟩ := Option.map_eq_some_iff.mp own
      obtain ⟨tariff, -, known⟩ := Option.bind_eq_some_iff.mp free_eq
      obtain ⟨value, value_eq, rfl⟩ := Option.map_eq_some_iff.mp known
      rw [Option.elim_some, value_eq, Option.map_some]

/-- The calc functions of a dump are in the order of their positions. -/
theorem pairwise_presentFunctions (rate : Database.RateData) :
    (presentFunctions db rate).Pairwise fun row row' => row.pos ≤ row'.pos := by
  have sorted :
      (db.getCalcFunctionsV2 rate.tariffId).Pairwise fun row row' => row.pos ≤ row'.pos := by
    unfold Database.getCalcFunctionsV2
    split
    · exact .nil
    · exact RankedRows.pairwise_insertionSort (· ≤ ·) CalcFunction.pos _
  exact List.pairwise_map.mpr (List.pairwise_map.mpr sorted)

theorem nodup_pos_presentFunctions (source : RoundTrips digits db id) {rate : Database.RateData}
    (member : rate ∈ db.getRateData id) :
    ((presentFunctions db rate).map ModelFunction.pos).Nodup := by
  have positions : (presentFunctions db rate).map ModelFunction.pos =
      (db.getCalcFunctionsV2 rate.tariffId).map CalcFunction.pos := by
    simp only [presentFunctions, collectRate, List.map_map]
    rfl
  rw [positions]
  unfold Database.getCalcFunctionsV2
  split
  · exact List.nodup_nil
  · refine ((List.perm_insertionSort _ _).map _).nodup_iff.mpr ?_
    exact source.positions_nodup rate (mem_planRates_of_getRateData member)

/-- A rate comes back with its calc functions. -/
theorem functions_merge (source : RoundTrips digits db id) (target : BlankFor db db')
    {rate : Database.RateData} (member : rate ∈ db.getRateData id) :
    (db'.catalogue.merge (dumpProvisions db plan id)).functions rate.tariff =
      presentFunctions db rate := by
  let own (rate' : Database.RateData) : List (ModelFunction ℚ) :=
    (((presentFunctions db rate').map fun row => (rate'.tariff, row)).filter fun entry =>
      entry.1 = rate.tariff).map Prod.snd
  have offered : ((dumpProvisions db plan id).functions.filter fun entry =>
      entry.1 = rate.tariff).map Prod.snd = (db.getRateData id).flatMap own := by
    rw [dumpProvisions, List.filter_flatMap, List.map_flatMap]
  have own_of_eq {rate' : Database.RateData} (same : rate'.tariff = rate.tariff) :
      own rate' = presentFunctions db rate' := by
    simp [own, same, List.filter_map, Function.comp_def]
  have copies (rate' : Database.RateData) (member' : rate' ∈ db.getRateData id) :
      own rate' = [] ∨ own rate' = presentFunctions db rate := by
    by_cases same : rate'.tariff = rate.tariff
    · refine Or.inr ((own_of_eq same).trans ?_)
      simp only [presentFunctions, collectRate, tariffId_eq_of_tariff member member' same]
    · refine Or.inl ?_
      simp [own, same]
  simp only [Catalogue.merge, catalogue_of_blank target, offered]
  exact KeepFirst.merge_flatMap_of_copies _ (nodup_pos_presentFunctions source member) copies
    ⟨rate, member, own_of_eq rfl⟩

/-- The rates that come back are those of the dump. -/
theorem present_rate_merge (source : RoundTrips digits db id) (target : BlankFor db db')
    {rate : Database.RateData} (member : rate ∈ db.getRateData id) :
    ((db'.catalogue.merge (dumpProvisions db plan id)).rate db'.freeSeconds
        (rate.prefixStr, rate.tariff)).present = (collectRate db rate).present := by
  have calcs : (presentFunctions db rate).insertionSort (fun row row' => row.pos ≤ row'.pos) =
      presentFunctions db rate := (pairwise_presentFunctions rate).insertionSort_eq
  have twice : (presentFunctions db rate).map ModelFunction.present = presentFunctions db rate := by
    simp [presentFunctions]
  simp only [ModelRate.present, ModelRate.named, Catalogue.rate, freeBillsec_merge target member,
    functions_merge source target member, calcs, twice]
  rfl

end Merged

/-! ## Accepted statements -/

section Accepted

variable {φ : Type} {codec : FeeCodec φ} {db : Database} {billPlanId : ℕ}

/-- Every tariff is staged for the plan. -/
def Staged (billPlanId : ℕ) (db : Database) : Prop :=
  ∀ row ∈ db.tariff.rows, row.2.tempId = billPlanId

theorem Staged.of_tariff {t : Database} (staged : Staged billPlanId db)
    (same : t.tariff = db.tariff) : Staged billPlanId t := fun row member =>
  staged row (same ▸ member)

/-- The values of a rate fit their columns. -/
structure RateFits (codec : FeeCodec φ) (rate : ModelRate φ) : Prop where
  prefixStr : Varchar 32 rate.prefixStr
  tariff : Varchar 64 rate.tariff
  free : Int4 (rate.freeBillsec.elim 0 ModelFree.id)
  calcs : ∀ row ∈ rate.calcFunctions, ∃ fee deltaTime, feeOf codec row.fee = .ok (some fee) ∧
    row.deltaTime = some deltaTime ∧ Int4 row.pos ∧ Int4 deltaTime ∧ ∀ n ∈ row.iterations, Int4 n

theorem ends_provisionPrefix {prefixStr : String} (fits : Varchar 32 prefixStr) :
    Ends (fun _ t => t.tariff = db.tariff) (provisionPrefix prefixStr none) db := by
  refine ends_query_bind _ ?_
  cases found : db.getPrefixId prefixStr with
  | some id => exact ends_pure rfl
  | none =>
      exact ends_statement (dif_pos ⟨fits, nofun, NamedTable.keyOf_eq_none_iff.mp found⟩) rfl

/-- A tariff that is not found has a new name, as every tariff is staged for the plan. -/
theorem ends_provisionTariff {tariff : String} {free : ℤ} (staged : Staged billPlanId db)
    (fits : Varchar 64 tariff) (free_fits : Int4 free) :
    Ends (fun _ => Staged billPlanId) (provisionTariff billPlanId tariff 0 0 free) db := by
  refine ends_query_bind _ ?_
  cases found : db.getTariffId billPlanId tariff with
  | some id => exact ends_pure staged
  | none =>
      have fresh : tariff ∉ db.tariff.rows.map fun row => row.2.name := by
        intro taken
        obtain ⟨row, member, named⟩ := List.mem_map.mp taken
        rw [getTariffId_of_staged member named (staged row member)] at found
        cases found
      refine ends_statement (dif_pos ⟨fits, by decide, by decide, free_fits, fresh⟩) ?_
      intro row member
      rcases List.mem_append.mp member with old | new
      · exact staged row old
      · rw [List.mem_singleton.mp new]

theorem ends_provisionRate {prefixId tariffId : ℕ} :
    Ends (fun _ t => t.tariff = db.tariff) (provisionRate billPlanId prefixId tariffId) db := by
  have given : Ends (fun _ t => t.tariff = db.tariff)
      (getOrInsert (·.getRateId billPlanId prefixId tariffId)
        (insertRate billPlanId prefixId tariffId)) db := by
    refine ends_query_bind _ ?_
    cases db.getRateId billPlanId prefixId tariffId with
    | some id => exact ends_pure rfl
    | none => exact ends_statement rfl rfl
  exact ends_bind given fun kept => ends_pure kept

theorem ends_importFunction {rate : ModelRate φ} (fits : RateFits codec rate) {tariffId : ℕ}
    {row : ModelFunction φ} (member : row ∈ rate.calcFunctions) :
    Ends (fun _ t => t.tariff = db.tariff) (importFunction codec tariffId row) db := by
  obtain ⟨fee, deltaTime, fee_eq, delta_eq, accepted⟩ := fits.calcs row member
  unfold importFunction
  rw [fee_eq, delta_eq]
  refine ends_query_bind _ ?_
  cases db.getCalcId tariffId row.pos with
  | some id => exact ends_pure rfl
  | none =>
      change Ends _ (insertCalcFunc tariffId row.pos (some fee) (some deltaTime) row.iterations) db
      exact ends_statement (dif_pos accepted) rfl

/-- A rate whose values fit is accepted, and its tariff is staged for the plan. -/
theorem ends_importRate {rate : ModelRate φ} (staged : Staged billPlanId db)
    (fits : RateFits codec rate) :
    Ends (fun _ => Staged billPlanId) (importRate codec billPlanId rate) db := by
  refine ends_bind (ends_provisionPrefix fits.prefixStr) fun {_ t} same => ?_
  have staged := staged.of_tariff same
  refine ends_bind (ends_provisionTariff staged fits.tariff fits.free)
    fun {tariffId t'} staged => ?_
  refine ends_bind ends_provisionRate fun {_ u} same => ?_
  have staged := staged.of_tariff same
  refine ends_forM (fun {row v} member staged => ?_) staged
  obtain ⟨_, w, run, same⟩ := ends_importFunction fits member
  exact ⟨_, w, run, staged.of_tariff same⟩

/-- The values of a dump come from columns of their types. -/
theorem rateFits_collectRate {id : ℕ} (source : RoundTrips FifteenDigits db id)
    {rate : Database.RateData} (member : rate ∈ db.getRateData id) :
    RateFits codec ((collectRate db rate).map codec.plain) where
  prefixStr := by
    obtain ⟨row, -, named⟩ := NamedTable.keyOf_eq_some_iff.mp (keyOf_of_mem_getRateData member).2
    change Varchar 32 rate.prefixStr
    exact named ▸ row.prefixStr_fits
  tariff := by
    obtain ⟨row, -, named⟩ := NamedTable.keyOf_eq_some_iff.mp (keyOf_of_mem_getRateData member).1
    change Varchar 64 rate.tariff
    exact named ▸ row.name_fits
  free := by
    change Int4 ((collectRate db rate).freeBillsec.elim 0 ModelFree.id)
    cases own : (collectRate db rate).freeBillsec with
    | none => decide
    | some given =>
        obtain ⟨free, free_eq, rfl⟩ := Option.map_eq_some_iff.mp own
        obtain ⟨tariff, -, known⟩ := Option.bind_eq_some_iff.mp free_eq
        obtain ⟨value, -, rfl⟩ := Option.map_eq_some_iff.mp known
        exact tariff.freeBillsecId_fits
  calcs row row_mem := by
    obtain ⟨dumped, dumped_mem, rfl⟩ := List.mem_map.mp row_mem
    obtain ⟨calc_row, calc_mem, rfl⟩ := List.mem_map.mp dumped_mem
    have digits := source.fees rate (mem_planRates_of_getRateData member) calc_row
      (mem_getCalcFunctionsV2 calc_mem)
    exact ⟨calc_row.fee, calc_row.deltaTime, feeOf_plain codec digits, rfl, calc_row.pos_fits,
      calc_row.deltaTime_fits, calc_row.iterations_fits⟩

/-- Tables without plans and tariffs accept the dump of a plan. -/
theorem ends_importModel_collectPlan {db' : Database} {plan : String} {id : ℕ} (named : plan ≠ "")
    (known : db.getBillPlanId plan = some id) (source : RoundTrips FifteenDigits db id)
    (target : BlankFor db db') (postpaid : (db'.getBillPlanTypeId "postpaid").isSome) :
    Ends (fun _ _ => True) (importModel codec (plain codec
      { billPlan := some plan, plans := [collectPlan db (id, plan)] })) db' := by
  obtain ⟨row, -, row_name⟩ := NamedTable.keyOf_eq_some_iff.mp known
  have fits : Varchar 128 plan := row_name ▸ row.name_fits
  have created : Ends (fun _ t => t.tariff = db'.tariff) (provisionPostpaid plan) db' := by
    have fresh := NamedTable.keyOf_eq_none_iff.mp (target.getBillPlanId plan)
    obtain ⟨typeId, postpaid⟩ := Option.isSome_iff_exists.mp postpaid
    refine ends_query_bind _ ?_
    rw [target.getBillPlanId]
    refine ends_query_bind _ ?_
    rw [postpaid]
    exact ends_statement (dif_pos ⟨fits, by decide, by decide, fresh⟩) rfl
  have imported : Ends (fun _ _ => True)
      (importPlan codec (some plan) ((collectPlan db (id, plan)).map codec.plain)) db' := by
    rw [importPlan, planName_collectPlan codec named]
    refine ends_bind created fun {billPlanId t} same => ?_
    have staged : Staged billPlanId t := by
      intro row member
      rw [same, target.tariff] at member
      cases member
    have loop : Ends (fun _ => Staged billPlanId) (((collectPlan db (id, plan)).map
        codec.plain).rates.forM (importRate codec billPlanId)) t := by
      refine ends_forM (fun {rate u} member staged => ?_) staged
      obtain ⟨dumped, dumped_mem, rfl⟩ := List.mem_map.mp member
      obtain ⟨rate_row, rate_mem, rfl⟩ := List.mem_map.mp dumped_mem
      exact ends_importRate staged (rateFits_collectRate source rate_mem)
    obtain ⟨a, u, run, -⟩ := loop
    exact ⟨a, u, run, trivial⟩
  exact ends_bind imported fun _ => ends_pure trivial

end Accepted

/-! ## There and back -/

section RoundTrip

variable {φ : Type} (codec : FeeCodec φ) {db db' : Database} {plan : String} {id : ℕ}

/-- The dump of a plan is imported into other tables, dumps to the same model again, and when it is
imported once more, nothing changes. -/
def ComesBack (codec : FeeCodec φ) (db db' : Database) (plan : String) : Prop :=
  ∃ model, collectBplan db plan = some model ∧
    ∃ t, importModel codec (plain codec model) db' = (.ok (), t) ∧
      (∃ model', collectBplan t plan = some model' ∧ SameModel model model') ∧
      importModel codec (plain codec model) t = (.ok (), t)

/-- A plan with a name comes back from tables without plans and tariffs. -/
theorem comesBack_of_roundTrips (named : plan ≠ "") (known : db.getBillPlanId plan = some id)
    (source : RoundTrips FifteenDigits db id) (target : BlankFor db db')
    (postpaid : (db'.getBillPlanTypeId "postpaid").isSome) (sound : db'.HandedOut) :
    ComesBack codec db db' plan := by
  refine ⟨_, collectBplan_of_no_tree known source.no_tree, ?_⟩
  have accepted : Ends (fun _ _ => True) (importModel codec (plain codec
      { billPlan := some plan, plans := [collectPlan db (id, plan)] })) db' :=
    ends_importModel_collectPlan named known source target postpaid
  obtain ⟨_, t, run, -⟩ := accepted
  have meets := meets_importModel codec (plain codec
    { billPlan := some plan, plans := [collectPlan db (id, plan)] }) sound
  obtain ⟨settled, merged, there⟩ := meets.ends run
  have grown := meets.moves
  rw [run] at grown
  have plan_mem : plan ∈ modelPlans (plain codec
      { billPlan := some plan, plans := [collectPlan db (id, plan)] }) := by
    simp [modelPlans, plain, BplanModel.map, planName_collectPlan codec named]
  obtain ⟨id', rates, dumped, same⟩ :=
    newPlansDumped_of_grows grown sound merged there plan plan_mem (target.getBillPlanId plan)
  refine ⟨t, run, ⟨_, dumped, rfl, .cons ⟨rfl, ?_⟩ .nil⟩, settled t (.refl t)⟩
  rw [modelProvisions_collectPlan codec named source.fees, rates_merge source target,
    List.map_map] at same
  have come_back := same.map ModelRate.present
  rw [List.map_map, List.map_map] at come_back
  refine come_back.trans (.of_eq ?_)
  rw [collectPlan, List.map_map]
  exact List.map_congr_left fun rate member => present_rate_merge source target member

end RoundTrip

/-! ## A plan that comes back -/

/-- The dump of the plan `retail` with one rate of the tariff `mobile`. -/
def retailModel {φ : Type} (fee : φ) : BplanModel φ where
  billPlan := some "retail"
  plans :=
    [{ id := some 1
       name := some "retail"
       rates :=
        [{ prefixId := some 1
           prefixStr := "44"
           tariffId := some 1
           tariff := "mobile"
           freeBillsec := none
           calcFunctions := [⟨1, some 60, some fee, none⟩] }] }]

theorem fifteenDigits_one : FifteenDigits 1 := by
  refine ⟨⟨1, 0, by norm_num, by norm_num⟩, Or.inr ?_⟩
  rw [abs_one]
  exact ⟨zpow_le_one_of_nonpos₀ one_le_two (by norm_num), by decide +kernel⟩

/-- A plan with one fee. -/
theorem roundTrips_of_fee {digits : ℚ → Prop} {fee : ℚ} {db : Database} {id : ℕ}
    (digit : digits fee)
    (no_tree : db.getBillPlansTree id = []) (rates_nodup : (db.planRates id).Nodup)
    (positions_nodup : ∀ rate ∈ db.planRates id,
      ((db.tariffCalcs rate.tariffId).map CalcFunction.pos).Nodup)
    (fees : ∀ rate ∈ db.planRates id, ∀ row ∈ db.tariffCalcs rate.tariffId, row.fee = fee) :
    RoundTrips digits db id where
  no_tree := no_tree
  rates_nodup := rates_nodup
  positions_nodup := positions_nodup
  fees rate rate_mem row row_mem := (fees rate rate_mem row row_mem).symm ▸ digit

theorem retailTables_known : retailTables.getBillPlanId "retail" = some 1 := by decide +kernel

theorem retailTables_roundTrips : RoundTrips FifteenDigits retailTables 1 :=
  roundTrips_of_fee fifteenDigits_one (by decide +kernel) (by decide +kernel) (by decide +kernel)
    (by decide +kernel)

theorem retailTables_blankFor : BlankFor retailTables .schema :=
  ⟨rfl, rfl, by decide +kernel, by decide +kernel⟩

theorem schema_postpaid : (Database.schema.getBillPlanTypeId "postpaid").isSome := by decide +kernel

/-- The plan `retail`, whose fee goes through a double. -/
theorem comesBack_retail : ComesBack .doubles retailTables .schema "retail" :=
  comesBack_of_roundTrips .doubles (by decide) retailTables_known retailTables_roundTrips
    retailTables_blankFor schema_postpaid Database.schema_handedOut

/-! ## Plans that do not come back -/

/-- A plan with an empty name is refused. -/
theorem not_comesBack_of_unnamed {φ : Type} {codec : FeeCodec φ} {db db' : Database} {id : ℕ}
    (known : db.getBillPlanId "" = some id) (no_tree : db.getBillPlansTree id = []) :
    ¬ ComesBack codec db db' "" := by
  rintro ⟨model, dumped, t, run, -⟩
  rw [collectBplan_of_no_tree known no_tree] at dumped
  obtain rfl := Option.some.inj dumped
  have refused : (importModel codec (plain codec
      { billPlan := some "", plans := [collectPlan db (id, "")] }) db').1 =
        .error .missingName := rfl
  rw [run] at refused
  cases refused

/-- The plan `retail` does not come back with another fee. -/
theorem not_comesBack_of_fee {φ : Type} {codec : FeeCodec φ} {db db' : Database} {fee fee' : ℚ}
    (dumped : collectBplan db "retail" = some (retailModel fee))
    (dumped' : collectBplan (importModel codec (plain codec (retailModel fee)) db').2 "retail" =
      some (retailModel fee')) (differ : fee ≠ fee') : ¬ ComesBack codec db db' "retail" := by
  rintro ⟨model, first, t, run, ⟨model', second, same⟩, -⟩
  obtain rfl := Option.some.inj (dumped.symm.trans first)
  rw [run] at dumped'
  obtain rfl := Option.some.inj (dumped'.symm.trans second)
  obtain ⟨-, plans⟩ := same
  rcases plans with - | ⟨same_plan, -⟩
  have one_rate := List.singleton_inj.mp (List.perm_singleton.mp same_plan.rates)
  have one_row := List.singleton_inj.mp (congrArg ModelRate.calcFunctions one_rate)
  exact differ (Option.some.inj (congrArg ModelFunction.fee one_row)).symm

/-- A plan whose name is empty. -/
def unnamedTables : Database :=
  (importSettings .digits
    { rows := [["1", ""], ["2", "44", "", "mobile"], ["*", "1", "1", "60"]]
      modes := by decide +kernel } .schema).2

/-- A fee with one digit that is too small for a double. -/
def tinyFee : ℚ := 1 / 10 ^ 400

/-- The plan `retail` with the fee. -/
def tinyTables : Database := (importModel .decimals (retailModel tinyFee) .schema).2

/-- Tables without plan types. -/
def Database.untyped (db : Database) : Database := { db with billPlanType := .empty _ }

/-- Tables with a calc function of a tariff that is not there yet. -/
def strayTables : Database :=
  { Database.schema with
    calcFunction := SerialTable.empty.insert
      { tariffId := 1, pos := 1, deltaTime := 60, fee := 5, iterations := none,
        pos_fits := by decide, deltaTime_fits := by decide, iterations_fits := nofun } }

theorem toDouble_tinyFee : toDouble tinyFee = some 0 := by
  have tiny : |tinyFee| < 2 ^ (-1074 : ℤ) / 2 := by
    have powers : (2 : ℚ) ^ 1075 < 10 ^ 400 := by
      exact_mod_cast (by decide +kernel : 2 ^ 1075 < 10 ^ 400)
    have half : (2 : ℚ) ^ (-1074 : ℤ) / 2 = ((2 : ℚ) ^ 1075)⁻¹ := by
      rw [zpow_neg, zpow_ofNat, ← one_div, ← one_div, div_div, ← pow_succ]
    rw [half, tinyFee, one_div, abs_of_pos (by positivity)]
    exact inv_strictAnti₀ (by positivity) powers
  have zero : BinaryFloat.nearest 53 (-1074) tinyFee = 0 := BinaryFloat.nearest_eq_zero tiny
  simp [toDouble, zero]

theorem not_comesBack_tiny : ¬ ComesBack .doubles tinyTables .schema "retail" := by
  have zero : plain .doubles (retailModel tinyFee) = retailModel (some 0) := by
    simp [plain, BplanModel.map, ModelPlan.map, ModelRate.map, ModelFunction.map, retailModel,
      FeeCodec.doubles, toDouble_tinyFee]
  have dumped : collectBplan (importModel .doubles (retailModel (some 0)) .schema).2 "retail" =
      some (retailModel 0) := by decide +kernel
  exact not_comesBack_of_fee (by decide +kernel) (zero ▸ dumped) (by decide +kernel)

/-- Without plan types the plan is refused. -/
theorem not_comesBack_untyped :
    ¬ ComesBack .doubles retailTables.untyped Database.schema.untyped "retail" := by
  rintro ⟨model, dumped, t, run, -⟩
  have first : collectBplan retailTables.untyped "retail" = some (retailModel 1) := by
    decide +kernel
  obtain rfl := Option.some.inj (dumped.symm.trans first)
  have refused : (importModel .doubles (plain .doubles (retailModel 1))
      Database.schema.untyped).1 = .error (.unknownType "postpaid") := by decide +kernel
  rw [run] at refused
  cases refused

/-- The new tariff takes the calc function that was there for its key. -/
theorem not_comesBack_stray : ¬ ComesBack .doubles retailTables strayTables "retail" := by
  have dumped : collectBplan (importModel .doubles (plain .doubles (retailModel 1))
      strayTables).2 "retail" = some (retailModel 5) := by decide +kernel
  exact not_comesBack_of_fee (by decide +kernel) dumped (by norm_num)

/-- None of the conditions can be left out: the name, the size of the fees, the plan type, and the
references to what was handed out. -/
theorem not_comesBack :
    (¬ ∀ (db db' : Database) (plan : String) (id : ℕ), db.getBillPlanId plan = some id →
      RoundTrips FifteenDigits db id → BlankFor db db' →
      (db'.getBillPlanTypeId "postpaid").isSome → db'.HandedOut →
      ComesBack .doubles db db' plan) ∧
    (¬ ∀ (db db' : Database) (plan : String) (id : ℕ), plan ≠ "" →
      db.getBillPlanId plan = some id → RoundTrips (BinaryFloat.Decimal 15) db id →
      BlankFor db db' → (db'.getBillPlanTypeId "postpaid").isSome → db'.HandedOut →
      ComesBack .doubles db db' plan) ∧
    (¬ ∀ (db db' : Database) (plan : String) (id : ℕ), plan ≠ "" →
      db.getBillPlanId plan = some id → RoundTrips FifteenDigits db id → BlankFor db db' →
      db'.HandedOut → ComesBack .doubles db db' plan) ∧
    ¬ ∀ (db db' : Database) (plan : String) (id : ℕ), plan ≠ "" →
      db.getBillPlanId plan = some id → RoundTrips FifteenDigits db id → BlankFor db db' →
      (db'.getBillPlanTypeId "postpaid").isSome → ComesBack .doubles db db' plan := by
  refine ⟨fun claim => ?unnamed, fun claim => ?tiny, fun claim => ?untyped, fun claim => ?stray⟩
  case unnamed =>
    have known : unnamedTables.getBillPlanId "" = some 1 := by decide +kernel
    have source : RoundTrips FifteenDigits unnamedTables 1 :=
      roundTrips_of_fee fifteenDigits_one (by decide +kernel) (by decide +kernel)
        (by decide +kernel) (by decide +kernel)
    exact not_comesBack_of_unnamed known source.no_tree (claim unnamedTables .schema "" 1 known
      source ⟨rfl, rfl, by decide +kernel, by decide +kernel⟩ schema_postpaid
      Database.schema_handedOut)
  case tiny =>
    have digits : BinaryFloat.Decimal 15 tinyFee := ⟨1, -400, by norm_num, by
      rw [tinyFee, zpow_neg, zpow_ofNat, Int.cast_one, one_div, one_mul]⟩
    have source : RoundTrips (BinaryFloat.Decimal 15) tinyTables 1 :=
      roundTrips_of_fee digits (by decide +kernel) (by decide +kernel) (by decide +kernel)
        (by decide +kernel)
    exact not_comesBack_tiny (claim tinyTables .schema "retail" 1 (by decide) (by decide +kernel)
      source ⟨rfl, rfl, by decide +kernel, by decide +kernel⟩ schema_postpaid
      Database.schema_handedOut)
  case untyped =>
    have sound : Database.schema.untyped.HandedOut := by
      have sound := Database.schema_handedOut
      exact ⟨sound.1, sound.2, sound.3, sound.4, sound.5, sound.6⟩
    have source : RoundTrips FifteenDigits retailTables.untyped 1 :=
      roundTrips_of_fee fifteenDigits_one (by decide +kernel) (by decide +kernel)
        (by decide +kernel) (by decide +kernel)
    exact not_comesBack_untyped (claim retailTables.untyped Database.schema.untyped "retail" 1
      (by decide) (by decide +kernel) source ⟨rfl, rfl, by decide +kernel, rfl⟩ sound)
  case stray =>
    exact not_comesBack_stray (claim retailTables strayTables "retail" 1 (by decide)
      retailTables_known retailTables_roundTrips
      ⟨rfl, rfl, by decide +kernel, by decide +kernel⟩ (by decide +kernel))

end RateEngine.ReCli
