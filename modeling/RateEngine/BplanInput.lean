import RateEngine.BplanProvision

/-!
# What an input says

A structured model names the plan of each of its rates.  A CSV file names it in an earlier row, and
the tariff of a calc function likewise, so its rows are read with the last plan and the last tariff
in mind. An import that ends without an error has offered what the input says, entry by entry.
-/

namespace RateEngine.ReCli

open Committed

/-- Inputs one after the other. -/
def Provisions.all (ps : List Provisions) : Provisions := ps.foldl (· ++ ·) {}

theorem Provisions.all_append_singleton (ps : List Provisions) (p : Provisions) :
    all (ps ++ [p]) = all ps ++ p := List.foldl_append

/-- Inputs are offered one after the other. -/
theorem Catalogue.merge_all_append_singleton {α : Type} (catalogue : Catalogue)
    (f : α → Provisions) (front : List α) (x : α) :
    catalogue.merge (.all ((front ++ [x]).map f)) =
      (catalogue.merge (.all (front.map f))).merge (f x) := by
  rw [List.map_append, List.map_singleton, Provisions.all_append_singleton, merge_append]

/-- What a calc function of a tariff says. -/
def functionProvisions (tariff : String) (pos : ℤ) (fee : Except ImportError (Option ℚ))
    (deltaTime iterations : Option ℤ) : Provisions where
  functions := (functionOffer pos fee deltaTime iterations).toList.map fun row => (tariff, row)

/-! ## Structured models -/

section Model

variable {φ : Type} (codec : FeeCodec φ)

/-- What an element of `calc_functions` says. -/
def calcProvisions (tariff : String) (row : ModelFunction φ) : Provisions :=
  functionProvisions tariff row.pos (feeOf codec row.fee) row.deltaTime row.iterations

/-- What a rate of a plan says. -/
def rateProvisions (plan : String) (rate : ModelRate φ) : Provisions :=
  { rates := [⟨plan, rate.prefixStr, rate.tariff, rate.freeBillsec.elim 0 ModelFree.id⟩] } ++
    .all (rate.calcFunctions.map (calcProvisions codec rate.tariff))

/-- What a plan says. -/
def planProvisions (billPlan : Option String) (plan : ModelPlan φ) : Provisions :=
  (planName billPlan plan).elim {} fun name => .all (plan.rates.map (rateProvisions codec name))

/-- What a model says. -/
def modelProvisions (model : BplanModel φ) : Provisions :=
  .all (model.plans.map (planProvisions codec model.billPlan))

/-- The plans that a model names. -/
def modelPlans (model : BplanModel φ) : List String :=
  model.plans.filterMap (planName model.billPlan)

/-- The tariffs that a model names. -/
def modelTariffs (model : BplanModel φ) : List String :=
  model.plans.flatMap fun plan => plan.rates.map ModelRate.tariff

variable {plans tariffs : List String} {db : Database}

theorem meets_importFunctions {tariff : String} {tariffId : ℕ} (rows : List (ModelFunction φ))
    (named : tariff ∈ tariffs) (known : db.tariff.keyOf tariff = some tariffId) :
    Meets (Grows plans tariffs)
      (fun _ db' => Settled (Grows plans tariffs) (rows.forM (importFunction codec tariffId)) db' ∧
        db'.catalogue = db.catalogue.merge (.all (rows.map (calcProvisions codec tariff))))
      (rows.forM (importFunction codec tariffId)) db := by
  let inv (front : List (ModelFunction φ)) (t : Database) : Prop :=
    t.tariff.keyOf tariff = some tariffId ∧
      (∀ row ∈ front, (t.getCalcId tariffId row.pos).isSome) ∧
      t.catalogue = db.catalogue.merge (.all (front.map (calcProvisions codec tariff)))
  have loop : Meets (Grows plans tariffs) (fun _ => inv rows)
      (rows.forM (importFunction codec tariffId)) db := by
    refine meets_forM inv (fun {front x back t} _ holds => ?_)
      ⟨known, nofun, db.catalogue.merge_empty.symm⟩
    refine (meets_provisionFunction named holds.1).weaken fun grown ⟨there, offered⟩ => ?_
    refine ⟨grown.keyOf_tariff holds.1, fun row member => ?_, ?_⟩
    · rcases List.mem_append.mp member with old | new
      · exact getCalcId_of_grows grown (holds.2.1 row old)
      · exact List.mem_singleton.mp new ▸ there
    · rw [offered, holds.2.2, Catalogue.merge_all_append_singleton]
      rfl
  refine loop.weaken fun _ ended => ⟨settled_forM fun row member t grown => ?_, ended.2.2⟩
  exact provisionFunction_of_found (getCalcId_of_grows grown (ended.2.1 row member))

theorem meets_importRate {plan : String} {billPlanId : ℕ} (rate : ModelRate φ)
    (sound : db.HandedOut) (plan_mem : plan ∈ plans) (tariff_mem : rate.tariff ∈ tariffs)
    (known : db.getBillPlanId plan = some billPlanId) :
    Meets (Grows plans tariffs)
      (fun _ db' => Settled (Grows plans tariffs) (importRate codec billPlanId rate) db' ∧
        db'.catalogue = db.catalogue.merge (rateProvisions codec plan rate))
      (importRate codec billPlanId rate) db := by
  refine meets_bind (meets_provisionPrefix sound) fun {prefixId t} grown ⟨prefix_eq, same⟩ => ?_
  have known := grown.getBillPlanId known
  refine meets_bind (meets_provisionTariff (grown.handedOut sound))
    fun {tariffId t'} grown' ⟨found, offered⟩ => ?_
  have known := grown'.getBillPlanId known
  have prefix_eq := NamedTable.keyOf_of_extends grown'.prefixes prefix_eq
  refine meets_bind (meets_provisionRate plan_mem known prefix_eq (keyOf_of_getTariffId found))
    fun {_ t''} grown'' ⟨there, offered'⟩ => ?_
  have tariff_eq := grown''.keyOf_tariff (keyOf_of_getTariffId found)
  refine (meets_importFunctions codec rate.calcFunctions tariff_mem tariff_eq).weaken
    fun {_ u} grew ⟨settled, ended⟩ => ⟨fun v later => ?_, ?_⟩
  · -- every lookup finds again what it found
    have grown_v := grew.trans later
    have grown_v' := grown''.trans grown_v
    have prefix_again : provisionPrefix rate.prefixStr none v = (.ok prefixId, v) :=
      getOrInsert_of_found (NamedTable.keyOf_of_extends grown_v'.prefixes prefix_eq)
    have tariff_again : provisionTariff billPlanId rate.tariff 0 0
        (rate.freeBillsec.elim 0 ModelFree.id) v = (.ok tariffId, v) :=
      getOrInsert_of_found (getTariffId_of_grows grown_v' found)
    rw [importRate, bind_of_ok prefix_again, bind_of_ok tariff_again,
      bind_of_ok (provisionRate_of_found (getRateId_of_grows grown_v there))]
    exact settled v later
  · rw [ended, offered', offered, same, rateProvisions, Catalogue.merge_append,
      Catalogue.merge_rate]
    rfl

theorem meets_importPlan {billPlan : Option String} (plan : ModelPlan φ) (sound : db.HandedOut)
    (plan_mem : ∀ name ∈ planName billPlan plan, name ∈ plans)
    (tariff_mem : ∀ rate ∈ plan.rates, rate.tariff ∈ tariffs) :
    Meets (Grows plans tariffs)
      (fun _ db' => Settled (Grows plans tariffs) (importPlan codec billPlan plan) db' ∧
        db'.catalogue = db.catalogue.merge (planProvisions codec billPlan plan) ∧
        ∃ name ∈ planName billPlan plan, (db'.getBillPlanId name).isSome)
      (importPlan codec billPlan plan) db := by
  unfold importPlan planProvisions
  cases own : planName billPlan plan with
  | none => exact meets_raise _
  | some name =>
      have created : Meets (Grows plans tariffs)
          (fun id db' => db'.getBillPlanId name = some id ∧ db'.catalogue = db.catalogue)
          (provisionPostpaid name) db := by
        refine meets_getOrInsert (fun known => ⟨known, rfl⟩) fun _ => meets_query_bind _ ?_
        cases db.getBillPlanTypeId "postpaid" with
        | none => exact meets_raise _
        | some typeId => exact meets_insertBillPlan sound (plan_mem name own)
      refine meets_bind created fun {billPlanId t} grown ⟨known, same⟩ => ?_
      let inv (front : List (ModelRate φ)) (u : Database) : Prop :=
        u.HandedOut ∧ u.getBillPlanId name = some billPlanId ∧
          (∀ rate ∈ front, Settled (Grows plans tariffs) (importRate codec billPlanId rate) u) ∧
          u.catalogue = db.catalogue.merge (.all (front.map (rateProvisions codec name)))
      have loop : Meets (Grows plans tariffs) (fun _ => inv plan.rates)
          (plan.rates.forM (importRate codec billPlanId)) t := by
        refine meets_forM inv (fun {front x back u} split holds => ?_)
          ⟨grown.handedOut sound, known, nofun, same.trans db.catalogue.merge_empty.symm⟩
        have mem : x ∈ plan.rates := split ▸ List.mem_append_right _ List.mem_cons_self
        refine (meets_importRate codec x holds.1 (plan_mem name own) (tariff_mem x mem)
          holds.2.1).weaken fun grown ⟨settled, offered⟩ => ?_
        refine ⟨grown.handedOut holds.1, grown.getBillPlanId holds.2.1,
          .append_singleton holds.2.2.1 grown settled, ?_⟩
        rw [offered, holds.2.2.2, Catalogue.merge_all_append_singleton]
      refine loop.weaken fun _ ⟨_, known', settled, ended⟩ =>
        ⟨fun u later => ?_, ended, name, rfl, ?_⟩
      · have again : provisionPostpaid name u = (.ok billPlanId, u) :=
          getOrInsert_of_found (later.getBillPlanId known')
        change (provisionPostpaid name >>= fun id => plan.rates.forM (importRate codec id)) u = _
        rw [bind_of_ok again]
        exact settled_forM settled u later
      · exact Option.isSome_of_eq_some known'

/-- A model that is imported without an error has been offered to the catalogue, its plans are
there, and importing it again changes nothing. -/
theorem meets_importModel (model : BplanModel φ) (sound : db.HandedOut) :
    Meets (Grows (modelPlans model) (modelTariffs model))
      (fun _ db' => Settled (Grows (modelPlans model) (modelTariffs model))
          (importModel codec model) db' ∧
        db'.catalogue = db.catalogue.merge (modelProvisions codec model) ∧
        ∀ name ∈ modelPlans model, (db'.getBillPlanId name).isSome)
      (importModel codec model) db := by
  unfold importModel
  split
  · exact meets_raise _
  let R := Grows (modelPlans model) (modelTariffs model)
  let inv (front : List (ModelPlan φ)) (t : Database) : Prop :=
    t.HandedOut ∧ (∀ plan ∈ front, Settled R (importPlan codec model.billPlan plan) t) ∧
      t.catalogue = db.catalogue.merge (.all (front.map (planProvisions codec model.billPlan))) ∧
      ∀ name ∈ front.filterMap (planName model.billPlan), (t.getBillPlanId name).isSome
  have loop : Meets R (fun _ => inv model.plans)
      (model.plans.forM (importPlan codec model.billPlan)) db := by
    refine meets_forM inv (fun {front x back t} split holds => ?_)
      ⟨sound, nofun, db.catalogue.merge_empty.symm, nofun⟩
    have mem : x ∈ model.plans := split ▸ List.mem_append_right _ List.mem_cons_self
    have plan_mem (name : String) (own : name ∈ planName model.billPlan x) :
        name ∈ modelPlans model := List.mem_filterMap.mpr ⟨x, mem, own⟩
    have tariff_mem (rate : ModelRate φ) (rate_mem : rate ∈ x.rates) :
        rate.tariff ∈ modelTariffs model :=
      List.mem_flatMap.mpr ⟨x, mem, List.mem_map_of_mem rate_mem⟩
    refine (meets_importPlan codec x holds.1 plan_mem tariff_mem).weaken
      fun grown ⟨settled, offered, name', own, there⟩ => ?_
    refine ⟨grown.handedOut holds.1, .append_singleton holds.2.1 grown settled, ?_,
      fun name name_mem => ?_⟩
    · rw [offered, holds.2.2.1, Catalogue.merge_all_append_singleton]
    · rw [List.filterMap_append, List.mem_append] at name_mem
      rcases name_mem with old | new
      · exact grown.isSome_getBillPlanId (holds.2.2.2 name old)
      · obtain ⟨x', x'_mem, own'⟩ := List.mem_filterMap.mp new
        obtain rfl := List.mem_singleton.mp x'_mem
        obtain rfl : name' = name := Option.some.inj (own.symm.trans own')
        exact there
  exact loop.weaken fun _ ⟨_, settled, ended, there⟩ => ⟨settled_forM settled, ended, there⟩

end Model

/-! ## CSV files -/

section Settings

variable (py : PyText)

/-- The plan and the tariff that a row refers to, and what the rows before it say. -/
structure CsvInput where
  plan : Option String := none
  tariff : Option String := none
  provisions : Provisions := {}

/-- Read a row. -/
def CsvInput.read (input : CsvInput) (row : List String) : CsvInput :=
  match row with
  | [] => input
  | mode :: _ =>
      if py.strip mode = "1" then
        { input with plan := some (rowPlan py row) }
      else if py.strip mode = "2" then
        match input.plan with
        | none => input
        | some plan =>
            { input with
              tariff := some (rowTariff py row)
              provisions := input.provisions ++
                { rates := [⟨plan, rowPrefix py row, rowTariff py row, rowFree py row⟩] } }
      else if py.strip mode = "*" then
        match input.tariff with
        | none => input
        | some tariff =>
            { input with
              provisions := input.provisions ++
                functionProvisions tariff (intField py (field row 1)) (numField py (field row 2))
                  (some (intField py (field row 3))) (rowIterations py row) }
      else input

/-- Read rows. -/
def csvInput (rows : List (List String)) : CsvInput := rows.foldl (CsvInput.read py) {}

/-- What a file says. -/
def csvProvisions (file : SettingsFile py) : Provisions := (csvInput py file.rows).provisions

/-- The rows of a mode. -/
def modeRows (mode : String) (rows : List (List String)) : List (List String) :=
  rows.filter fun row => row.head?.map py.strip = some mode

/-- The plans that a file names. -/
def csvPlans (file : SettingsFile py) : List String := (modeRows py "1" file.rows).map (rowPlan py)

/-- The tariffs that a file names. -/
def csvTariffs (file : SettingsFile py) : List String :=
  (modeRows py "2" file.rows).map (rowTariff py)

variable {py} {plans tariffs : List String} {db : Database}

/-- The identifiers that an import keeps are those of the plan and of the tariff last named. -/
structure ImportState.Keeps (plans tariffs : List String) (state : ImportState) (input : CsvInput)
    (db : Database) : Prop where
  plan : Option.Rel (fun name id => db.getBillPlanId name = some id) input.plan state.billPlanId
  tariff : Option.Rel (fun name id => db.tariff.keyOf name = some id) input.tariff state.tariffId
  plan_mem : ∀ name ∈ input.plan, name ∈ plans
  tariff_mem : ∀ name ∈ input.tariff, name ∈ tariffs

private theorem rel_imp {α β : Type} {r r' : α → β → Prop} (weaker : ∀ a b, r a b → r' a b)
    {x : Option α} {y : Option β} : Option.Rel r x y → Option.Rel r' x y
  | .some related => .some (weaker _ _ related)
  | .none => .none

theorem ImportState.Keeps.of_grows {state : ImportState} {input : CsvInput} {db' : Database}
    (keeps : state.Keeps plans tariffs input db) (grown : Grows plans tariffs db db') :
    state.Keeps plans tariffs input db' where
  plan := rel_imp (fun _ _ => grown.getBillPlanId) keeps.plan
  tariff := rel_imp (fun _ _ => grown.keyOf_tariff) keeps.tariff
  plan_mem := keeps.plan_mem
  tariff_mem := keeps.tariff_mem

private theorem exists_of_rel {α β : Type} {r : α → β → Prop} {a : α} {y : Option β} :
    Option.Rel r (some a) y → ∃ b, y = some b ∧ r a b
  | .some related => ⟨_, rfl, related⟩

private theorem eq_none_of_rel {α β : Type} {r : α → β → Prop} {y : Option β} :
    Option.Rel r none y → y = none
  | .none => rfl

namespace ImportState.Keeps

variable {state : ImportState} {input : CsvInput} {name : String}

theorem exists_billPlanId (keeps : state.Keeps plans tariffs input db)
    (named : input.plan = some name) :
    ∃ id, state.billPlanId = some id ∧ db.getBillPlanId name = some id :=
  exists_of_rel (named ▸ keeps.plan)

theorem billPlanId_eq_none (keeps : state.Keeps plans tariffs input db)
    (unnamed : input.plan = none) :
    state.billPlanId = none := eq_none_of_rel (unnamed ▸ keeps.plan)

theorem exists_tariffId (keeps : state.Keeps plans tariffs input db)
    (named : input.tariff = some name) :
    ∃ id, state.tariffId = some id ∧ db.tariff.keyOf name = some id :=
  exists_of_rel (named ▸ keeps.tariff)

theorem tariffId_eq_none (keeps : state.Keeps plans tariffs input db)
    (unnamed : input.tariff = none) : state.tariffId = none :=
  eq_none_of_rel (unnamed ▸ keeps.tariff)

end ImportState.Keeps

/-- What holds after the rows of an input. -/
structure AfterRows (plans tariffs : List String) (db : Database) (input : CsvInput)
    (state : ImportState) (db' : Database) : Prop where
  keeps : state.Keeps plans tariffs input db'
  handedOut : db'.HandedOut
  catalogue : db'.catalogue = db.catalogue.merge input.provisions

variable {input : CsvInput} {state : ImportState} {db' : Database} {row : List String}

theorem meets_modeBillPlan (after : AfterRows plans tariffs db input state db')
    (plan_mem : rowPlan py row ∈ plans) :
    Meets (Grows plans tariffs)
      (AfterRows plans tariffs db { input with plan := some (rowPlan py row) })
      (modeBillPlan py state row) db' := by
  refine meets_query_bind _ ?_
  cases db'.getBillPlanTypeId _ with
  | none => exact meets_raise _
  | some typeId =>
      have created : Meets (Grows plans tariffs)
          (fun id t => t.getBillPlanId (rowPlan py row) = some id ∧ t.catalogue = db'.catalogue)
          (getOrInsert (·.getBillPlanId (rowPlan py row)) (insertBillPlan (rowPlan py row) typeId
            (intField py (field row 3)) (intField py (field row 4)))) db' :=
        meets_getOrInsert (fun known => ⟨known, rfl⟩) fun _ =>
          meets_insertBillPlan after.handedOut plan_mem
      refine meets_bind created fun {id t} grown ⟨known, same⟩ => meets_pure ?_
      exact
        { keeps :=
            { plan := .some known
              tariff := (after.keeps.of_grows grown).tariff
              plan_mem := fun name own => Option.mem_some.mp own ▸ plan_mem
              tariff_mem := after.keeps.tariff_mem }
          handedOut := grown.handedOut after.handedOut
          catalogue := same.trans after.catalogue }

/-- Identifiers are positive, so the guard of the insert does not hold it back. -/
theorem provisionGivenRate_eq {billPlanId prefixId tariffId : ℕ} {plan prefixStr tariff : String}
    (plan_eq : db.getBillPlanId plan = some billPlanId)
    (prefix_eq : db.prefixes.keyOf prefixStr = some prefixId)
    (tariff_eq : db.tariff.keyOf tariff = some tariffId) :
    provisionGivenRate billPlanId prefixId tariffId =
      provisionRate billPlanId prefixId tariffId := by
  obtain ⟨_, plan_mem, -⟩ := NamedTable.keyOf_eq_some_iff.mp plan_eq
  obtain ⟨_, prefix_mem, -⟩ := NamedTable.keyOf_eq_some_iff.mp prefix_eq
  obtain ⟨_, tariff_mem, -⟩ := NamedTable.keyOf_eq_some_iff.mp tariff_eq
  exact if_pos ⟨(db.billPlan.key_pos _ plan_mem).ne', (db.prefixes.key_pos _ prefix_mem).ne',
    (db.tariff.key_pos _ tariff_mem).ne'⟩

theorem meets_modePrefixTariffRate {plan : String}
    (after : AfterRows plans tariffs db input state db') (input_plan : input.plan = some plan)
    (tariff_mem : rowTariff py row ∈ tariffs) :
    Meets (Grows plans tariffs)
      (AfterRows plans tariffs db
        { input with
          tariff := some (rowTariff py row)
          provisions := input.provisions ++
            { rates := [⟨plan, rowPrefix py row, rowTariff py row, rowFree py row⟩] } })
      (modePrefixTariffRate py state row) db' := by
  have plan_mem : plan ∈ plans := after.keeps.plan_mem plan input_plan
  obtain ⟨billPlanId, billPlan_eq, known⟩ := after.keeps.exists_billPlanId input_plan
  unfold modePrefixTariffRate
  rw [billPlan_eq]
  refine meets_bind (meets_provisionPrefix after.handedOut)
    fun {prefixId t} grown ⟨prefix_eq, same⟩ => ?_
  have handed := grown.handedOut after.handedOut
  refine meets_bind (meets_provisionTariff handed)
    fun {tariffId t'} grown' ⟨found, offered⟩ => ?_
  have tariff_eq := keyOf_of_getTariffId found
  have known' := grown'.getBillPlanId (grown.getBillPlanId known)
  have prefix_eq' := NamedTable.keyOf_of_extends grown'.prefixes prefix_eq
  rw [provisionGivenRate_eq known' prefix_eq' tariff_eq]
  refine meets_bind (meets_provisionRate plan_mem known' prefix_eq' tariff_eq)
    fun {_ u} grown'' ⟨_, offered'⟩ => meets_pure ?_
  have keeps := ((after.keeps.of_grows grown).of_grows grown').of_grows grown''
  exact
    { keeps :=
        { plan := billPlan_eq ▸ keeps.plan
          tariff := .some (grown''.keyOf_tariff tariff_eq)
          plan_mem := keeps.plan_mem
          tariff_mem := fun name own => Option.mem_some.mp own ▸ tariff_mem }
      handedOut := grown''.handedOut (grown'.handedOut handed)
      catalogue := by
        rw [offered', offered, same, after.catalogue, Catalogue.merge_append, Catalogue.merge_rate]
        rfl }

theorem meets_modeCalcFunction {tariff : String}
    (after : AfterRows plans tariffs db input state db')
    (input_tariff : input.tariff = some tariff) :
    Meets (Grows plans tariffs)
      (fun _ => AfterRows plans tariffs db
        { input with
          provisions := input.provisions ++
            functionProvisions tariff (intField py (field row 1)) (numField py (field row 2))
              (some (intField py (field row 3))) (rowIterations py row) } state)
      (modeCalcFunction py state row) db' := by
  have tariff_mem : tariff ∈ tariffs := after.keeps.tariff_mem tariff input_tariff
  obtain ⟨tariffId, tariffId_eq, known⟩ := after.keeps.exists_tariffId input_tariff
  unfold modeCalcFunction
  rw [tariffId_eq]
  have read : Meets (Grows plans tariffs)
      (fun fee t => numField py (field row 2) = .ok fee ∧ t = db')
      (ofExcept (numField py (field row 2))) db' := meets_ofExcept fun given => ⟨given, rfl⟩
  refine meets_bind read fun {fee t} _ ⟨given, same⟩ => ?_
  subst t
  refine (meets_provisionFunction tariff_mem known).weaken fun grown ⟨_, offered⟩ => ?_
  have keeps := after.keeps.of_grows grown
  exact
    { keeps := ⟨keeps.plan, keeps.tariff, keeps.plan_mem, keeps.tariff_mem⟩
      handedOut := grown.handedOut after.handedOut
      catalogue := by
        rw [offered, after.catalogue, Catalogue.merge_append, given]
        rfl }

theorem meets_importRow (after : AfterRows plans tariffs db input state db')
    (plan_mem : row ∈ modeRows py "1" [row] → rowPlan py row ∈ plans)
    (tariff_mem : row ∈ modeRows py "2" [row] → rowTariff py row ∈ tariffs) :
    Meets (Grows plans tariffs) (AfterRows plans tariffs db (input.read py row))
      (importRow py state row) db' := by
  unfold importRow CsvInput.read
  rcases row with - | ⟨mode, fields⟩
  · exact meets_pure after
  by_cases plan_mode : py.strip mode = "1"
  · simp only [if_pos plan_mode]
    exact meets_modeBillPlan after (plan_mem (by simp [modeRows, plan_mode]))
  by_cases rate_mode : py.strip mode = "2"
  · simp only [if_neg plan_mode, if_pos rate_mode]
    cases input_plan : input.plan with
    | none =>
        unfold modePrefixTariffRate
        rw [after.keeps.billPlanId_eq_none input_plan]
        exact meets_raise _
    | some plan =>
        have tariff_mem := tariff_mem (by simp [modeRows, rate_mode])
        have done := meets_modePrefixTariffRate after input_plan tariff_mem
        simp only [input_plan] at done ⊢
        exact done
  by_cases function_mode : py.strip mode = "*"
  · simp only [if_neg plan_mode, if_neg rate_mode, if_pos function_mode]
    cases input_tariff : input.tariff with
    | none =>
        unfold modeCalcFunction
        rw [after.keeps.tariffId_eq_none input_tariff]
        exact meets_pure after
    | some tariff =>
        refine meets_bind (meets_modeCalcFunction after input_tariff) fun {_ t} _ done => ?_
        simp only [input_tariff] at done ⊢
        exact meets_pure done
  · simp only [if_neg plan_mode, if_neg rate_mode, if_neg function_mode]
    exact meets_pure after

theorem read_plan_mode (plan_mode : row.head?.map py.strip = some "1") :
    (input.read py row).plan = some (rowPlan py row) := by
  cases row with
  | nil => cases plan_mode
  | cons mode fields =>
      have plan_mode : py.strip mode = "1" := Option.some.inj plan_mode
      simp only [CsvInput.read, if_pos plan_mode]

/-- A file that is imported without an error has been offered to the catalogue, and its plans are
there. -/
theorem meets_importSettings (file : SettingsFile py) (sound : db.HandedOut) :
    Meets (Grows (csvPlans py file) (csvTariffs py file))
      (fun _ db' => db'.catalogue = db.catalogue.merge (csvProvisions py file) ∧
        ∀ name ∈ csvPlans py file, (db'.getBillPlanId name).isSome)
      (importSettings py file) db := by
  let inv (front : List (List String)) (state : ImportState) (t : Database) : Prop :=
    AfterRows (csvPlans py file) (csvTariffs py file) db (csvInput py front) state t ∧
      ∀ name ∈ (modeRows py "1" front).map (rowPlan py), (t.getBillPlanId name).isSome
  have start : inv [] {} db :=
    ⟨⟨⟨.none, .none, nofun, nofun⟩, sound, db.catalogue.merge_empty.symm⟩, nofun⟩
  have loop : Meets (Grows (csvPlans py file) (csvTariffs py file)) (inv file.rows)
      (importSettings py file) db := by
    refine meets_foldlM inv (fun {front row back state t} split holds => ?_) start
    have mem : row ∈ file.rows := split ▸ List.mem_append_right _ List.mem_cons_self
    have mode_mem {mode : String} (own : row ∈ modeRows py mode [row]) :
        row ∈ modeRows py mode file.rows :=
      List.mem_filter.mpr ⟨mem, (List.mem_filter.mp own).2⟩
    refine (meets_importRow holds.1 (fun own => List.mem_map_of_mem (mode_mem own))
      fun own => List.mem_map_of_mem (mode_mem own)).weaken fun {state' t'} grown after => ?_
    have read : csvInput py (front ++ [row]) = (csvInput py front).read py row := List.foldl_append
    refine ⟨read.symm ▸ after, fun name name_mem => ?_⟩
    rw [modeRows, List.filter_append, List.map_append, List.mem_append] at name_mem
    rcases name_mem with old | new
    · exact grown.isSome_getBillPlanId (holds.2 name old)
    · obtain ⟨row', row'_mem, rfl⟩ := List.mem_map.mp new
      obtain ⟨own, plan_mode⟩ := List.mem_filter.mp row'_mem
      obtain rfl := List.mem_singleton.mp own
      obtain ⟨id, -, known⟩ :=
        after.keeps.exists_billPlanId (read_plan_mode (of_decide_eq_true plan_mode))
      exact Option.isSome_of_eq_some known
  exact loop.weaken fun _ ended => ⟨ended.1.catalogue, ended.2⟩

end Settings

end RateEngine.ReCli
