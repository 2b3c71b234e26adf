import Mathlib.Data.List.Forall2
import RateEngine.BplanInput

/-!
# What an import leaves of other plans

Tariffs have one name over all plans, so plans share them.  An import leaves the prefixes, the
tariffs and the free seconds of every plan that the input does not name, and adds calc functions
only to tariffs of the input, at positions that they did not have.  A new plan dumps to what the
input says of it, merged with what its tariffs had before.
-/

namespace RateEngine.ReCli

open Committed

/-! ## Dumps before and after -/

/-- A rate keeps everything but calc functions at new positions, and all if its
tariff is unnamed. -/
structure RateKept (tariffs : List String) (rate rate' : ModelRate ℚ) : Prop where
  kept : rate' = { rate with calcFunctions := rate'.calcFunctions }
  gained : ∃ gained, rate'.calcFunctions.Perm (rate.calcFunctions ++ gained) ∧
    ∀ row ∈ gained, row.pos ∉ rate.calcFunctions.map ModelFunction.pos
  unnamed : rate.tariff ∉ tariffs → rate' = rate

/-- A plan keeps its rates in their order. -/
structure PlanKept (tariffs : List String) (plan plan' : ModelPlan ℚ) : Prop where
  id : plan'.id = plan.id
  name : plan'.name = plan.name
  rates : List.Forall₂ (RateKept tariffs) plan.rates plan'.rates

/-- Unnamed plans are neither added nor changed. -/
structure OthersKept (plans tariffs : List String) (db db' : Database) : Prop where
  added : ∀ bplan, bplan ∉ plans → collectBplan db bplan = none → collectBplan db' bplan = none
  kept : ∀ bplan model, collectBplan db bplan = some model →
    (∀ plan ∈ model.plans, ∀ name ∈ plan.name, name ∉ plans) →
    ∃ model', collectBplan db' bplan = some model' ∧ model'.billPlan = model.billPlan ∧
      List.Forall₂ (PlanKept tariffs) model.plans model'.plans

/-- New plans dump to what the catalogue has after the entries of the input were offered. -/
def NewPlansDumped (plans : List String) (provisions : Provisions) (db db' : Database) : Prop :=
  ∀ plan ∈ plans, db.getBillPlanId plan = none →
    ∃ id rates, collectBplan db' plan =
        some { billPlan := some plan, plans := [{ id := some id, name := some plan, rates }] } ∧
      (rates.map ModelRate.named).Perm
        (((db.catalogue.merge provisions).rates plan).map
          ((db.catalogue.merge provisions).rate db.freeSeconds))

/-! ## Plans of a dump -/

section Rows

variable {db : Database} {plan : String} {id : ℕ}

theorem mem_getBillPlansV2 {row : ℕ × String} (member : row ∈ db.getBillPlansV2 id) :
    db.getBillPlanId row.2 = some row.1 := by
  obtain ⟨plan, plan_mem, rfl⟩ := List.mem_map.mp member
  exact NamedTable.keyOf_eq_some_iff.mpr ⟨plan.2, List.mem_of_mem_filter plan_mem, rfl⟩

theorem mem_getBillPlansTree {row : ℕ × String} (member : row ∈ db.getBillPlansTree id) :
    db.getBillPlanId row.2 = some row.1 := by
  obtain ⟨tree, -, found⟩ := List.mem_filterMap.mp ((List.perm_insertionSort _ _).mem_iff.mp member)
  obtain ⟨plan, plan_eq, rfl⟩ := Option.map_eq_some_iff.mp found
  exact NamedTable.keyOf_eq_some_iff.mpr ⟨plan, SerialTable.get?_eq_some_iff.mp plan_eq, rfl⟩

/-- The plans of a dump are there under their names. -/
theorem mem_planRows {row : ℕ × String} (member : row ∈ planRows db id) :
    db.getBillPlanId row.2 = some row.1 := by
  unfold planRows at member
  split at member
  · exact mem_getBillPlansV2 member
  · exact mem_getBillPlansTree member

theorem getBillPlansV2_eq (known : db.getBillPlanId plan = some id) :
    db.getBillPlansV2 id = [(id, plan)] := by
  obtain ⟨row, member, named⟩ := NamedTable.keyOf_eq_some_iff.mp known
  rw [Database.getBillPlansV2, SerialTable.filter_key member, List.map_singleton, named]

theorem ne_zero_of_getBillPlanId (known : db.getBillPlanId plan = some id) : id ≠ 0 := by
  obtain ⟨row, member, -⟩ := NamedTable.keyOf_eq_some_iff.mp known
  exact (db.billPlan.key_pos _ member).ne'

/-- The dump of a plan. -/
theorem collectBplan_of_getBillPlanId (known : db.getBillPlanId plan = some id) :
    collectBplan db plan =
      some { billPlan := some plan, plans := (planRows db id).map (collectPlan db) } := by
  have all : (planRows db id).filter (fun bp => bp.1 ≠ 0) = planRows db id := by
    refine List.filter_eq_self.mpr fun row member => ?_
    exact decide_eq_true (ne_zero_of_getBillPlanId (mem_planRows member))
  rw [collectBplan, known, Option.map_some, all]

/-- The dump of a plan without a tree. -/
theorem collectBplan_of_no_tree (known : db.getBillPlanId plan = some id)
    (no_tree : db.getBillPlansTree id = []) :
    collectBplan db plan = some
      { billPlan := some plan, plans := [collectPlan db (id, plan)] } := by
  rw [collectBplan_of_getBillPlanId known, planRows, no_tree, getBillPlansV2_eq known]
  rfl

end Rows

/-! ## Other plans -/

section Grown

variable {plans tariffs : List String} {db db' : Database}

/-- The plans of a dump stay. -/
theorem planRows_of_grows (grown : Grows plans tariffs db db') (sound : db.HandedOut)
    {plan : String}
    {id : ℕ} (known : db.getBillPlanId plan = some id) : planRows db' id = planRows db id := by
  have tree : db'.getBillPlansTree id = db.getBillPlansTree id := by
    simp only [Database.getBillPlansTree, grown.billPlanTree]
    refine congrArg _ (List.filterMap_congr fun row member => ?_)
    rw [grown.billPlan.get?_eq (sound.tree_billPlan row (List.mem_of_mem_filter member))]
  rw [planRows, planRows, tree, getBillPlansV2_eq known,
    getBillPlansV2_eq (grown.getBillPlanId known)]

/-- A rate of an old plan. -/
theorem rateKept_of_grows (grown : Grows plans tariffs db db') (sound : db.HandedOut)
    {row : ℕ × Rate} (member : row ∈ db.rate.rows) {data : Database.RateData}
    (rated : db.rateData row.2 = some data) :
    RateKept tariffs (collectRate db data) (collectRate db' data) := by
  obtain ⟨tariff_id, -, tariff_key, -⟩ := rateData_eq_some_iff.mp rated
  have tariff_lt : data.tariffId < db.tariff.next := tariff_id ▸ sound.rate_tariff row member
  have tariff_key : db'.tariff.keyOf data.tariff = some data.tariffId :=
    grown.keyOf_tariff (tariff_id ▸ tariff_key)
  have free : db'.getFreeBillsecV2 data.tariffId = db.getFreeBillsecV2 data.tariffId := by
    rw [Database.getFreeBillsecV2, Database.getFreeBillsecV2, grown.tariff.get?_eq tariff_lt]
    simp only [Database.freeSeconds, grown.freeBillsec]
  obtain ⟨added, calcs, fresh, unnamed⟩ := grown.exists_tariffCalcs_eq data.tariffId
  have kept : collectRate db' data =
      { collectRate db data with calcFunctions := (collectRate db' data).calcFunctions } := by
    simp only [collectRate, free]
  refine ⟨kept, ?_, fun other => ?_⟩
  · refine ⟨if data.tariffId = 0 then [] else added.map collectFunction, ?_, ?_⟩
    · simp only [collectRate, Database.getCalcFunctionsV2]
      split
      · exact .refl _
      · rw [calcs, ← List.map_append]
        refine List.Perm.map _ ((List.perm_insertionSort _ _).trans ?_)
        exact (List.perm_insertionSort _ _).symm.append_right added
    · intro function function_mem taken
      split at function_mem
      · cases function_mem
      · rename_i positive
        obtain ⟨new, new_mem, rfl⟩ := List.mem_map.mp function_mem
        simp only [collectRate, Database.getCalcFunctionsV2, if_neg positive, List.map_map] at taken
        obtain ⟨old, old_mem, same⟩ := List.mem_map.mp taken
        exact fresh new new_mem old ((List.perm_insertionSort _ _).mem_iff.mp old_mem) same
  · have none_added := unnamed data.tariff tariff_key other
    rw [none_added, List.append_nil] at calcs
    simp only [collectRate, free, Database.getCalcFunctionsV2, calcs]

/-- A plan that is not named keeps its rates. -/
theorem planKept_of_grows (grown : Grows plans tariffs db db') (sound : db.HandedOut)
    {plan : String}
    {id : ℕ} (known : db.getBillPlanId plan = some id) (other : plan ∉ plans) :
    PlanKept tariffs (collectPlan db (id, plan)) (collectPlan db' (id, plan)) := by
  have same : db'.planRates id = db.planRates id := by
    refine grown.planRates_eq sound fun name named known' => other ?_
    exact NamedTable.name_eq_of_keyOf known' (grown.getBillPlanId known) ▸ named
  refine ⟨rfl, rfl, ?_⟩
  rw [collectPlan, collectPlan, Database.getRateData, Database.getRateData, same,
    List.forall₂_map_left_iff, List.forall₂_map_right_iff]
  refine List.forall₂_same.mpr fun data member => ?_
  have data_mem := (List.perm_insertionSort _ _).mem_iff.mp member
  obtain ⟨row, row_mem, rated⟩ := List.mem_filterMap.mp data_mem
  exact rateKept_of_grows grown sound (List.mem_of_mem_filter row_mem) rated

/-- Plans that are not named are neither added nor changed. -/
theorem othersKept_of_grows (grown : Grows plans tariffs db db') (sound : db.HandedOut) :
    OthersKept plans tariffs db db' where
  added bplan other unknown := by
    rw [collectBplan, Option.map_eq_none_iff] at unknown ⊢
    rw [grown.other_plans bplan other, unknown]
  kept bplan model dumped others := by
    obtain ⟨id, known, -⟩ := Option.map_eq_some_iff.mp dumped
    rw [collectBplan_of_getBillPlanId known] at dumped
    obtain rfl := Option.some.inj dumped
    refine ⟨_, collectBplan_of_getBillPlanId (grown.getBillPlanId known), rfl, ?_⟩
    rw [planRows_of_grows grown sound known, List.forall₂_map_left_iff, List.forall₂_map_right_iff]
    refine List.forall₂_same.mpr fun row member => ?_
    exact planKept_of_grows grown sound (mem_planRows member)
      (others _ (List.mem_map_of_mem member) row.2 rfl)

/-! ## New plans -/

/-- A plan that was not there has no tree. -/
theorem getBillPlansTree_eq_nil_of_grows (grown : Grows plans tariffs db db') (sound : db.HandedOut)
    {plan : String} {id : ℕ} (unknown : db.getBillPlanId plan = none)
    (known : db'.getBillPlanId plan = some id) : db'.getBillPlansTree id = [] := by
  obtain ⟨row, row_mem, named⟩ := NamedTable.keyOf_eq_some_iff.mp known
  have new : db.billPlan.next ≤ id := by
    by_contra old
    have old_mem := grown.billPlan.old_keys _ row_mem (Nat.lt_of_not_le old)
    have old_known : db.getBillPlanId plan = some id :=
      NamedTable.keyOf_eq_some_iff.mpr ⟨row, old_mem, named⟩
    rw [unknown] at old_known
    cases old_known
  have no_rows : db'.billPlanTree.rows.filter (fun row => row.2.rootBplanId = id) = [] := by
    refine List.filter_eq_nil_iff.mpr fun tree tree_mem own => ?_
    have below := sound.tree_root tree (grown.billPlanTree ▸ tree_mem)
    exact absurd (of_decide_eq_true own) (below.trans_le new).ne
  rw [Database.getBillPlansTree, no_rows]
  rfl

/-- A plan that was not there dumps to its rates in the catalogue. -/
theorem newPlansDumped_of_grows (grown : Grows plans tariffs db db') (sound : db.HandedOut)
    {provisions : Provisions} (merged : db'.catalogue = db.catalogue.merge provisions)
    (there : ∀ plan ∈ plans, (db'.getBillPlanId plan).isSome) :
    NewPlansDumped plans provisions db db' := by
  intro plan plan_mem unknown
  obtain ⟨id, known⟩ := Option.isSome_iff_exists.mp (there plan plan_mem)
  have no_tree := getBillPlansTree_eq_nil_of_grows grown sound unknown known
  have seconds : db'.freeSeconds = db.freeSeconds := by
    unfold Database.freeSeconds
    rw [grown.freeBillsec]
  refine ⟨id, (collectPlan db' (id, plan)).rates, collectBplan_of_no_tree known no_tree, ?_⟩
  rw [← merged, ← seconds]
  exact perm_collectPlan known

end Grown

/-! ## Imports -/

/-- An import keeps other plans, also if it ends with an error, and without one its new plans dump
to what the input says. -/
structure ImportFrame {α : Type} (db : Database) (plans tariffs : List String)
    (provisions : Provisions) (result : Except ImportError α × Database) : Prop where
  others : OthersKept plans tariffs db result.2
  new : ∀ a, result.1 = .ok a → NewPlansDumped plans provisions db result.2

theorem importFrame_of_meets {α : Type} {db : Database} {plans tariffs : List String}
    {provisions : Provisions} {m : Import α} (sound : db.HandedOut)
    (meets : Meets (Grows plans tariffs)
      (fun _ db' => db'.catalogue = db.catalogue.merge provisions ∧
        ∀ name ∈ plans, (db'.getBillPlanId name).isSome) m db) :
    ImportFrame db plans tariffs provisions (m db) where
  others := othersKept_of_grows meets.moves sound
  new a ended := by
    obtain ⟨merged, there⟩ := meets.ends (Prod.ext ended rfl)
    exact newPlansDumped_of_grows meets.moves sound merged there

/-- Structured models and CSV files keep the plans that they do not name, up to calc functions of
tariffs that they do name. -/
theorem import_frame {φ : Type} (codec : FeeCodec φ) (py : PyText) {db : Database}
    (sound : db.HandedOut) :
    (∀ model : BplanModel φ, ImportFrame db (modelPlans model) (modelTariffs model)
      (modelProvisions codec model) (importModel codec model db)) ∧
    ∀ file : SettingsFile py, ImportFrame db (csvPlans py file) (csvTariffs py file)
      (csvProvisions py file) (importSettings py file db) :=
  ⟨fun model => importFrame_of_meets sound
      ((meets_importModel codec model sound).weaken fun _ ended => ended.2),
    fun file => importFrame_of_meets sound (meets_importSettings file sound)⟩

/-! ## A shared tariff -/

/-- A plan with one rate, whose tariff has calc functions of some positions and fees. -/
def onePlan (name prefixStr tariff : String) (calcs : List (ℤ × ℚ)) : BplanModel ℚ where
  billPlan := some name
  plans :=
    [{ name := some name
       rates :=
        [{ prefixStr := prefixStr
           tariff := tariff
           freeBillsec := none
           calcFunctions := calcs.map fun row => ⟨row.1, some 60, some row.2, none⟩ }] }]

theorem Database.schema_handedOut : Database.schema.HandedOut := by
  constructor <;> exact fun row member => absurd member List.not_mem_nil

/-- The tables after the import of a plan `retail` with a tariff `mobile`. -/
def retailTables : Database :=
  (importModel .decimals (onePlan "retail" "44" "mobile" [(1, 1)]) .schema).2

/-- Another plan with the tariff `mobile`, which has one more calc function. -/
def wholesale : BplanModel ℚ := onePlan "wholesale" "44" "mobile" [(1, 1), (2, 1)]

theorem retailTables_handedOut : retailTables.HandedOut :=
  (meets_importModel _ _ Database.schema_handedOut).moves.handedOut Database.schema_handedOut

/-- The number of a text of digits. -/
def digitsOf (text : String) : Option ℕ :=
  if text = "" then none
  else text.toList.foldlM (fun n c => if c.isDigit then some (10 * n + (c.toNat - 48)) else none) 0

/-- Texts whose blanks are white space and whose numbers are digits. -/
def PyText.digits : PyText where
  strip text :=
    String.ofList ((text.toList.dropWhile Char.isWhitespace).reverse.dropWhile
      Char.isWhitespace).reverse
  int? text := (digitsOf text).map Nat.cast
  decimal? text := (digitsOf text).map Nat.cast

/-- The same plan as a CSV file. -/
def wholesaleFile : SettingsFile .digits where
  rows :=
    [["# plans"], ["1", "wholesale"], ["2", "44", "", "mobile"], ["*", "1", "1", "60"],
      ["*", "2", "1", "60"]]
  modes := by decide +kernel

/-- Imported either way, the plan leaves `retail` but for calc functions of `mobile`, and
has its own rate. -/
theorem import_frame_wholesale :
    OthersKept ["wholesale"] ["mobile"] retailTables
        (importModel .decimals wholesale retailTables).2 ∧
      NewPlansDumped ["wholesale"] (modelProvisions .decimals wholesale) retailTables
        (importModel .decimals wholesale retailTables).2 ∧
      OthersKept ["wholesale"] ["mobile"] retailTables
        (importSettings .digits wholesaleFile retailTables).2 := by
  have model_plans : modelPlans wholesale = ["wholesale"] := by decide +kernel
  have model_tariffs : modelTariffs wholesale = ["mobile"] := by decide +kernel
  have file_plans : csvPlans .digits wholesaleFile = ["wholesale"] := by decide +kernel
  have file_tariffs : csvTariffs .digits wholesaleFile = ["mobile"] := by decide +kernel
  have frame := import_frame .decimals .digits retailTables_handedOut
  have model := frame.1 wholesale
  have file := frame.2 wholesaleFile
  rw [model_plans, model_tariffs] at model
  rw [file_plans, file_tariffs] at file
  exact ⟨model.others, model.new () (by decide +kernel), file.others⟩

/-- The plan `retail` below a root. -/
def treeTables : Database :=
  { retailTables with
    billPlan := retailTables.billPlan.insertNew
      { name := "root", billPlanTypeId := 2, startPeriod := 0, endPeriod := 0
        name_fits := by decide +kernel } (by decide +kernel)
    billPlanTree := SerialTable.empty.insert { billPlanId := 1, rootBplanId := 2 } }

theorem treeTables_handedOut : treeTables.HandedOut where
  rate_billPlan := by decide +kernel
  rate_tariff := by decide +kernel
  rate_prefixes := by decide +kernel
  function_tariff := by decide +kernel
  tree_billPlan := by decide +kernel
  tree_root := by decide +kernel

/-- A rate of a tariff that is not there yet. -/
def danglingTables : Database :=
  { retailTables with
    rate := retailTables.rate.insert { billPlanId := 1, tariffId := 2, prefixId := 1 } }

/-- The rates of a dump without their identifiers. -/
def namedRates (model : BplanModel ℚ) : List (List (ModelRate ℚ)) :=
  model.plans.map fun plan => plan.rates.map ModelRate.named

/-- How many rates the plans of a dump have. -/
def rateCounts (model : BplanModel ℚ) : List ℕ := model.plans.map fun plan => plan.rates.length

theorem rateCounts_of_kept {tariffs : List String} {model model' : BplanModel ℚ}
    (kept : List.Forall₂ (PlanKept tariffs) model.plans model'.plans) :
    rateCounts model' = rateCounts model := by
  unfold rateCounts
  revert kept
  generalize model.plans = plans
  generalize model'.plans = plans'
  intro kept
  induction kept with
  | nil => rfl
  | cons same _ induction => rw [List.map_cons, List.map_cons, induction, same.rates.length_eq]

/-- Plans that are kept have as many rates in the later dump. -/
theorem map_rateCounts_of_kept {tariffs : List String} {db db' : Database} {bplan : String}
    {model model' : BplanModel ℚ} (dumped : collectBplan db bplan = some model)
    (dumped' : collectBplan db' bplan = some model')
    (kept : List.Forall₂ (PlanKept tariffs) model.plans model'.plans) :
    (collectBplan db' bplan).map rateCounts = (collectBplan db bplan).map rateCounts := by
  rw [dumped, dumped', Option.map_some, Option.map_some, rateCounts_of_kept kept]

/-- An import changes other plans through a shared tariff, through a tree, and through a reference
to what was not there yet; and a shared tariff shows in a new plan. -/
theorem importModel_changes_other_plan :
    (¬ ∀ (db : Database) (model : BplanModel ℚ) (bplan : String), db.HandedOut →
      bplan ∉ modelPlans model → (importModel .decimals model db).1 = .ok () →
      collectBplan (importModel .decimals model db).2 bplan = collectBplan db bplan) ∧
    (¬ ∀ (db : Database) (model : BplanModel ℚ) (bplan : String), db.HandedOut →
      bplan ∉ modelPlans model → ∀ dump ∈ collectBplan db bplan,
      ∃ dump' ∈ collectBplan (importModel .decimals model db).2 bplan,
        List.Forall₂ (PlanKept (modelTariffs model)) dump.plans dump'.plans) ∧
    (¬ ∀ (db : Database) (model : BplanModel ℚ),
      OthersKept (modelPlans model) (modelTariffs model) db (importModel .decimals model db).2) ∧
    ¬ ∀ (db db' : Database) (model : BplanModel ℚ), db.HandedOut → db'.HandedOut →
      db.freeBillsec = db'.freeBillsec → ∀ plan ∈ modelPlans model,
      db.getBillPlanId plan = none → db'.getBillPlanId plan = none →
      (collectBplan (importModel .decimals model db).2 plan).map namedRates =
        (collectBplan (importModel .decimals model db').2 plan).map namedRates := by
  refine ⟨fun claim => ?shared, fun claim => ?tree, fun claim => ?dangling, fun claim => ?new⟩
  case shared =>
    have same := claim retailTables wholesale "retail" retailTables_handedOut (by decide +kernel)
      (by decide +kernel)
    exact absurd same (by decide +kernel)
  case tree =>
    obtain ⟨dump, dumped⟩ := Option.isSome_iff_exists.mp
      (by decide +kernel : (collectBplan treeTables "root").isSome)
    obtain ⟨dump', dumped', kept⟩ := claim treeTables (onePlan "retail" "45" "mobile" []) "root"
      treeTables_handedOut (by decide +kernel) dump dumped
    exact absurd (map_rateCounts_of_kept dumped dumped' kept) (by decide +kernel)
  case dangling =>
    have known : danglingTables.getBillPlanId "retail" = some 1 := by decide +kernel
    have dumped := collectBplan_of_no_tree known (by decide +kernel)
    have others := claim danglingTables (onePlan "wholesale" "44" "fixed" [])
    obtain ⟨dump', dumped', -, kept⟩ := others.kept "retail" _ dumped (by
      intro plan member name own
      obtain rfl := List.mem_singleton.mp member
      obtain rfl := Option.some.inj own
      decide +kernel)
    exact absurd (map_rateCounts_of_kept dumped dumped' kept) (by decide +kernel)
  case new =>
    have same := claim .schema retailTables (onePlan "wholesale" "44" "mobile" [(1, 2)])
      Database.schema_handedOut retailTables_handedOut (by decide +kernel) "wholesale"
      (by decide +kernel) (by decide +kernel) (by decide +kernel)
    exact absurd same (by decide +kernel)

end RateEngine.ReCli
