import RateEngine.Lib.ReadThrough
import RateEngine.RateChoice
import RateEngine.RtCache

/-!
# The age of cached rates and tariffs

Workers look the rates of a plan and the functions of a tariff up in the shared cache while the
tables are edited.  The header of the cache says that an edit takes effect within `RT_CACHE_TTL`
seconds.  An entry is stamped when it is stored and not when its rows were read, so this file proves
that bound with the time of one lookup added, and that the sum is reached.
-/

namespace RateEngine

open ReadThrough

/-! ## The tables -/

/-- The tables behind the rates and the functions of tariffs. -/
structure ReferenceTables extends RateTables where
  calcFunction : List (ℕ × CalcFunction) := []

namespace ReferenceTables

variable (tables : ReferenceTables)

/-- `rt_data_q_bplan_tree_num`. -/
def bplanTreeNum (bplanId : ℕ) : ℤ := (tables.tree bplanId).length

/-- The second statement of `rt_data_q_rate_sql`: the rates of the plan, or of the plans of its
tree. -/
def selectRates (bplanId : ℕ) (bplanNum : ℤ) : List Rate :=
  (if bplanNum = 0 then tables.planRates bplanId
    else (tables.tree bplanId).flatMap fun tree => tables.planRates tree.billPlanId).insertionSort
      fun rt rt' => rt'.prefixStr ≤ rt.prefixStr

/-- The statement of `rt_data_q_tariff_sql`. -/
def selectFunctions (tariffId : ℕ) : List CalcFunction :=
  ((tables.calcFunction.filter fun row => row.1 = tariffId).map Prod.snd).insertionSort
    fun tr tr' => tr.pos ≤ tr'.pos

end ReferenceTables

/-- A rate as `rt_data_q_rate_sql` fills it in a cleared array. -/
def Rate.loaded (rate : Rate) : RateT := { rate with tariffName := "", calcFuncs := none }

/-! ## The lookups -/

/-- `rt_data_q_rate_sql` makes an array, also of no rows. -/
def ratesFetch : Fetch ReferenceTables ℕ ℤ RateT where
  note := ReferenceTables.bplanTreeNum
  rows tables bplanId bplanNum := some ((tables.selectRates bplanId bplanNum).map Rate.loaded)
  copy := RateT.detached
  copy_copy := RateT.detached_detached
  copied read row member := by
    obtain rfl := Option.some.inj read
    obtain ⟨rate, -, rfl⟩ := List.mem_map.mp member
    rfl

/-- The functions of a tariff, if it has any. -/
def functionRows (tables : ReferenceTables) (tariffId : ℕ) : Option (List CalcFunction) :=
  match tables.selectFunctions tariffId with
  | [] => none
  | tr :: rest => some (tr :: rest)

/-- `rt_data_q_tariff_sql` has one statement; without rows it makes no array. -/
def tariffFetch : Fetch ReferenceTables ℕ Unit CalcFunction where
  note _ _ := ()
  rows tables tariffId _ := functionRows tables tariffId
  copy := id
  copy_copy _ := rfl
  copied _ _ _ := rfl

/-- The lookups of both kinds, on one clock and one database. -/
structure ReferenceLookups where
  rates : State ℕ ℕ ℤ RateT ReferenceTables
  tariffs : State ℕ ℕ Unit CalcFunction ReferenceTables

/-- A step of the clock, an edit of the tables or a step of a worker. -/
inductive ReferenceAction where
  | tick (now : ℤ)
  | edit (tables : ReferenceTables)
  | rates (step : Action ℕ ℤ RateT ReferenceTables)
  | tariffs (step : Action ℕ Unit CalcFunction ReferenceTables)

namespace ReferenceLookups

/-- The workers before their first lookup. -/
def start (tables : ReferenceTables) (workers : ℕ) : ReferenceLookups where
  rates := { source := tables, lookups := List.replicate workers .idle }
  tariffs := { source := tables, lookups := List.replicate workers .idle }

/-- One step of the lookups of rates. -/
def ratesStep (span : ℤ) (s : ReferenceLookups) (action : Action ℕ ℤ RateT ReferenceTables) :
    Option (State ℕ ℕ ℤ RateT ReferenceTables) :=
  s.rates.step ratesFetch rtCacheHashInt rtCacheTtl span action

/-- One step of the lookups of tariffs. -/
def tariffsStep (span : ℤ) (s : ReferenceLookups)
    (action : Action ℕ Unit CalcFunction ReferenceTables) :
    Option (State ℕ ℕ Unit CalcFunction ReferenceTables) :=
  s.tariffs.step tariffFetch rtCacheHashInt rtCacheTtl span action

/-- One step, in which a lookup takes at most `span` seconds. -/
def step (span : ℤ) (s : ReferenceLookups) : ReferenceAction → Option ReferenceLookups
  | .tick now =>
      (s.ratesStep span (.tick now)).bind fun rates =>
        (s.tariffsStep span (.tick now)).map fun tariffs => { rates, tariffs }
  | .edit tables =>
      (s.ratesStep span (.edit tables)).bind fun rates =>
        (s.tariffsStep span (.edit tables)).map fun tariffs => { rates, tariffs }
  | .rates (.tick _) | .rates (.edit _) | .tariffs (.tick _) | .tariffs (.edit _) => none
  | .rates action => (s.ratesStep span action).map fun rates => { s with rates }
  | .tariffs action => (s.tariffsStep span action).map fun tariffs => { s with tariffs }

end ReferenceLookups

/-- The first statement of some lookup of rates gives no result, and `number` of
`rt_data_q_bplan_tree_num` is read unset. -/
def treeLost (actions : List ReferenceAction) : Set ℤ :=
  { number | ∃ w, .rates (.first w (some number)) ∈ actions }

/-! ## The bound -/

namespace ReferenceLookups

/-- The array of a lookup that has ended holds rows that were in the tables at most `age` before
the end, and was not freed.  The number of tree rows and the rates may be of different times. -/
structure AnswersWithin (age : ℤ) (lost : Set ℤ) (s : ReferenceLookups) : Prop where
  rates : ∀ bplanId ended p, .given bplanId ended p ∈ s.rates.lookups →
    ∃ bplanNum tables,
      (bplanNum ∈ lost ∨ ∃ counted, s.rates.InForce (ended - age) counted ∧
        counted.bplanTreeNum bplanId = bplanNum) ∧
      s.rates.InForce (ended - age) tables ∧
      s.rates.cache.heap.get? p =
        some ((tables.selectRates bplanId bplanNum).map (fun rate => some rate.loaded) ++ [none]) ∧
      s.rates.cache.heap.frees p = 0
  tariffs : ∀ tariffId ended p, .given tariffId ended p ∈ s.tariffs.lookups →
    ∃ tables, s.tariffs.InForce (ended - age) tables ∧
      s.tariffs.cache.heap.get? p =
        some ((tables.selectFunctions tariffId).map some ++ [none]) ∧
      s.tariffs.cache.heap.frees p = 0

/-- The invariant of both kinds of lookups. -/
structure Recent (span : ℤ) (lost : Set ℤ) (s : ReferenceLookups) : Prop where
  rates : s.rates.Recent ratesFetch rtCacheHashInt rtCacheTtl span lost
  tariffs : s.tariffs.Recent tariffFetch rtCacheHashInt rtCacheTtl span Set.univ

variable {span : ℤ} {lost : Set ℤ} {s t : ReferenceLookups}

theorem Recent.start (tables : ReferenceTables) (workers : ℕ) :
    (ReferenceLookups.start tables workers).Recent span lost := ⟨.start workers, .start workers⟩

theorem Recent.step (recent : s.Recent span lost) (span_nonneg : 0 ≤ span)
    {action : ReferenceAction}
    (tree : ∀ w n, action = .rates (.first w (some n)) → n ∈ lost)
    (steps : s.step span action = some t) : t.Recent span lost := by
  have ttl_nonneg : 0 ≤ rtCacheTtl := by decide
  have rates {action' rates'} (own : ∀ w n, action' = .first w (some n) → n ∈ lost)
      (stepped : s.ratesStep span action' = some rates') :
      rates'.Recent ratesFetch rtCacheHashInt rtCacheTtl span lost :=
    recent.rates.step ttl_nonneg span_nonneg own stepped
  have tariffs {action' tariffs'} (stepped : s.tariffsStep span action' = some tariffs') :
      tariffs'.Recent tariffFetch rtCacheHashInt rtCacheTtl span Set.univ :=
    recent.tariffs.step ttl_nonneg span_nonneg (fun _ _ _ => Set.mem_univ _) stepped
  cases action with
  | tick now =>
      unfold ReferenceLookups.step at steps
      obtain ⟨rates', stepped, rest⟩ := Option.bind_eq_some_iff.mp steps
      obtain ⟨tariffs', stepped', rfl⟩ := Option.map_eq_some_iff.mp rest
      exact ⟨rates (fun _ _ same => by cases same) stepped, tariffs stepped'⟩
  | edit tables =>
      unfold ReferenceLookups.step at steps
      obtain ⟨rates', stepped, rest⟩ := Option.bind_eq_some_iff.mp steps
      obtain ⟨tariffs', stepped', rfl⟩ := Option.map_eq_some_iff.mp rest
      exact ⟨rates (fun _ _ same => by cases same) stepped, tariffs stepped'⟩
  | rates action =>
      have worker : ∃ rates', s.ratesStep span action = some rates' ∧
          { s with rates := rates' } = t := by
        cases action <;> first | exact Option.map_eq_some_iff.mp steps | cases steps
      obtain ⟨rates', stepped, rfl⟩ := worker
      exact ⟨rates (fun w n same => tree w n (congrArg _ same)) stepped, recent.tariffs⟩
  | tariffs action =>
      have worker : ∃ tariffs', s.tariffsStep span action = some tariffs' ∧
          { s with tariffs := tariffs' } = t := by
        cases action <;> first | exact Option.map_eq_some_iff.mp steps | cases steps
      obtain ⟨tariffs', stepped, rfl⟩ := worker
      exact ⟨recent.rates, tariffs stepped⟩

theorem Recent.run (recent : s.Recent span lost) (span_nonneg : 0 ≤ span)
    {actions : List ReferenceAction} (tree : treeLost actions ⊆ lost)
    (ran : execAll (ReferenceLookups.step span) s actions = some t) : t.Recent span lost := by
  induction actions generalizing s with
  | nil =>
      obtain rfl := Option.some.inj ran
      exact recent
  | cons action rest induction =>
      obtain ⟨next, steps, ran⟩ := Option.bind_eq_some_iff.mp ran
      refine induction (recent.step span_nonneg (fun w n same => ?_) steps) (fun n => ?_) ran
      · exact tree ⟨w, same ▸ List.mem_cons_self⟩
      · rintro ⟨w, member⟩
        exact tree ⟨w, List.mem_cons_of_mem _ member⟩

theorem functionRows_eq_some {tables : ReferenceTables} {tariffId : ℕ} {rows : List CalcFunction}
    (read : functionRows tables tariffId = some rows) : tables.selectFunctions tariffId = rows := by
  unfold functionRows at read
  split at read
  · cases read
  · rename_i selected
    exact selected.trans (Option.some.inj read)

theorem Recent.answersWithin (recent : s.Recent span lost) :
    s.AnswersWithin (rtCacheTtl + span) lost where
  rates bplanId ended p member := by
    obtain ⟨-, rows, ⟨own, content⟩, bplanNum, tables, counted, force, read⟩ :=
      recent.rates.allowed _ member
    obtain ⟨last, sound, -⟩ := recent.rates.stored
    obtain rfl := Option.some.inj read
    rw [sub_sub] at counted force
    rw [List.map_map] at content
    exact ⟨bplanNum, tables, counted, force, content, (sound.callers p own).2⟩
  tariffs tariffId ended p member := by
    obtain ⟨-, rows, ⟨own, content⟩, _, tables, -, force, read⟩ :=
      recent.tariffs.allowed _ member
    obtain ⟨last, sound, -⟩ := recent.tariffs.stored
    obtain rfl := functionRows_eq_some read
    rw [sub_sub] at force
    exact ⟨tables, force, content, (sound.callers p own).2⟩

end ReferenceLookups

/-! ## The bound is reached -/

/-- One function of tariff `1`. -/
def oldTariff : ReferenceTables where
  rate := .empty
  prefixes := .empty
  tariff := .empty
  calcFunction := [(1, ⟨1, 60, 5, 0⟩)]

/-- The function was deleted. -/
def noTariff : ReferenceTables := { oldTariff with calcFunction := [] }

/-- The two workers at a time after the edit. -/
def afterEdit (now : ℤ) (cache : CopyCache ℕ ℕ CalcFunction) (lookups : List (Lookup ℕ Unit)) :
    ReferenceLookups where
  rates := { now, source := noTariff, past := [(0, oldTariff)], lookups := [.idle, .idle] }
  tariffs := { now, source := noTariff, past := [(0, oldTariff)], cache, lookups }

/-- The array of the first worker. -/
def readTariff : CopyCache ℕ ℕ CalcFunction where
  heap := { cells := [([some ⟨1, 60, 5, 0⟩, none], 0)] }
  callers := {0}

/-- The array and its copy in the cache. -/
def storedTariff (stamp : ℤ) : CopyCache ℕ ℕ CalcFunction where
  chains := BucketCache.empty.put rtCacheHashInt ⟨1, stamp, 1, 1⟩
  heap := { cells := [([some ⟨1, 60, 5, 0⟩, none], 0), ([some ⟨1, 60, 5, 0⟩, none], 0)] }
  callers := {0}

/-- The functions are read just before they are deleted, and stored `span` later; another worker
looks them up when the entry is as old as it may be. -/
def lateStore (span : ℕ) : List ReferenceAction :=
  [.tariffs (.look 0 1), .tariffs (.first 0 none), .tariffs (.second 0 false), .edit noTariff,
    .tick span, .tariffs (.put 0), .tick (span + rtCacheTtl), .tariffs (.look 1 1)]

/-- The second worker has a copy. -/
def lateEnd (span : ℕ) : ReferenceLookups :=
  afterEdit (span + rtCacheTtl)
    { storedTariff span with
      heap := (storedTariff span).heap.alloc [some ⟨1, 60, 5, 0⟩, none]
      callers := {2, 0} }
    [.given 1 span 0, .given 1 (span + rtCacheTtl) 2]

theorem step_tick (span : ℤ) {now now' : ℤ} (cache : CopyCache ℕ ℕ CalcFunction)
    {lookups : List (Lookup ℕ Unit)} (now_le : now ≤ now')
    (in_time : ∀ l ∈ lookups, ∀ since ∈ l.began, now' ≤ since + span) :
    (afterEdit now cache lookups).step span (.tick now') = some (afterEdit now' cache lookups) := by
  have idle : ∀ l ∈ ([.idle, .idle] : List (Lookup ℕ ℤ)), ∀ since ∈ l.began,
      now' ≤ since + span := by simp [Lookup.began]
  have rates : (afterEdit now cache lookups).ratesStep span (.tick now') =
      some (afterEdit now' cache lookups).rates := if_pos ⟨now_le, idle⟩
  have tariffs : (afterEdit now cache lookups).tariffsStep span (.tick now') =
      some (afterEdit now' cache lookups).tariffs := if_pos ⟨now_le, in_time⟩
  rw [ReferenceLookups.step, rates, Option.bind_some, tariffs]
  rfl

theorem lateStore_runs (span : ℕ) :
    execAll (ReferenceLookups.step span) (.start oldTariff 2) (lateStore span) =
      some (lateEnd span) := by
  have read : execAll (ReferenceLookups.step span) (.start oldTariff 2) (lateStore span) =
      execAll (ReferenceLookups.step span) (afterEdit 0 readTariff [.filled 1 0 0 1, .idle])
        [.tick span, .tariffs (.put 0), .tick (span + rtCacheTtl), .tariffs (.look 1 1)] := rfl
  have waited : (afterEdit 0 readTariff [.filled 1 0 0 1, .idle]).step span (.tick span) =
      some (afterEdit span readTariff [.filled 1 0 0 1, .idle]) :=
    step_tick span readTariff (Int.natCast_nonneg span) (by simp [Lookup.began])
  have stored : (afterEdit span readTariff [.filled 1 0 0 1, .idle]).step span
      (.tariffs (.put 0)) =
        some (afterEdit span (storedTariff span) [.given 1 span 0, .idle]) := rfl
  have aged : (afterEdit span (storedTariff span) [.given 1 span 0, .idle]).step span
      (.tick (span + rtCacheTtl)) =
        some (afterEdit (span + rtCacheTtl) (storedTariff span) [.given 1 span 0, .idle]) :=
    step_tick span (storedTariff span) (by rw [rtCacheTtl]; omega) (by simp [Lookup.began])
  have fresh : (storedTariff span).chains.get rtCacheHashInt rtCacheTtl (span + rtCacheTtl) 1 =
      some (1, 1) := if_pos (add_sub_cancel_left (span : ℤ) rtCacheTtl).le
  have copied : (storedTariff span).get rtCacheHashInt tariffFetch.copy rtCacheTtl
      (span + rtCacheTtl) 1 =
        some (some (2, 1), { storedTariff span with
          heap := (storedTariff span).heap.alloc [some ⟨1, 60, 5, 0⟩, none]
          callers := {2, 0} }) := by
    rw [CopyCache.get, fresh]
    rfl
  have tariffs : (afterEdit (span + rtCacheTtl) (storedTariff span)
      [.given 1 span 0, .idle]).tariffsStep span (.look 1 1) = some (lateEnd span).tariffs := by
    change Option.map _ _ = some _
    exact Option.map_eq_some_iff.mpr ⟨_, copied, rfl⟩
  have looked : (afterEdit (span + rtCacheTtl) (storedTariff span) [.given 1 span 0, .idle]).step
      span (.tariffs (.look 1 1)) = some (lateEnd span) := by
    unfold ReferenceLookups.step
    exact Option.map_eq_some_iff.mpr ⟨_, tariffs, rfl⟩
  rw [read, execAll, waited, Option.bind_some, execAll, stored, Option.bind_some, execAll, aged,
    Option.bind_some, execAll, looked, Option.bind_some, execAll]

/-- Rows are at most as old as the time to live and one lookup together, in every run; and for every
time that a lookup may take, some run gives rows that are as old as that. -/
theorem referenceLookups_age (span : ℕ) :
    (∀ {tables workers actions t},
      execAll (ReferenceLookups.step span) (.start tables workers) actions = some t →
        t.AnswersWithin (rtCacheTtl + span) (treeLost actions)) ∧
    ∀ age < rtCacheTtl + span, ∃ tables workers actions t,
      execAll (ReferenceLookups.step span) (.start tables workers) actions = some t ∧
        treeLost actions = ∅ ∧ ¬ t.AnswersWithin age ∅ := by
  constructor
  · intro tables workers actions t ran
    exact ((ReferenceLookups.Recent.start tables workers).run (Int.natCast_nonneg span)
      (le_refl (treeLost actions)) ran).answersWithin
  · intro age below
    refine ⟨oldTariff, 2, lateStore span, lateEnd span, lateStore_runs span, ?_, fun within => ?_⟩
    · ext number
      simp [treeLost, lateStore]
    · obtain ⟨tables, force, content, -⟩ :=
        within.tariffs 1 (span + rtCacheTtl) 2 (by simp [lateEnd, afterEdit])
      have current : tables = noTariff := by
        rcases force with same | ⟨replaced, member, later⟩
        · exact same
        · have first : replaced = 0 := by
            simpa [lateEnd, afterEdit] using congrArg Prod.fst (List.mem_singleton.mp member)
          omega
      subst current
      cases content

end RateEngine
