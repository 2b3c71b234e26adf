import RateEngine.CardBlocking
import RateEngine.Lib.CopyCache

/-!
# The reference cache

`rt_cache_t` has six tables.  Three of them keep arrays: a put stores a copy of the array of its
caller, and a get gives a copy to its caller.  The other three keep a value in the entry.  This file
models the puts and gets of all six, with the memory of the arrays, and proves that every table is a
map from keys to the last put, for `RT_CACHE_TTL` seconds.
-/

namespace RateEngine

/-! ## The tables -/

/-- `rate_t`. -/
structure RateT extends Rate where
  tariffName : String
  calcFuncs : Option ℕ
deriving DecidableEq, Repr

/-- The tariff of a rate is attached later, and is not carried in a copy. -/
def RateT.detached (rate : RateT) : RateT := { rate with calcFuncs := none }

theorem RateT.detached_detached (rate : RateT) : rate.detached.detached = rate.detached := rfl

/-- A text shorter than the key field of `rt_cache_racc_entry_t`. -/
abbrev RaccKey := {key : List UInt8 // key.length < 128}

/-- The tables of `rt_cache_t`, each table of arrays with the memory of its arrays. -/
structure RtCache where
  rates : CopyCache ℕ ℕ RateT := {}
  tariffs : CopyCache ℕ ℕ CalcFunction := {}
  raccs : BucketCache ℕ (List UInt8) RaccData := .empty
  pcards : CopyCache ℕ ℕ Pcard := {}
  tcs : BucketCache ℕ ℕ ℤ := .empty
  fbs : BucketCache ℕ ℕ ℤ := .empty

namespace RtCache

section Tables

variable (now : ℤ)

/-- `rt_cache_rates_get`. -/
def ratesGet (rates : CopyCache ℕ ℕ RateT) (bplanId : ℕ) :
    Option (Option (ℕ × ℕ) × CopyCache ℕ ℕ RateT) :=
  rates.get rtCacheHashInt RateT.detached rtCacheTtl now bplanId

/-- `rt_cache_rates_put`. -/
def ratesPut (rates : CopyCache ℕ ℕ RateT) (bplanId : ℕ) (src : Option ℕ) (count : ℤ) :
    Option (CopyCache ℕ ℕ RateT) :=
  rates.put rtCacheHashInt RateT.detached now bplanId src count

/-- `rt_cache_tariff_get`. -/
def tariffGet (tariffs : CopyCache ℕ ℕ CalcFunction) (tariffId : ℕ) :
    Option (Option (ℕ × ℕ) × CopyCache ℕ ℕ CalcFunction) :=
  tariffs.get rtCacheHashInt id rtCacheTtl now tariffId

/-- `rt_cache_tariff_put`. -/
def tariffPut (tariffs : CopyCache ℕ ℕ CalcFunction) (tariffId : ℕ) (funcs : Option ℕ)
    (count : ℤ) : Option (CopyCache ℕ ℕ CalcFunction) :=
  tariffs.put rtCacheHashInt id now tariffId funcs count

/-- `rt_cache_pcard_get`. -/
def pcardGet (pcards : CopyCache ℕ ℕ Pcard) (baccId : ℕ) :
    Option (Option (ℕ × ℕ) × CopyCache ℕ ℕ Pcard) :=
  pcards.get rtCacheHashInt id rtCacheTtl now baccId

/-- `rt_cache_pcard_put`. -/
def pcardPut (pcards : CopyCache ℕ ℕ Pcard) (baccId : ℕ) (cards : Option ℕ) (count : ℤ) :
    Option (CopyCache ℕ ℕ Pcard) :=
  pcards.put rtCacheHashInt id now baccId cards count

/-- `rt_cache_hash_str` on the bytes of a key. -/
def hashStr (key : List UInt8) : ℕ :=
  (key.foldl (fun (h : ℤ) (c : UInt8) => (h * 33 + c.toInt8.toInt) % 4294967296) 5381).toNat % 256

/-- `rt_cache_racc_get`. -/
def raccGet (raccs : BucketCache ℕ (List UInt8) RaccData) (key : RaccKey) :
    Option RaccData :=
  raccs.get hashStr rtCacheTtl now key

/-- `rt_cache_racc_put`: a new entry gets as much of the key as its field holds. -/
def raccPut (raccs : BucketCache ℕ (List UInt8) RaccData) (key : RaccKey)
    (data : RaccData) : BucketCache ℕ (List UInt8) RaccData where
  chain bucket :=
    if bucket = hashStr key then
      (BucketCache.replaceEntry ⟨key.1, now, data⟩ (raccs.chain bucket)).getD
        (⟨key.1.take 127, now, data⟩ :: raccs.chain bucket)
    else raccs.chain bucket

/-- `rt_cache_tc_get`. -/
def tcGet (tcs : BucketCache ℕ ℕ ℤ) (tariffId : ℕ) : Option ℤ :=
  tcs.get rtCacheHashInt rtCacheTtl now tariffId

/-- `rt_cache_tc_put`. -/
def tcPut (tcs : BucketCache ℕ ℕ ℤ) (tariffId : ℕ) (hasTc : ℤ) : BucketCache ℕ ℕ ℤ :=
  tcs.put rtCacheHashInt ⟨tariffId, now, hasTc⟩

/-- `rt_cache_fbs_get`. -/
def fbsGet (fbs : BucketCache ℕ ℕ ℤ) (tariffId : ℕ) : Option ℤ :=
  fbs.get rtCacheHashInt rtCacheTtl now tariffId

/-- `rt_cache_fbs_put`. -/
def fbsPut (fbs : BucketCache ℕ ℕ ℤ) (tariffId : ℕ) (limit : ℤ) : BucketCache ℕ ℕ ℤ :=
  fbs.put rtCacheHashInt ⟨tariffId, now, limit⟩

end Tables

/-- The hash of a text is the hash of its bytes. -/
theorem rtCacheHashStr_eq (key : String) :
    rtCacheHashStr key = hashStr (key.toList.flatMap String.utf8EncodeChar) := rfl

/-- A short key is stored whole. -/
theorem raccPut_eq (now : ℤ) (raccs : BucketCache ℕ (List UInt8) RaccData) (key : RaccKey)
    (data : RaccData) :
    raccPut now raccs key data = raccs.put hashStr ⟨key.1, now, data⟩ := by
  have whole : key.1.take 127 = key.1 := List.take_of_length_le (Nat.le_of_lt_succ key.2)
  rw [raccPut, whole]
  rfl

/-! ## Runs -/

end RtCache

/-- An operation on the cache, or a step of a caller with its own arrays. -/
inductive RtCacheOp where
  | ratesGet (now : ℤ) (bplanId : ℕ)
  | ratesPut (now : ℤ) (bplanId : ℕ) (rates : Option ℕ) (count : ℤ)
  | rateArrays (op : CallerOp RateT)
  | tariffGet (now : ℤ) (tariffId : ℕ)
  | tariffPut (now : ℤ) (tariffId : ℕ) (funcs : Option ℕ) (count : ℤ)
  | tariffArrays (op : CallerOp CalcFunction)
  | raccGet (now : ℤ) (key : RaccKey)
  | raccPut (now : ℤ) (key : RaccKey) (data : RaccData)
  | pcardGet (now : ℤ) (baccId : ℕ)
  | pcardPut (now : ℤ) (baccId : ℕ) (cards : Option ℕ) (count : ℤ)
  | pcardArrays (op : CallerOp Pcard)
  | tcGet (now : ℤ) (tariffId : ℕ)
  | tcPut (now : ℤ) (tariffId : ℕ) (hasTc : ℤ)
  | fbsGet (now : ℤ) (tariffId : ℕ)
  | fbsPut (now : ℤ) (tariffId : ℕ) (limit : ℤ)

namespace RtCache

/-- The cache after an operation; nothing when a caller hands over or changes an array that is not
its own, or hands over a count beyond its array. -/
def step (cache : RtCache) : RtCacheOp → Option RtCache
  | .ratesGet now bplanId =>
      (ratesGet now cache.rates bplanId).map fun result => { cache with rates := result.2 }
  | .ratesPut now bplanId src count =>
      (ratesPut now cache.rates bplanId src count).map fun rates => { cache with rates }
  | .rateArrays op => (cache.rates.caller op).map fun rates => { cache with rates }
  | .tariffGet now tariffId =>
      (tariffGet now cache.tariffs tariffId).map fun result =>
        { cache with tariffs := result.2 }
  | .tariffPut now tariffId funcs count =>
      (tariffPut now cache.tariffs tariffId funcs count).map fun tariffs =>
        { cache with tariffs }
  | .tariffArrays op => (cache.tariffs.caller op).map fun tariffs => { cache with tariffs }
  | .raccGet .. => some cache
  | .raccPut now key data => some { cache with raccs := raccPut now cache.raccs key data }
  | .pcardGet now baccId =>
      (pcardGet now cache.pcards baccId).map fun result => { cache with pcards := result.2 }
  | .pcardPut now baccId cards count =>
      (pcardPut now cache.pcards baccId cards count).map fun pcards => { cache with pcards }
  | .pcardArrays op => (cache.pcards.caller op).map fun pcards => { cache with pcards }
  | .tcGet .. => some cache
  | .tcPut now tariffId hasTc => some { cache with tcs := tcPut now cache.tcs tariffId hasTc }
  | .fbsGet .. => some cache
  | .fbsPut now tariffId limit =>
      some { cache with fbs := fbsPut now cache.fbs tariffId limit }

end RtCache

/-- The last put of each key of each table: its time and what it has to keep. -/
structure LastPuts where
  rates : LastStores ℕ RateT := fun _ => none
  tariffs : LastStores ℕ CalcFunction := fun _ => none
  raccs : List UInt8 → Option (ℤ × RaccData) := fun _ => none
  pcards : LastStores ℕ Pcard := fun _ => none
  tcs : ℕ → Option (ℤ × ℤ) := fun _ => none
  fbs : ℕ → Option (ℤ × ℤ) := fun _ => none

/-- The last puts after an operation.  A put without rows is none. -/
def LastPuts.note (last : LastPuts) (cache : RtCache) : RtCacheOp → LastPuts
  | .ratesPut now bplanId src count =>
      { last with rates := cache.rates.noted RateT.detached now last.rates bplanId src count }
  | .tariffPut now tariffId funcs count =>
      { last with tariffs := cache.tariffs.noted id now last.tariffs tariffId funcs count }
  | .raccPut now key data =>
      { last with raccs := Function.update last.raccs key (some (now, data)) }
  | .pcardPut now baccId cards count =>
      { last with pcards := cache.pcards.noted id now last.pcards baccId cards count }
  | .tcPut now tariffId hasTc =>
      { last with tcs := Function.update last.tcs tariffId (some (now, hasTc)) }
  | .fbsPut now tariffId limit =>
      { last with fbs := Function.update last.fbs tariffId (some (now, limit)) }
  | _ => last

/-- A run of a new cache, with the last puts. -/
def rtCacheRun (ops : List RtCacheOp) : Option (RtCache × LastPuts) :=
  ops.foldlM (fun state op =>
    (state.1.step op).map fun cache => (cache, state.2.note state.1 op)) ({}, {})

/-! ## Maps with expiry -/

/-- A table of arrays gives the rows of the last put of a key in a new array that ends with a row of
zeros, while the put is fresh, and nothing otherwise.  Its own arrays end in the same way, are not
freed, and nobody else has them. -/
structure ArraysExact {Row : Type}
    (get : ℤ → CopyCache ℕ ℕ Row → ℕ → Option (Option (ℕ × ℕ) × CopyCache ℕ ℕ Row))
    (table : CopyCache ℕ ℕ Row) (last : LastStores ℕ Row) : Prop where
  one : table.chains.OneEach rtCacheHashInt
  hit : ∀ now key stamp rows, last key = some (stamp, rows) → now - stamp ≤ rtCacheTtl →
    get now table key = some (some (table.heap.next, rows.length),
      { table with
        heap := table.heap.alloc (rows ++ [none])
        callers := insert table.heap.next table.callers })
  miss : ∀ now key, (∀ store ∈ last key, rtCacheTtl < now - store.1) →
    get now table key = some (none, table)
  kept : ∀ bucket, ∀ entry ∈ table.chains.chain bucket,
    entry.value.1 ∉ table.callers ∧ table.heap.frees entry.value.1 = 0 ∧
      ∃ rows, table.heap.get? entry.value.1 = some (rows ++ [none]) ∧
        entry.value.2 = rows.length
  apart : ∀ bucket bucket', ∀ entry ∈ table.chains.chain bucket,
    ∀ entry' ∈ table.chains.chain bucket',
      entry.value.1 = entry'.value.1 → entry.key = entry'.key
  faultless : table.heap.faults = 0

/-- A table of values gives the value of the last put of a key while the put is fresh, and nothing
otherwise. -/
structure ValuesExact {Key K V : Type} [DecidableEq K] (hash : K → ℕ) (table : BucketCache ℕ K V)
    (get : ℤ → BucketCache ℕ K V → Key → Option V) (last : Key → Option (ℤ × V)) : Prop where
  one : table.OneEach hash
  hit : ∀ now key stamp value, last key = some (stamp, value) → now - stamp ≤ rtCacheTtl →
    get now table key = some value
  miss : ∀ now key, (∀ store ∈ last key, rtCacheTtl < now - store.1) → get now table key = none

/-- Every table keeps the last puts. -/
structure RtCache.Exact (cache : RtCache) (last : LastPuts) : Prop where
  rates : ArraysExact RtCache.ratesGet cache.rates last.rates
  tariffs : ArraysExact RtCache.tariffGet cache.tariffs last.tariffs
  raccs : ValuesExact RtCache.hashStr cache.raccs RtCache.raccGet fun key => last.raccs key
  pcards : ArraysExact RtCache.pcardGet cache.pcards last.pcards
  tcs : ValuesExact rtCacheHashInt cache.tcs RtCache.tcGet last.tcs
  fbs : ValuesExact rtCacheHashInt cache.fbs RtCache.fbsGet last.fbs

theorem ArraysExact.of_sound {Row : Type} {copy : Row → Row} {table : CopyCache ℕ ℕ Row}
    {last : LastStores ℕ Row} (sound : table.Sound rtCacheHashInt copy last) :
    ArraysExact (fun now table key => table.get rtCacheHashInt copy rtCacheTtl now key) table
      last where
  one := sound.one
  hit now key stamp rows put fresh := by
    simp only [sound.get_eq, put, if_pos fresh]
  miss now key old := by
    rw [sound.get_eq]
    cases put : last key with
    | none => rfl
    | some store => simp only [if_neg (not_le.mpr (old store put))]
  kept bucket entry member := by
    obtain ⟨_, found⟩ := sound.one.mem_chain_iff.mp member
    obtain ⟨unshared, unfreed, rows, _, count, content⟩ := sound.stored entry.key entry found
    exact ⟨unshared, unfreed, rows, content, count⟩
  apart bucket bucket' entry member entry' member' same := by
    obtain ⟨_, found⟩ := sound.one.mem_chain_iff.mp member
    obtain ⟨_, found'⟩ := sound.one.mem_chain_iff.mp member'
    exact sound.apart _ _ entry entry' found found' same
  faultless := sound.faultless

theorem ValuesExact.of_holds {Key K V : Type} [DecidableEq K] {hash : K → ℕ}
    {table : BucketCache ℕ K V} {last : K → Option (ℤ × V)} (holds : table.Holds hash last)
    (text : Key → K) :
    ValuesExact hash table (fun now table key => table.get hash rtCacheTtl now (text key))
      fun key => last (text key) where
  one := holds.one
  hit now key stamp value put fresh := by
    simp only [holds.get_eq, put, if_pos fresh]
  miss now key old := by
    rw [holds.get_eq]
    cases put : last (text key) with
    | none => rfl
    | some store => simp only [if_neg (not_le.mpr (old store put))]

namespace RtCache

/-- The invariant of the six tables. -/
structure Sound (cache : RtCache) (last : LastPuts) : Prop where
  rates : cache.rates.Sound rtCacheHashInt RateT.detached last.rates
  tariffs : cache.tariffs.Sound rtCacheHashInt id last.tariffs
  raccs : cache.raccs.Holds hashStr last.raccs
  pcards : cache.pcards.Sound rtCacheHashInt id last.pcards
  tcs : cache.tcs.Holds rtCacheHashInt last.tcs
  fbs : cache.fbs.Holds rtCacheHashInt last.fbs

theorem Sound.empty : Sound {} {} :=
  ⟨.empty, .empty, .empty _, .empty, .empty _, .empty _⟩

theorem Sound.exact {cache : RtCache} {last : LastPuts} (sound : cache.Sound last) :
    cache.Exact last where
  rates := .of_sound sound.rates
  tariffs := .of_sound sound.tariffs
  raccs := .of_holds sound.raccs Subtype.val
  pcards := .of_sound sound.pcards
  tcs := .of_holds sound.tcs id
  fbs := .of_holds sound.fbs id

/-- Every operation keeps the invariant. -/
theorem Sound.step {cache cache' : RtCache} {last : LastPuts} (sound : cache.Sound last)
    {op : RtCacheOp} (stepped : cache.step op = some cache') :
    cache'.Sound (last.note cache op) := by
  cases op with
  | ratesGet now bplanId =>
      obtain ⟨result, looked, rfl⟩ := Option.map_eq_some_iff.mp stepped
      exact { sound with rates := sound.rates.get looked }
  | ratesPut now bplanId src count =>
      obtain ⟨rates, stored, rfl⟩ := Option.map_eq_some_iff.mp stepped
      exact { sound with rates := sound.rates.put RateT.detached_detached stored }
  | rateArrays op =>
      obtain ⟨rates, moved, rfl⟩ := Option.map_eq_some_iff.mp stepped
      exact { sound with rates := sound.rates.caller moved }
  | tariffGet now tariffId =>
      obtain ⟨result, looked, rfl⟩ := Option.map_eq_some_iff.mp stepped
      exact { sound with tariffs := sound.tariffs.get looked }
  | tariffPut now tariffId funcs count =>
      obtain ⟨tariffs, stored, rfl⟩ := Option.map_eq_some_iff.mp stepped
      exact { sound with tariffs := sound.tariffs.put (fun _ => rfl) stored }
  | tariffArrays op =>
      obtain ⟨tariffs, moved, rfl⟩ := Option.map_eq_some_iff.mp stepped
      exact { sound with tariffs := sound.tariffs.caller moved }
  | raccGet now key =>
      obtain rfl := Option.some.inj stepped
      exact sound
  | raccPut now key data =>
      obtain rfl := Option.some.inj stepped
      have holds := sound.raccs.put key.1 now data
      rw [← raccPut_eq] at holds
      exact { sound with raccs := holds }
  | pcardGet now baccId =>
      obtain ⟨result, looked, rfl⟩ := Option.map_eq_some_iff.mp stepped
      exact { sound with pcards := sound.pcards.get looked }
  | pcardPut now baccId cards count =>
      obtain ⟨pcards, stored, rfl⟩ := Option.map_eq_some_iff.mp stepped
      exact { sound with pcards := sound.pcards.put (fun _ => rfl) stored }
  | pcardArrays op =>
      obtain ⟨pcards, moved, rfl⟩ := Option.map_eq_some_iff.mp stepped
      exact { sound with pcards := sound.pcards.caller moved }
  | tcGet now tariffId =>
      obtain rfl := Option.some.inj stepped
      exact sound
  | tcPut now tariffId hasTc =>
      obtain rfl := Option.some.inj stepped
      exact { sound with tcs := sound.tcs.put tariffId now hasTc }
  | fbsGet now tariffId =>
      obtain rfl := Option.some.inj stepped
      exact sound
  | fbsPut now tariffId limit =>
      obtain rfl := Option.some.inj stepped
      exact { sound with fbs := sound.fbs.put tariffId now limit }

/-- A run from a sound state ends in a sound state. -/
theorem Sound.run {state state' : RtCache × LastPuts} (sound : state.1.Sound state.2)
    {ops : List RtCacheOp}
    (ran : ops.foldlM (fun state op =>
      (state.1.step op).map fun cache => (cache, state.2.note state.1 op)) state = some state') :
    state'.1.Sound state'.2 := by
  induction ops generalizing state with
  | nil =>
      obtain rfl := Option.some.inj ran
      exact sound
  | cons op ops induction =>
      rw [List.foldlM_cons] at ran
      obtain ⟨next, stepped, rest⟩ := Option.bind_eq_some_iff.mp ran
      obtain ⟨cache, cache_eq, rfl⟩ := Option.map_eq_some_iff.mp stepped
      exact induction (sound.step cache_eq) rest

end RtCache

/-- In every run every table gives the last put of each key, while it is fresh. -/
theorem rtCacheRun_exact {ops : List RtCacheOp} {cache : RtCache} {last : LastPuts}
    (ran : rtCacheRun ops = some (cache, last)) : cache.Exact last :=
  (RtCache.Sound.empty.run ran).exact

/-- A rate with its tariff attached. -/
def attachedRate : RateT := ⟨⟨1, 2, "359", 3, 0, 0, 0⟩, "mobile", some 7⟩

/-- Bill plans 1 and 257 share a bucket: the rates of the first one are put at 0, others under the
second one at 30. -/
def collidingPuts : List RtCacheOp :=
  [.rateArrays (.new [some attachedRate]), .ratesPut 0 1 (some 0) 1,
    .rateArrays (.write 0 fun _ => []), .rateArrays (.new [none, none]),
    .ratesPut 30 257 (some 2) 2]

/-- The rates of the first plan are found at 60, though their array has been overwritten. -/
theorem rtCacheRun_exact_collision :
    ∃ cache last, rtCacheRun collidingPuts = some (cache, last) ∧
      RtCache.ratesGet 60 cache.rates 1 = some (some (4, 1),
        { cache.rates with
          heap := cache.rates.heap.alloc [some attachedRate.detached, none]
          callers := insert 4 cache.rates.callers }) := by
  have ran : rtCacheRun collidingPuts = some _ := rfl
  exact ⟨_, _, ran, (rtCacheRun_exact ran).rates.hit 60 1 0 _ rfl (by decide)⟩

/-- A rate that is put with its tariff attached comes back without it. -/
theorem ratesGet_ne_put :
    ∃ cache last p table,
      rtCacheRun [.rateArrays (.new [some attachedRate]), .ratesPut 0 1 (some 0) 1] =
        some (cache, last) ∧
      cache.rates.heap.get? 0 = some [some attachedRate] ∧
      RtCache.ratesGet 0 cache.rates 1 = some (some (p, 1), table) ∧
      table.heap.get? p ≠ some [some attachedRate, none] := by
  refine ⟨_, _, _, _, rfl, rfl, rfl, ?_⟩
  decide

end RateEngine
