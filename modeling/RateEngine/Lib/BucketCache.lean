import Mathlib.Data.Int.Notation
import Mathlib.Data.List.Nodup
import Mathlib.Logic.Function.Basic
import Mathlib.Tactic.Common

/-!
# Bucketed caches

A cache is a table of chains.  The bucket of a key is its hash, and a store replaces the first entry
of the key in its chain or puts a new entry at the front.  An entry carries the time at which it was
stored and is used while it is fresh.  This file proves that such a cache is a map from keys to
entries, whatever the hash.
-/

/-- A cached value with its key and the time at which it was stored. -/
structure CacheEntry (K V : Type*) where
  key : K
  stamp : ℤ
  value : V
deriving DecidableEq, Repr

/-- A table of chains. -/
structure BucketCache (B K V : Type*) where
  chain : B → List (CacheEntry K V)

namespace BucketCache

variable {B K V : Type*} [DecidableEq K]

def empty : BucketCache B K V := ⟨fun _ => []⟩

/-- Replace the first entry of the key; `none` when the chain has no entry of the key. -/
def replaceEntry (entry : CacheEntry K V) : List (CacheEntry K V) → Option (List (CacheEntry K V))
  | [] => none
  | other :: rest =>
      if other.key = entry.key then some (entry :: rest)
      else (replaceEntry entry rest).map (other :: ·)

/-- Store an entry in a chain. -/
def storeEntry (entry : CacheEntry K V) (chain : List (CacheEntry K V)) : List (CacheEntry K V) :=
  (replaceEntry entry chain).getD (entry :: chain)

/-- Store an entry in the chain of its key. -/
def put [DecidableEq B] (hash : K → B) (cache : BucketCache B K V) (entry : CacheEntry K V) :
    BucketCache B K V :=
  ⟨fun bucket =>
    if bucket = hash entry.key then storeEntry entry (cache.chain bucket) else cache.chain bucket⟩

/-- The first entry of a key in its chain. -/
def find (hash : K → B) (cache : BucketCache B K V) (key : K) : Option (CacheEntry K V) :=
  (cache.chain (hash key)).find? fun entry => entry.key = key

/-- The value of a key, when its entry is at most `ttl` old. -/
def get (hash : K → B) (ttl now : ℤ) (cache : BucketCache B K V) (key : K) : Option V :=
  match find hash cache key with
  | none => none
  | some entry => if now - entry.stamp ≤ ttl then some entry.value else none

variable {hash : K → B} {cache : BucketCache B K V}

/-- The entry that is found for a key is of the key. -/
theorem key_of_find {key : K} {entry : CacheEntry K V} (found : find hash cache key = some entry) :
    entry.key = key := by
  simpa using List.find?_some found

theorem find?_replaceEntry {entry : CacheEntry K V} {chain replaced : List (CacheEntry K V)}
    (replaces : replaceEntry entry chain = some replaced) (key : K) :
    replaced.find? (fun other => other.key = key) =
      if key = entry.key then some entry else chain.find? fun other => other.key = key := by
  induction chain generalizing replaced with
  | nil => cases replaces
  | cons other rest ih =>
      rw [replaceEntry] at replaces
      split at replaces
      · rename_i same
        obtain rfl := Option.some.inj replaces
        by_cases own : key = entry.key
        · simp [own]
        · have not_entry : entry.key ≠ key := fun h => own h.symm
          simp [own, same, not_entry]
      · rename_i different
        obtain ⟨rest', rest_eq, rfl⟩ := Option.map_eq_some_iff.mp replaces
        rw [List.find?_cons, List.find?_cons, ih rest_eq]
        by_cases own : key = entry.key
        · simp [own, different]
        · simp [own]

theorem find?_storeEntry (entry : CacheEntry K V) (chain : List (CacheEntry K V)) (key : K) :
    (storeEntry entry chain).find? (fun other => other.key = key) =
      if key = entry.key then some entry else chain.find? fun other => other.key = key := by
  cases replaces : replaceEntry entry chain with
  | some replaced =>
    rw [storeEntry, replaces]
    exact find?_replaceEntry replaces key
  | none =>
    rw [storeEntry, replaces, Option.getD_none, List.find?_cons]
    by_cases own : key = entry.key
    · simp [own]
    · have not_entry : entry.key ≠ key := fun h => own h.symm
      simp [own, not_entry]

theorem keys_replaceEntry {entry : CacheEntry K V} {chain replaced : List (CacheEntry K V)}
    (replaces : replaceEntry entry chain = some replaced) :
    replaced.map CacheEntry.key = chain.map CacheEntry.key := by
  induction chain generalizing replaced with
  | nil => cases replaces
  | cons other rest induction =>
      rw [replaceEntry] at replaces
      split at replaces
      · rename_i same
        obtain rfl := Option.some.inj replaces
        rw [List.map_cons, List.map_cons, same]
      · obtain ⟨rest', rest_eq, rfl⟩ := Option.map_eq_some_iff.mp replaces
        rw [List.map_cons, List.map_cons, induction rest_eq]

theorem not_mem_of_replaceEntry_eq_none {entry : CacheEntry K V} {chain : List (CacheEntry K V)}
    (absent : replaceEntry entry chain = none) : entry.key ∉ chain.map CacheEntry.key := by
  induction chain with
  | nil => exact List.not_mem_nil
  | cons other rest induction =>
      rw [replaceEntry] at absent
      split at absent
      · cases absent
      · rename_i different
        have rest_absent := induction (Option.map_eq_none_iff.mp absent)
        rw [List.map_cons, List.mem_cons, not_or]
        exact ⟨fun same => different same.symm, rest_absent⟩

/-- A store leaves the keys of a chain or puts a new one in front. -/
theorem keys_storeEntry (entry : CacheEntry K V) (chain : List (CacheEntry K V)) :
    (storeEntry entry chain).map CacheEntry.key = chain.map CacheEntry.key ∨
      entry.key ∉ chain.map CacheEntry.key ∧
        (storeEntry entry chain).map CacheEntry.key = entry.key :: chain.map CacheEntry.key := by
  unfold storeEntry
  cases replaces : replaceEntry entry chain with
  | some replaced => exact Or.inl (keys_replaceEntry replaces)
  | none => exact Or.inr ⟨not_mem_of_replaceEntry_eq_none replaces, rfl⟩

/-- Every key has at most one entry, and that in its bucket. -/
structure OneEach (hash : K → B) (cache : BucketCache B K V) : Prop where
  bucket : ∀ b, ∀ key ∈ (cache.chain b).map CacheEntry.key, hash key = b
  nodup : ∀ b, ((cache.chain b).map CacheEntry.key).Nodup

omit [DecidableEq K] in
theorem OneEach.empty (hash : K → B) : OneEach hash (empty : BucketCache B K V) where
  bucket _ _ member := absurd member List.not_mem_nil
  nodup _ := List.nodup_nil

/-- The entries of a cache are those that are found. -/
theorem OneEach.mem_chain_iff (one : OneEach hash cache) {b : B} {entry : CacheEntry K V} :
    entry ∈ cache.chain b ↔ hash entry.key = b ∧ find hash cache entry.key = some entry := by
  constructor
  · intro member
    obtain rfl := one.bucket b entry.key (List.mem_map_of_mem member)
    refine ⟨rfl, ?_⟩
    obtain ⟨found, found_eq⟩ : ∃ found, find hash cache entry.key = some found :=
      Option.isSome_iff_exists.mp (List.find?_isSome.mpr ⟨entry, member, decide_eq_true rfl⟩)
    have found_mem := List.mem_of_find?_eq_some found_eq
    rw [found_eq, List.inj_on_of_nodup_map (one.nodup _) found_mem member (key_of_find found_eq)]
  · rintro ⟨rfl, found⟩
    exact List.mem_of_find?_eq_some found

variable [DecidableEq B]

theorem OneEach.put (one : OneEach hash cache) (entry : CacheEntry K V) :
    OneEach hash (cache.put hash entry) := by
  constructor
  · intro b key member
    simp only [BucketCache.put] at member
    split at member
    · rename_i own
      rcases keys_storeEntry entry (cache.chain b) with kept | ⟨_, added⟩
      · rw [kept] at member
        exact one.bucket b key member
      · rw [added, List.mem_cons] at member
        rcases member with rfl | old
        · exact own.symm
        · exact one.bucket b key old
    · exact one.bucket b key member
  · intro b
    simp only [BucketCache.put]
    split
    · rcases keys_storeEntry entry (cache.chain b) with kept | ⟨absent, added⟩
      · rw [kept]
        exact one.nodup b
      · rw [added]
        exact List.nodup_cons.mpr ⟨absent, one.nodup b⟩
    · exact one.nodup b

/-- A store sets the entry of its key and leaves every other key alone. -/
theorem find_put (entry : CacheEntry K V) (key : K) :
    find hash (put hash cache entry) key =
      if key = entry.key then some entry else find hash cache key := by
  rw [find, put]
  by_cases bucket : hash key = hash entry.key
  · simp only [bucket, if_true, find?_storeEntry, find]
  · have other : key ≠ entry.key := fun same => bucket (congrArg hash same)
    simp only [bucket, other, if_false, find]

/-- The cache holds the last store of each key: its time and its value. -/
structure Holds (hash : K → B) (cache : BucketCache B K V) (last : K → Option (ℤ × V)) : Prop where
  one : OneEach hash cache
  found : ∀ key, find hash cache key = (last key).map fun store => ⟨key, store.1, store.2⟩

omit [DecidableEq B] in
theorem Holds.empty (hash : K → B) : Holds hash (empty : BucketCache B K V) fun _ => none where
  one := .empty hash
  found _ := rfl

theorem Holds.put {last : K → Option (ℤ × V)} (holds : Holds hash cache last) (key : K) (stamp : ℤ)
    (value : V) : Holds hash (cache.put hash ⟨key, stamp, value⟩)
      (Function.update last key (some (stamp, value))) where
  one := holds.one.put _
  found other := by
    rw [find_put]
    by_cases own : other = key
    · subst own
      rw [if_pos rfl, Function.update_self]
      rfl
    · rw [if_neg own, Function.update_of_ne own, holds.found]

omit [DecidableEq B] in
/-- A lookup gives the value of the last store, if that is at most `ttl` old. -/
theorem Holds.get_eq {last : K → Option (ℤ × V)} (holds : Holds hash cache last) (ttl now : ℤ)
    (key : K) : cache.get hash ttl now key = match last key with
      | none => none
      | some (stamp, value) => if now - stamp ≤ ttl then some value else none := by
  rw [get, holds.found]
  cases last key <;> rfl

/-- Every entry that a lookup finds meets a condition. -/
def Every (hash : K → B) (cache : BucketCache B K V) (meets : K → V → Prop) : Prop :=
  ∀ key entry, find hash cache key = some entry → meets key entry.value

namespace Every

variable {meets : K → V → Prop}

omit [DecidableEq B] in
theorem empty : Every hash (.empty : BucketCache B K V) meets := fun _ _ found => nomatch found

/-- A stored value has to meet the condition. -/
theorem put (every : Every hash cache meets) {entry : CacheEntry K V}
    (met : meets entry.key entry.value) : Every hash (cache.put hash entry) meets := by
  intro key other found
  rw [find_put] at found
  split at found
  · rename_i own
    obtain rfl := Option.some.inj found
    exact own ▸ met
  · exact every key other found

omit [DecidableEq B] in
theorem get (every : Every hash cache meets) {ttl now : ℤ} {key : K} {value : V}
    (found : BucketCache.get hash ttl now cache key = some value) : meets key value := by
  rw [BucketCache.get] at found
  split at found
  · cases found
  · rename_i entry entry_eq
    obtain ⟨-, same⟩ := Option.ite_none_right_eq_some.mp found
    exact Option.some.inj same ▸ every key entry entry_eq

end Every

/-- After a row of stores a key has the last entry of the row that is of it, or its old one. -/
theorem find_foldl_put (entries : List (CacheEntry K V)) (cache : BucketCache B K V) (key : K) :
    find hash (entries.foldl (put hash) cache) key =
      ((entries.filter fun entry => entry.key = key).getLast?).or (find hash cache key) := by
  induction entries generalizing cache with
  | nil => rfl
  | cons entry rest ih =>
      rw [List.foldl_cons, ih, find_put]
      by_cases own : entry.key = key
      · rw [List.filter_cons_of_pos (by simp [own]), if_pos own.symm]
        cases rest.filter fun other => other.key = key with
        | nil => rfl
        | cons next later => simp [List.getLast?_eq_some_getLast]
      · have other : key ≠ entry.key := fun h => own h.symm
        rw [List.filter_cons_of_neg (by simp [own]), if_neg other]

end BucketCache
