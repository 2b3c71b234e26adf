import RateEngine.Lib.BucketCache
import RateEngine.Lib.ObjectHeap
import Mathlib.Data.Finset.Basic

/-!
# Caches of copied arrays

A cache holds arrays by address in a memory that it shares with its callers.  A store copies the
array of a caller and frees the copy that it replaces; a lookup copies the stored array for the
caller.  This file proves that such a cache is a map from keys to array contents, whatever the
callers write into and free among their own arrays: no array is reached from both sides.
-/

/-- An array: its rows, with `none` for a cell of zeros. -/
abbrev Cells (Row : Type*) := List (Option Row)

/-- The chains hold an address and a number of rows; `callers` are the arrays of the callers. -/
structure CopyCache (B K Row : Type*) where
  chains : BucketCache B K (ℕ × ℕ) := .empty
  heap : ObjectHeap (Cells Row) := {}
  callers : Finset ℕ := ∅

/-- The last store of each key: its time and the rows. -/
abbrev LastStores (K Row : Type*) := K → Option (ℤ × Cells Row)

/-- What a caller does to its own arrays. -/
inductive CallerOp (Row : Type*) where
  | new (cells : Cells Row)
  | write (p : ℕ) (change : Cells Row → Cells Row)
  | free (p : ℕ)

namespace CopyCache

variable {B K Row : Type*} [DecidableEq K]

/-- Copy the first rows of an array into a new one that ends with a cell of zeros; nothing when the
array is shorter. -/
def dup (copy : Row → Row) (heap : ObjectHeap (Cells Row)) (p count : ℕ) :
    Option (ObjectHeap (Cells Row)) :=
  match heap.get? p with
  | none => none
  | some cells =>
      if count ≤ cells.length then
        some ((heap.use [p]).alloc ((cells.take count).map (Option.map copy) ++ [none]))
      else none

/-- Look a key up: the address of a copy and its number of rows, or nothing when the key has no
entry of at most `ttl`. -/
def get (hash : K → B) (copy : Row → Row) (ttl now : ℤ) (c : CopyCache B K Row) (key : K) :
    Option (Option (ℕ × ℕ) × CopyCache B K Row) :=
  match c.chains.get hash ttl now key with
  | none => some (none, c)
  | some (p, count) =>
      (dup copy c.heap p count).map fun heap =>
        (some (c.heap.next, count),
          { c with heap, callers := insert c.heap.next c.callers })

/-- Free the array of the entry that is replaced. -/
def release (heap : ObjectHeap (Cells Row)) :
    Option (CacheEntry K (ℕ × ℕ)) → ObjectHeap (Cells Row)
  | none => heap
  | some entry => heap.free entry.value.1

/-- Store a copy of the first `count` rows of an array of a caller; a store without rows is
ignored. -/
def put [DecidableEq B] (hash : K → B) (copy : Row → Row) (now : ℤ)
    (c : CopyCache B K Row) (key : K)
    (src : Option ℕ) (count : ℤ) : Option (CopyCache B K Row) :=
  match src with
  | none => some c
  | some p =>
      if count ≤ 0 then some c
      else if p ∈ c.callers then
        (dup copy c.heap p count.toNat).map fun heap =>
          { c with
            chains := c.chains.put hash ⟨key, now, c.heap.next, count.toNat⟩
            heap := release heap (c.chains.find hash key) }
      else none

/-- A step of a caller, if it uses its own arrays. -/
def caller (c : CopyCache B K Row) : CallerOp Row → Option (CopyCache B K Row)
  | .new cells =>
      some { c with heap := c.heap.alloc cells, callers := insert c.heap.next c.callers }
  | .write p change => if p ∈ c.callers then some { c with heap := c.heap.write p change } else none
  | .free p =>
      if p ∈ c.callers then some { c with heap := c.heap.free p, callers := c.callers.erase p }
      else none

/-- The last stores after a store. -/
def noted (copy : Row → Row) (now : ℤ) (c : CopyCache B K Row) (last : LastStores K Row) (key : K)
    (src : Option ℕ) (count : ℤ) : LastStores K Row :=
  match src with
  | none => last
  | some p =>
      if count ≤ 0 then last
      else
        Function.update last key
          (((c.heap.get? p).map fun cells => (cells.take count.toNat).map (Option.map copy)).map
            (now, ·))

/-- The cache holds the last stores, each in an array that no caller and no other key has and that
was not freed. -/
structure Sound (hash : K → B) (copy : Row → Row) (c : CopyCache B K Row)
    (last : LastStores K Row) : Prop where
  one : c.chains.OneEach hash
  faultless : c.heap.faults = 0
  callers : ∀ p ∈ c.callers, p < c.heap.next ∧ c.heap.frees p = 0
  apart : ∀ key key' entry entry', c.chains.find hash key = some entry →
    c.chains.find hash key' = some entry' → entry.value.1 = entry'.value.1 → key = key'
  stored : ∀ key entry, c.chains.find hash key = some entry →
    entry.value.1 ∉ c.callers ∧ c.heap.frees entry.value.1 = 0 ∧
      ∃ rows, last key = some (entry.stamp, rows) ∧ entry.value.2 = rows.length ∧
        c.heap.get? entry.value.1 = some (rows ++ [none])
  copied : ∀ key stamp rows, last key = some (stamp, rows) →
    (c.chains.find hash key).isSome ∧ rows.map (Option.map copy) = rows

variable {hash : K → B} {copy : Row → Row} {c : CopyCache B K Row} {last : LastStores K Row}

theorem Sound.empty : Sound hash copy ({} : CopyCache B K Row) fun _ => none where
  one := .empty hash
  faultless := rfl
  callers p member := absurd member (Finset.notMem_empty p)
  apart _ _ _ _ found := nomatch found
  stored _ _ found := nomatch found
  copied _ _ _ noted := nomatch noted

/-- A copy of an array that was not freed is a new array. -/
theorem dup_eq {heap : ObjectHeap (Cells Row)} {p count : ℕ} {cells : Cells Row}
    (unfreed : heap.frees p = 0) (content : heap.get? p = some cells)
    (enough : count ≤ cells.length) :
    dup copy heap p count =
      some (heap.alloc ((cells.take count).map (Option.map copy) ++ [none])) := by
  have unused : heap.use [p] = heap := ObjectHeap.use_eq (by simpa using unfreed)
  simp only [dup, content, if_pos enough, unused]

/-- A lookup gives a new array with the rows of the last store, if that is at most `ttl` old. -/
theorem Sound.get_eq (sound : Sound hash copy c last) (ttl now : ℤ) (key : K) :
    c.get hash copy ttl now key = some (match last key with
      | none => (none, c)
      | some (stamp, rows) =>
          if now - stamp ≤ ttl then
            (some (c.heap.next, rows.length),
              { c with
                heap := c.heap.alloc (rows ++ [none])
                callers := insert c.heap.next c.callers })
          else (none, c)) := by
  unfold get BucketCache.get
  cases found : c.chains.find hash key with
  | none =>
      cases noted : last key with
      | none => rfl
      | some store =>
          have held := (sound.copied key store.1 store.2 noted).1
          rw [found] at held
          cases held
  | some entry =>
      obtain ⟨_, unfreed, rows, noted, count, content⟩ := sound.stored key entry found
      have copied := (sound.copied key _ _ noted).2
      simp only [noted]
      by_cases fresh : now - entry.stamp ≤ ttl
      · have enough : rows.length ≤ (rows ++ [none]).length := by
          rw [List.length_append]
          exact Nat.le_add_right _ _
        have duplicated : dup copy c.heap entry.value.1 rows.length = _ :=
          dup_eq unfreed content enough
        rw [List.take_left', copied] at duplicated
        · simp only [if_pos fresh, duplicated, Option.map_some, count]
        · rfl
      · simp only [if_neg fresh]

/-! ## The steps -/

/-- A new array goes to a caller. -/
theorem Sound.new (sound : Sound hash copy c last) (cells : Cells Row) :
    Sound hash copy
      { c with heap := c.heap.alloc cells, callers := insert c.heap.next c.callers } last where
  one := sound.one
  faultless := sound.faultless
  callers p member := by
    rw [ObjectHeap.next_alloc, ObjectHeap.frees_alloc]
    rcases Finset.mem_insert.mp member with rfl | old
    · exact ⟨Nat.lt_succ_self _, c.heap.frees_next⟩
    · exact ⟨(sound.callers p old).1.trans (Nat.lt_succ_self _), (sound.callers p old).2⟩
  apart := sound.apart
  stored key entry found := by
    obtain ⟨unshared, unfreed, rows, noted, count, content⟩ := sound.stored key entry found
    have old : entry.value.1 ≠ c.heap.next := (ObjectHeap.lt_next_of_get? content).ne
    refine ⟨?_, ?_, rows, noted, count, ?_⟩
    · rw [Finset.mem_insert, not_or]
      exact ⟨old, unshared⟩
    · rw [ObjectHeap.frees_alloc, unfreed]
    · rw [ObjectHeap.get?_alloc, if_neg old, content]
  copied := sound.copied

theorem Sound.get (sound : Sound hash copy c last) {ttl now : ℤ} {key : K}
    {result : Option (ℕ × ℕ)} {c' : CopyCache B K Row}
    (looked : c.get hash copy ttl now key = some (result, c')) : Sound hash copy c' last := by
  rw [sound.get_eq] at looked
  have state := congrArg Prod.snd (Option.some.inj looked)
  cases noted : last key with
  | none =>
      rw [noted] at state
      subst state
      exact sound
  | some store =>
      simp only [noted] at state
      split at state
      · subst state
        exact sound.new (store.2 ++ [none])
      · subst state
        exact sound

theorem Sound.caller (sound : Sound hash copy c last) {op : CallerOp Row} {c' : CopyCache B K Row}
    (stepped : c.caller op = some c') : Sound hash copy c' last := by
  cases op with
  | new cells =>
      obtain rfl := Option.some.inj stepped
      exact sound.new cells
  | write p change =>
      obtain ⟨own, state⟩ := Option.ite_none_right_eq_some.mp stepped
      obtain rfl := Option.some.inj state
      have unfreed : ∀ q ∈ [p], c.heap.frees q = 0 := by simpa using (sound.callers p own).2
      exact {
        sound with
        faultless := (ObjectHeap.faults_use unfreed).trans sound.faultless
        callers := fun q member => by
          rw [ObjectHeap.next_write, ObjectHeap.frees_write]
          exact sound.callers q member
        stored := fun key entry found => by
          obtain ⟨unshared, unfreed, rows, noted, count, content⟩ := sound.stored key entry found
          have other : p ≠ entry.value.1 := fun same => unshared (same ▸ own)
          refine ⟨unshared, ?_, rows, noted, count, ?_⟩
          · rw [ObjectHeap.frees_write, unfreed]
          · rw [ObjectHeap.get?_write, if_neg other, content] }
  | free p =>
      obtain ⟨own, state⟩ := Option.ite_none_right_eq_some.mp stepped
      obtain rfl := Option.some.inj state
      have allocated := (sound.callers p own).1
      exact {
        sound with
        callers := fun q member => by
          obtain ⟨other, old⟩ := Finset.mem_erase.mp member
          rw [ObjectHeap.next_free, ObjectHeap.frees_free _ _ _ allocated, if_neg other.symm]
          exact sound.callers q old
        stored := fun key entry found => by
          obtain ⟨unshared, unfreed, rows, noted, count, content⟩ := sound.stored key entry found
          have other : p ≠ entry.value.1 := fun same => unshared (same ▸ own)
          refine ⟨fun member => unshared (Finset.mem_of_mem_erase member), ?_, rows,
            noted, count, ?_⟩
          · rw [ObjectHeap.frees_free _ _ _ allocated, if_neg other, unfreed]
          · rw [ObjectHeap.get?_free, content] }
/-! ## The store -/

omit [DecidableEq K] in
@[simp] theorem next_release (heap : ObjectHeap (Cells Row))
    (replaced : Option (CacheEntry K (ℕ × ℕ))) : (release heap replaced).next = heap.next := by
  cases replaced with
  | none => rfl
  | some entry => exact heap.next_free _

omit [DecidableEq K] in
@[simp] theorem get?_release (heap : ObjectHeap (Cells Row))
    (replaced : Option (CacheEntry K (ℕ × ℕ))) (p : ℕ) :
    (release heap replaced).get? p = heap.get? p := by
  cases replaced with
  | none => rfl
  | some entry => exact heap.get?_free _ _

omit [DecidableEq K] in
/-- Only the array of the replaced entry is freed. -/
theorem frees_release {heap : ObjectHeap (Cells Row)} {replaced : Option (CacheEntry K (ℕ × ℕ))}
    {p : ℕ} (allocated : ∀ entry ∈ replaced, entry.value.1 < heap.next)
    (other : ∀ entry ∈ replaced, entry.value.1 ≠ p) :
    (release heap replaced).frees p = heap.frees p := by
  cases replaced with
  | none => rfl
  | some entry =>
      rw [release, ObjectHeap.frees_free _ _ _ (allocated entry rfl), if_neg (other entry rfl),
        Nat.add_zero]

/-- The rows of a copied array are stored in a new array. -/
theorem Sound.store [DecidableEq B] (sound : Sound hash copy c last) (now : ℤ) (key : K)
    {rows : Cells Row} (copied : rows.map (Option.map copy) = rows) :
    Sound hash copy
      { c with
        chains := c.chains.put hash ⟨key, now, c.heap.next, rows.length⟩
        heap := release (c.heap.alloc (rows ++ [none])) (c.chains.find hash key) }
      (Function.update last key (some (now, rows))) := by
  have allocated : ∀ entry ∈ c.chains.find hash key,
      entry.value.1 < (c.heap.alloc (rows ++ [none])).next := by
    intro entry found
    obtain ⟨_, _, _, _, _, content⟩ := sound.stored key entry found
    rw [ObjectHeap.next_alloc]
    exact (ObjectHeap.lt_next_of_get? content).trans (Nat.lt_succ_self _)
  have unfreed {p : ℕ} (other : ∀ entry ∈ c.chains.find hash key, entry.value.1 ≠ p) :
      (release (c.heap.alloc (rows ++ [none])) (c.chains.find hash key)).frees p =
        c.heap.frees p := by
    rw [frees_release allocated other, ObjectHeap.frees_alloc]
  have new_array {key' : K} {entry : CacheEntry K (ℕ × ℕ)}
      (found : c.chains.find hash key' = some entry) : entry.value.1 ≠ c.heap.next := by
    obtain ⟨_, _, _, _, _, content⟩ := sound.stored key' entry found
    exact (ObjectHeap.lt_next_of_get? content).ne
  constructor
  · exact sound.one.put _
  · cases replaced : c.chains.find hash key with
    | none => exact sound.faultless
    | some entry => exact sound.faultless
  · intro p member
    obtain ⟨below, own_unfreed⟩ := sound.callers p member
    rw [next_release, ObjectHeap.next_alloc, unfreed, own_unfreed]
    · exact ⟨below.trans (Nat.lt_succ_self _), rfl⟩
    · rintro entry found rfl
      exact (sound.stored key entry found).1 member
  · intro key₁ key₂ entry₁ entry₂ found₁ found₂ same
    rw [BucketCache.find_put] at found₁ found₂
    split at found₁ <;> split at found₂
    · rename_i own₁ own₂
      exact own₁.trans own₂.symm
    · obtain rfl := Option.some.inj found₁
      exact absurd same.symm (new_array found₂)
    · obtain rfl := Option.some.inj found₂
      exact absurd same (new_array found₁)
    · exact sound.apart key₁ key₂ entry₁ entry₂ found₁ found₂ same
  · intro key' entry found
    rw [BucketCache.find_put] at found
    split at found
    · rename_i own
      obtain rfl := Option.some.inj found
      subst own
      refine ⟨fun member => (sound.callers _ member).1.ne rfl, ?_, rows, ?_, rfl, ?_⟩
      · rw [unfreed fun entry found => new_array found, ObjectHeap.frees_next]
      · rw [Function.update_self]
      · rw [get?_release, ObjectHeap.get?_alloc, if_pos rfl]
    · rename_i other
      obtain ⟨unshared, old_unfreed, old_rows, noted, count, content⟩ :=
        sound.stored key' entry found
      refine ⟨unshared, ?_, old_rows, ?_, count, ?_⟩
      · rw [unfreed, old_unfreed]
        intro replaced found' same
        exact other (sound.apart key key' replaced entry found' found same).symm
      · rw [Function.update_of_ne other, noted]
      · rw [get?_release, ObjectHeap.get?_alloc, if_neg (new_array found), content]
  · intro key' stamp rows' noted
    rw [BucketCache.find_put]
    by_cases own : key' = key
    · subst own
      rw [Function.update_self] at noted
      obtain ⟨rfl, rfl⟩ := Prod.mk.inj (Option.some.inj noted)
      exact ⟨by rw [if_pos rfl]; rfl, copied⟩
    · rw [Function.update_of_ne own] at noted
      rw [if_neg own]
      exact sound.copied key' stamp rows' noted

theorem Sound.put [DecidableEq B] (idem : ∀ row, copy (copy row) = copy row)
    (sound : Sound hash copy c last) {now : ℤ} {key : K} {src : Option ℕ} {count : ℤ}
    {c' : CopyCache B K Row} (stored : c.put hash copy now key src count = some c') :
    Sound hash copy c' (c.noted copy now last key src count) := by
  cases src with
  | none =>
      obtain rfl := Option.some.inj stored
      exact sound
  | some p =>
      simp only [CopyCache.put, noted] at stored ⊢
      split at stored
      · rename_i ignored
        obtain rfl := Option.some.inj stored
        rw [if_pos ignored]
        exact sound
      · rename_i positive
        rw [if_neg positive]
        obtain ⟨own, duplicated⟩ := Option.ite_none_right_eq_some.mp stored
        obtain ⟨below, unfreed⟩ := sound.callers p own
        obtain ⟨cells, content⟩ := c.heap.get?_isSome p below
        by_cases enough : count.toNat ≤ cells.length
        · rw [dup_eq unfreed content enough] at duplicated
          obtain rfl := Option.some.inj duplicated
          rw [content]
          have length : ((cells.take count.toNat).map (Option.map copy)).length = count.toNat := by
            rw [List.length_map, List.length_take, min_eq_left enough]
          have copied : ((cells.take count.toNat).map (Option.map copy)).map (Option.map copy) =
              (cells.take count.toNat).map (Option.map copy) := by
            rw [List.map_map]
            refine List.map_congr_left fun cell _ => ?_
            cases cell with
            | none => rfl
            | some row => exact congrArg some (idem row)
          have stored := sound.store now key copied
          rw [length] at stored
          exact stored
        · simp only [dup, content, if_neg enough, Option.map_none] at duplicated
          cases duplicated

end CopyCache
