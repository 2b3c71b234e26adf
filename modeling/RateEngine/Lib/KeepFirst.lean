import Mathlib.Data.Finset.Card
import Mathlib.Data.List.Induction
import Mathlib.Data.List.Nodup

/-!
# Lists in which the first entry of a key stays

Entries are offered to a list one after the other, and an entry whose key is taken is dropped.  The
list grows at its end by entries of new keys only, so offering entries of taken keys changes
nothing.

A test that recognises entries may take a new entry for one of the list; then it is never added.
The list gets every entry exactly when the test makes no such mistake.
-/

namespace KeepFirst

variable {α κ : Type*} [DecidableEq κ] (key : α → κ)

/-- Add an entry unless its key is taken. -/
def add (xs : List α) (x : α) : List α := if key x ∈ xs.map key then xs else xs ++ [x]

/-- Offer entries in turn. -/
def merge (xs ys : List α) : List α := ys.foldl (add key) xs

@[simp]
theorem merge_nil (xs : List α) : merge key xs [] = xs := rfl

theorem merge_cons (xs : List α) (y : α) (ys : List α) :
    merge key xs (y :: ys) = merge key (add key xs y) ys := rfl

theorem merge_append (xs ys zs : List α) :
    merge key xs (ys ++ zs) = merge key (merge key xs ys) zs := List.foldl_append

theorem mem_of_mem_merge {xs ys : List α} {x : α} (member : x ∈ merge key xs ys) :
    x ∈ xs ∨ x ∈ ys := by
  induction ys generalizing xs with
  | nil => exact .inl member
  | cons y ys induction =>
      rcases induction member with added | later
      · unfold add at added
        split at added
        · exact .inl added
        · rcases List.mem_append.mp added with old | new
          · exact .inl old
          · exact .inr (List.mem_singleton.mp new ▸ List.mem_cons_self)
      · exact .inr (List.mem_cons_of_mem y later)

/-- Every key that is offered is there, once or more often. -/
theorem mem_map_merge {xs ys : List α} {k : κ} :
    k ∈ (merge key xs ys).map key ↔ k ∈ xs.map key ∨ k ∈ ys.map key := by
  induction ys generalizing xs with
  | nil => simp
  | cons y ys induction =>
      rw [merge_cons, induction, add, List.map_cons, List.mem_cons, or_left_comm]
      split
      · rename_i taken
        exact ⟨.inr, Or.rec (fun same => .inl (same ▸ taken)) id⟩
      · rw [List.map_append, List.mem_append, List.map_singleton, List.mem_singleton, or_assoc,
          or_left_comm]

/-- Entries of taken keys change nothing. -/
theorem merge_of_taken {xs ys : List α} (taken : ∀ y ∈ ys, key y ∈ xs.map key) :
    merge key xs ys = xs := by
  induction ys with
  | nil => rfl
  | cons y ys induction =>
      rw [List.forall_mem_cons] at taken
      rw [merge_cons, add, if_pos taken.1]
      exact induction taken.2

/-- Entries of distinct new keys are all added. -/
theorem merge_of_nodup {xs ys : List α} (distinct : ((xs ++ ys).map key).Nodup) :
    merge key xs ys = xs ++ ys := by
  induction ys generalizing xs with
  | nil => simp
  | cons y ys induction =>
      have fresh : key y ∉ xs.map key := by
        rw [List.map_append, List.map_cons, List.nodup_append] at distinct
        exact fun taken => distinct.2.2 _ taken _ List.mem_cons_self rfl
      rw [merge_cons, add, if_neg fresh, induction (by simpa using distinct)]
      simp

/-- A list that is offered several times, with nothing else. -/
theorem merge_flatMap_of_copies {ι : Type*} {ys : List α} (distinct : (ys.map key).Nodup)
    {xs : List ι} {f : ι → List α} (copies : ∀ x ∈ xs, f x = [] ∨ f x = ys)
    (offered : ∃ x ∈ xs, f x = ys) : merge key [] (xs.flatMap f) = ys := by
  induction xs with
  | nil => obtain ⟨x, member, -⟩ := offered; cases member
  | cons x xs induction =>
      rw [List.forall_mem_cons] at copies
      rw [List.flatMap_cons]
      by_cases own : f x = ys
      · have first : merge key [] ys = ys := merge_of_nodup key (by simpa using distinct)
        rw [own, merge_append, first]
        refine merge_of_taken key fun y member => ?_
        obtain ⟨x', x'_mem, y_mem⟩ := List.mem_flatMap.mp member
        rcases copies.2 x' x'_mem with empty | copy
        · rw [empty] at y_mem
          cases y_mem
        · exact List.mem_map_of_mem (copy ▸ y_mem)
      · have empty := copies.1.resolve_right own
        rw [empty, List.nil_append]
        obtain ⟨x', x'_mem, copy⟩ := offered
        rcases List.mem_cons.mp x'_mem with rfl | later
        · exact absurd copy own
        · exact induction copies.2 ⟨x', later, copy⟩

/-- Merging keeps the keys that are offered. -/
theorem mem_merge_id [DecidableEq α] {xs ys : List α} {x : α} :
    x ∈ merge id xs ys ↔ x ∈ xs ∨ x ∈ ys := by
  induction ys generalizing xs with
  | nil => simp
  | cons y ys induction =>
      rw [merge_cons, induction, add, List.map_id]
      by_cases taken : y ∈ xs
      · rw [id, if_pos taken, List.mem_cons]
        exact ⟨Or.imp_right Or.inr, fun member => by
          rcases member with old | rfl | later
          · exact .inl old
          · exact .inl taken
          · exact .inr later⟩
      · rw [id, if_neg taken, List.mem_append, List.mem_singleton, List.mem_cons, or_assoc]

/-! ## Offering to a list of bounded length -/

section Cap

variable [DecidableEq α] (cap : ℕ)

/-- Offer entries in turn, while the list has fewer than `cap`. -/
def mergeUpTo (xs ys : List α) : List α :=
  ys.foldl (fun xs y => if y ∉ xs ∧ xs.length < cap then xs ++ [y] else xs) xs

variable {cap}

/-- The bound is not felt when there are no more different entries than it allows. -/
theorem mergeUpTo_eq_merge {xs ys : List α} (distinct : xs.Nodup)
    (room : (xs ++ ys).toFinset.card ≤ cap) : mergeUpTo cap xs ys = merge id xs ys := by
  induction ys generalizing xs with
  | nil => rfl
  | cons y ys induction =>
      rw [merge_cons, add, List.map_id, id, mergeUpTo, List.foldl_cons]
      by_cases taken : y ∈ xs
      · have same : (xs ++ y :: ys).toFinset = (xs ++ ys).toFinset := by
          ext z
          simp only [List.mem_toFinset, List.mem_append, List.mem_cons]
          constructor
          · rintro (old | rfl | later)
            exacts [.inl old, .inl taken, .inr later]
          · exact Or.imp_right Or.inr
        rw [if_neg (fun new => new.1 taken), if_pos taken]
        exact induction distinct (same ▸ room)
      · have longer : (y :: xs).Nodup := List.nodup_cons.mpr ⟨taken, distinct⟩
        have counted : (y :: xs).toFinset.card ≤ (xs ++ y :: ys).toFinset.card := by
          refine Finset.card_le_card fun z member => ?_
          rw [List.mem_toFinset, List.mem_cons] at member
          rw [List.mem_toFinset, List.mem_append, List.mem_cons]
          exact member.elim (fun own => .inr (.inl own)) .inl
        rw [List.toFinset_card_of_nodup longer, List.length_cons] at counted
        rw [if_pos ⟨taken, Nat.lt_of_succ_le (counted.trans room)⟩, if_neg taken]
        refine induction ?_ (by simpa using room)
        rw [List.nodup_append]
        exact ⟨distinct, List.nodup_singleton y, fun a old b own same =>
          taken (List.mem_singleton.mp own ▸ same ▸ old)⟩

end Cap

/-! ## Offering under a test -/

section Test

variable [DecidableEq α] (seen : List α → α → Prop) [∀ xs, DecidablePred (seen xs)]

/-- Offer entries in turn; what the test takes for an entry of the list is dropped. -/
def offer (xs ys : List α) : List α := ys.foldl (fun xs y => if seen xs y then xs else xs ++ [y]) xs

/-- The test recognises every entry of the list, and what it recognises once also
in a longer list. -/
structure Recognises : Prop where
  mem : ∀ xs, ∀ x ∈ xs, seen xs x
  grows : ∀ xs x y, seen xs x → seen (xs ++ [y]) x

variable {seen} {xs ys : List α} {x y : α}

omit [DecidableEq α] in
theorem offer_cons :
    offer seen xs (y :: ys) = offer seen (if seen xs y then xs else xs ++ [y]) ys := rfl

omit [DecidableEq α] in
theorem offer_concat (ys : List α) (y : α) : offer seen xs (ys ++ [y]) =
    if seen (offer seen xs ys) y then offer seen xs ys else offer seen xs ys ++ [y] := by
  rw [offer, List.foldl_append]
  rfl

omit [DecidableEq α] in
theorem offer_append (ys zs : List α) :
    offer seen xs (ys ++ zs) = offer seen (offer seen xs ys) zs := List.foldl_append

omit [DecidableEq α] in
theorem mem_of_mem_offer (member : x ∈ offer seen xs ys) : x ∈ xs ∨ x ∈ ys := by
  induction ys generalizing xs with
  | nil => exact .inl member
  | cons y ys induction =>
      rw [List.mem_cons]
      rw [offer_cons] at member
      rcases induction member with old | later
      · split at old
        · exact .inl old
        · rw [List.mem_append, List.mem_singleton] at old
          rcases old with old | same
          · exact .inl old
          · exact .inr (.inl same)
      · exact .inr (.inr later)

namespace Recognises

variable (recognises : Recognises seen)
include recognises

omit [DecidableEq α] in
theorem nodup_offer (distinct : xs.Nodup) : (offer seen xs ys).Nodup := by
  induction ys generalizing xs with
  | nil => exact distinct
  | cons y ys induction =>
      rw [offer_cons]
      split
      · exact induction distinct
      · rename_i new
        have absent : y ∉ xs := fun member => new (recognises.mem xs y member)
        exact induction
          (List.nodup_append.mpr ⟨distinct, List.nodup_singleton y, fun a member b same =>
          fun eq => absent (List.mem_singleton.mp same ▸ eq ▸ member)⟩)

omit [DecidableEq α] in
/-- What the test takes for an entry is not added later either. -/
theorem not_mem_offer (dropped : seen xs x) (absent : x ∉ xs) : x ∉ offer seen xs ys := by
  induction ys generalizing xs with
  | nil => exact absent
  | cons y ys induction =>
      rw [offer_cons]
      split
      · exact induction dropped absent
      · rename_i new
        have different : x ≠ y := fun same => new (same ▸ dropped)
        exact induction (recognises.grows xs x y dropped) (by simp [absent, different])

/-- A test without mistakes leaves the entries that come first. -/
theorem offer_eq_merge
    (apart : ∀ before y after, ys = before ++ y :: after → y ∉ before →
      ¬ seen (merge id [] before) y) : offer seen [] ys = merge id [] ys := by
  induction ys using List.reverseRecOn with
  | nil => rfl
  | append_singleton ys y induction =>
      have before_eq := induction fun before y' after split =>
        apart before y' (after ++ [y]) (by rw [split]; simp)
      rw [offer_concat, before_eq, merge_append, merge_cons, merge_nil, add, List.map_id, id]
      by_cases taken : y ∈ merge id [] ys
      · rw [if_pos taken, if_pos (recognises.mem _ y taken)]
      · have absent : y ∉ ys := fun member => taken (mem_merge_id.mpr (.inr member))
        rw [if_neg taken, if_neg (apart ys y [] rfl absent)]

/-- When every entry is in the list at the end, the test has made no mistake on the way. -/
theorem offer_eq_merge_of_forall_mem (all : ∀ y ∈ ys, y ∈ offer seen [] ys) :
    ∀ before after, ys = before ++ after → offer seen [] before = merge id [] before := by
  intro before
  induction before using List.reverseRecOn with
  | nil => exact fun _ _ => rfl
  | append_singleton before last induction =>
      intro after split
      have before_eq := induction (last :: after) (by rw [split]; simp)
      have whole : offer seen [] ys = offer seen (merge id [] before) (last :: after) := by
        rw [← before_eq, ← offer_append, split]
        simp
      rw [offer_concat, before_eq, merge_append, merge_cons, merge_nil, add, List.map_id, id]
      by_cases taken : last ∈ merge id [] before
      · rw [if_pos taken, if_pos (recognises.mem _ last taken)]
      · have new : ¬ seen (merge id [] before) last := fun dropped =>
          recognises.not_mem_offer dropped taken (whole ▸ all last (by rw [split]; simp))
        rw [if_neg taken, if_neg new]

/-- Every entry is in the list at the end exactly when the test takes none for another one. -/
theorem forall_mem_offer_iff (ys : List α) :
    (∀ y ∈ ys, y ∈ offer seen [] ys) ↔
      ∀ before y after, ys = before ++ y :: after → y ∉ before → ¬ seen (merge id [] before) y := by
  constructor
  · intro all before y after split absent dropped
    have before_eq := recognises.offer_eq_merge_of_forall_mem all before (y :: after) split
    have member : y ∈ offer seen (offer seen [] before) (y :: after) := by
      rw [← offer_append, ← split]
      exact all y (by rw [split]; simp)
    rw [before_eq] at member
    refine recognises.not_mem_offer dropped (fun taken => ?_) member
    exact absent ((mem_merge_id.mp taken).resolve_left List.not_mem_nil)
  · intro apart y member
    rw [recognises.offer_eq_merge apart]
    exact mem_merge_id.mpr (.inr member)

end Recognises

end Test

end KeepFirst
