import Mathlib.Data.List.Basic
import Mathlib.Order.Lattice
import Mathlib.Tactic.Common

/-!
# Scanning sorted rows in groups

One loop over the rows of a result, and once past its end, hands on a group of rows whenever the key
changes.  When the rows come in the order of their keys, every key is handed on once, with all of
its rows.
-/

namespace GroupScan

variable {α κ σ : Type*} [LinearOrder κ]

/-- What the loop carries: the result so far, the key of the row before and the index of the first
row of its group. -/
structure State (κ σ : Type*) where
  acc : σ
  cur : κ
  start : ℕ

section Loop

variable (flush : σ → κ → List α → Option σ) (key : α → κ) (past : κ) (rows : List α)

/-- One round: hand on the group before the row, when the row is of another key or past the end. -/
def round (state : State κ σ) (i : ℕ) : Option (State κ σ) :=
  let this := (rows[i]?).elim past key
  if 0 < i ∧ (this ≠ state.cur ∨ i = rows.length) then
    (flush state.acc state.cur ((rows.drop state.start).take (i - state.start))).map fun acc =>
      { acc, cur := this, start := i }
  else some { state with cur := this }

/-- The loop over the rows and once past their end. -/
def scan (init : σ) : Option σ :=
  if rows = [] then some init
  else ((List.range (rows.length + 1)).foldlM (round flush key past rows)
    { acc := init, cur := past, start := 0 }).map State.acc

end Loop

variable {flush : σ → κ → List α → Option σ} {key : α → κ} {past : κ} {rows : List α}

/-- What the loop does from a row on, told by recursion: the group so far and the rows after it. -/
def flushRest (flush : σ → κ → List α → Option σ) (key : α → κ) (acc : σ) (cur : κ)
    (group : List α) :
    List α → Option σ
  | [] => flush acc cur group
  | row :: rest =>
      if key row = cur then flushRest flush key acc cur (group ++ [row]) rest
      else (flush acc cur group).bind fun acc => flushRest flush key acc (key row) [row] rest

theorem take_drop_group (before group rest : List α) (split : rows = before ++ group ++ rest) :
    (rows.drop before.length).take (before.length + group.length - before.length) = group := by
  rw [split, List.append_assoc, List.drop_left, Nat.add_sub_cancel_left, List.take_left]

/-- The loop hands on the groups of the recursion. -/
theorem foldlM_round (acc : σ) (cur : κ) (before group rest : List α) (nonempty : group ≠ [])
    (split : rows = before ++ group ++ rest) :
    ((List.range' (before.length + group.length) (rest.length + 1)).foldlM
        (round flush key past rows) { acc, cur, start := before.length }).map State.acc =
      flushRest flush key acc cur group rest := by
  induction rest generalizing acc cur before group with
  | nil =>
      have positive := List.length_pos_iff.mpr nonempty
      have own := take_drop_group before group [] split
      have at_end : before.length + group.length = rows.length := by
        rw [split]
        simp
      rw [flushRest, List.length_nil, List.range'_one, List.foldlM_cons, round,
        if_pos ⟨by omega, .inr at_end⟩, own]
      cases flush acc cur group <;> rfl
  | cons row rest induction =>
      have positive := List.length_pos_iff.mpr nonempty
      have own := take_drop_group before group (row :: rest) split
      have this : rows[before.length + group.length]? = some row := by
        rw [split, List.getElem?_append_right (by simp)]
        simp
      have inside : before.length + group.length ≠ rows.length := by
        rw [split]
        simp
      rw [flushRest, List.length_cons, List.range'_succ, List.foldlM_cons, round]
      simp only [this, Option.elim_some, own, inside, or_false]
      by_cases same : key row = cur
      · rw [if_neg (by simp [same]), if_pos same, same]
        have grown := induction acc cur before (group ++ [row]) (by simp) (by simp [split])
        rw [List.length_append, List.length_singleton, ← Nat.add_assoc] at grown
        exact grown
      · rw [if_pos ⟨by omega, same⟩, if_neg same]
        cases flush acc cur group with
        | none => rfl
        | some acc =>
            have next := induction acc (key row) (before ++ group) [row] (by simp)
              (by simp [split])
            rw [List.length_append, List.length_singleton] at next
            exact next

theorem scan_cons (row : α) (rest : List α) (init : σ) :
    scan flush key past (row :: rest) init = flushRest flush key init (key row) [row] rest := by
  have ran : Option.map State.acc ((List.range' ([].length + [row].length) (rest.length + 1)).foldlM
      (round flush key past (row :: rest)) _) = flushRest flush key init (key row) [row] rest :=
    foldlM_round init (key row) [] [row] rest (by simp) rfl
  rw [scan, if_neg (List.cons_ne_nil row rest), List.range_eq_range', List.length_cons,
    List.range'_succ, List.foldlM_cons, round, if_neg (by simp)]
  exact ran

section Rule

variable {invariant : List κ → σ → Prop}

/-- The group at the end of the recursion, or before a row of another key, has all
rows of its key. -/
theorem flush_group {rest : List α}
    (step : ∀ keys acc k, invariant keys acc → k ∉ keys → k ∈ rows.map key →
      ∃ acc', flush acc k (rows.filter fun row => key row = k) = some acc' ∧
        invariant (keys ++ [k]) acc')
    {keys : List κ} {acc : σ} {cur : κ} {before group : List α}
    (split : rows = before ++ group ++ rest) (nonempty : group ≠ [])
    (own : ∀ row ∈ group, key row = cur) (other : ∀ row ∈ before, key row ≠ cur)
    (flushed : ∀ k, k ∈ keys ↔ k ∈ before.map key) (holds : invariant keys acc)
    (later : ∀ row ∈ rest, key row ≠ cur) :
    ∃ acc', flush acc cur group = some acc' ∧ invariant (keys ++ [cur]) acc' := by
  have cur_mem : cur ∈ rows.map key := by
    obtain ⟨row, member⟩ := List.exists_mem_of_ne_nil group nonempty
    exact List.mem_map.mpr ⟨row, by simp [split, member], own row member⟩
  have cur_new : cur ∉ keys := by
    rw [flushed, List.mem_map]
    rintro ⟨row, member, same⟩
    exact other row member same
  have whole : rows.filter (fun row => key row = cur) = group := by
    have none_before : before.filter (fun row => key row = cur) = [] := by simpa using other
    have none_later : rest.filter (fun row => key row = cur) = [] := by simpa using later
    have all_own : group.filter (fun row => key row = cur) = group := by simpa using own
    rw [split, List.filter_append, List.filter_append, none_before, none_later, all_own]
    simp
  rw [← whole]
  exact step keys acc cur holds cur_new cur_mem

omit [LinearOrder κ] in
theorem mem_keys_group {keys : List κ} {cur : κ} {before group : List α} (nonempty : group ≠ [])
    (own : ∀ row ∈ group, key row = cur) (flushed : ∀ k, k ∈ keys ↔ k ∈ before.map key) (k : κ) :
    k ∈ keys ++ [cur] ↔ k ∈ (before ++ group).map key := by
  have of_group : k ∈ group.map key ↔ k = cur := by
    rw [List.mem_map]
    constructor
    · rintro ⟨row, member, rfl⟩
      exact own row member
    · rintro rfl
      obtain ⟨row, member⟩ := List.exists_mem_of_ne_nil group nonempty
      exact ⟨row, member, own row member⟩
  rw [List.mem_append, List.mem_singleton, flushed, List.map_append, List.mem_append, of_group]

/-- The rule of the recursion: every key that is handed on comes with all of its rows. -/
theorem flushRest_rule (sorted : rows.Pairwise fun row row' => key row ≤ key row')
    (step : ∀ keys acc k, invariant keys acc → k ∉ keys → k ∈ rows.map key →
      ∃ acc', flush acc k (rows.filter fun row => key row = k) = some acc' ∧
        invariant (keys ++ [k]) acc')
    (before group rest : List α) {keys : List κ} {acc : σ} {cur : κ}
    (split : rows = before ++ group ++ rest) (nonempty : group ≠ [])
    (own : ∀ row ∈ group, key row = cur) (other : ∀ row ∈ before, key row ≠ cur)
    (flushed : ∀ k, k ∈ keys ↔ k ∈ before.map key) (holds : invariant keys acc) :
    ∃ acc' keys', flushRest flush key acc cur group rest = some acc' ∧ invariant keys' acc' ∧
      ∀ k, k ∈ keys' ↔ k ∈ rows.map key := by
  induction rest generalizing keys acc cur before group with
  | nil =>
      obtain ⟨acc', done, holds'⟩ := flush_group step split nonempty own other flushed holds
        fun _ member => absurd member List.not_mem_nil
      refine ⟨acc', keys ++ [cur], done, holds', fun k => ?_⟩
      rw [split, List.append_nil]
      exact mem_keys_group nonempty own flushed k
  | cons row rest induction =>
      rw [flushRest]
      by_cases same : key row = cur
      · rw [if_pos same]
        refine induction before (group ++ [row]) (by simp [split]) (by simp) ?_ other flushed holds
        intro other member
        rcases List.mem_append.mp member with old | last
        · exact own other old
        · rw [List.mem_singleton.mp last, same]
      · rw [if_neg same]
        obtain ⟨first, first_mem⟩ := List.exists_mem_of_ne_nil group nonempty
        have parts := sorted
        rw [split, List.pairwise_append, List.pairwise_append] at parts
        obtain ⟨⟨-, -, before_le⟩, rest_sorted, group_le⟩ := parts
        have next : cur < key row := by
          refine lt_of_le_of_ne ?_ (Ne.symm same)
          rw [← own first first_mem]
          exact group_le first (List.mem_append_right _ first_mem) row List.mem_cons_self
        have above : ∀ later ∈ row :: rest, key later ≠ cur := by
          intro later member
          rcases List.mem_cons.mp member with rfl | member
          · exact same
          · exact (next.trans_le ((List.pairwise_cons.mp rest_sorted).1 later member)).ne'
        obtain ⟨acc', done, holds'⟩ := flush_group step split nonempty own other flushed holds
          above
        rw [done, Option.bind_some]
        refine induction (before ++ group) [row] (by simp [split]) (by simp) (by simp) ?_
          (fun k => ?_) holds'
        · intro earlier member
          rcases List.mem_append.mp member with old | old
          · have below := before_le earlier old first first_mem
            rw [own first first_mem] at below
            exact (below.trans_lt next).ne
          · rw [own earlier old]
            exact next.ne
        · rw [mem_keys_group nonempty own flushed k]

/-- The loop over sorted rows hands on every key once, with all of its rows. -/
theorem scan_rule (sorted : rows.Pairwise fun row row' => key row ≤ key row')
    (step : ∀ keys acc k, invariant keys acc → k ∉ keys → k ∈ rows.map key →
      ∃ acc', flush acc k (rows.filter fun row => key row = k) = some acc' ∧
        invariant (keys ++ [k]) acc')
    (past : κ) {init : σ} (holds : invariant [] init) :
    ∃ acc keys, scan flush key past rows init = some acc ∧ invariant keys acc ∧
      ∀ k, k ∈ keys ↔ k ∈ rows.map key := by
  cases rows with
  | nil => exact ⟨init, [], rfl, holds, fun _ => Iff.rfl⟩
  | cons row rest =>
      rw [scan_cons]
      exact flushRest_rule sorted step [] [row] rest rfl (by simp) (by simp) (by simp)
        (fun _ => Iff.rfl) holds

end Rule

end GroupScan
