import Mathlib.Data.List.Basic
import Mathlib.Data.List.Nodup

/-!
# Rows under a key

Selecting the rows of one key from a list: what it does to rows derived from rows with the same key,
and to a list in which every key is distinct.  Choosing the first row that gives a value: when two
such choices agree.
-/

namespace KeyedRows

variable {Source Row Key : Type*} [DecidableEq Key] {key : Row → Key}

/-- Rows derived from sources that share their key are selected by selecting the sources. -/
theorem filter_flatMap {sourceKey : Source → Key} {derive : Source → List Row}
    (kept : ∀ source, ∀ row ∈ derive source, key row = sourceKey source) (value : Key)
    (sources : List Source) :
    (sources.flatMap derive).filter (fun row => key row = value) =
      (sources.filter fun source => sourceKey source = value).flatMap derive := by
  induction sources with
  | nil => rfl
  | cons source rest ih =>
      have own : (derive source).filter (fun row => key row = value) =
          if sourceKey source = value then derive source else [] := by
        split
        · rename_i same
          exact List.filter_eq_self.mpr fun row member => by simp [kept source row member, same]
        · rename_i other
          exact List.filter_eq_nil_iff.mpr fun row member => by simp [kept source row member, other]
      rw [List.flatMap_cons, List.filter_append, ih, own]
      by_cases same : sourceKey source = value <;> simp [same]

/-- A distinct key selects its own row. -/
theorem filter_eq_singleton {rows : List Row} (distinct : (rows.map key).Nodup) {row : Row}
    (member : row ∈ rows) : rows.filter (fun other => key other = key row) = [row] := by
  induction rows with
  | nil => exact absurd member List.not_mem_nil
  | cons first rest ih =>
      obtain ⟨fresh, distinct⟩ := List.nodup_cons.mp distinct
      rcases List.mem_cons.mp member with rfl | member
      · have others : rest.filter (fun other => key other = key row) = [] :=
          List.filter_eq_nil_iff.mpr fun other other_mem same =>
            fresh (of_decide_eq_true same ▸ List.mem_map_of_mem other_mem)
        simp [others]
      · have other : key first ≠ key row := fun same => fresh (same ▸ List.mem_map_of_mem member)
        simp [other, ih distinct member]

/-- A distinct key selects no more than one row. -/
theorem length_filter_le_one {rows : List Row} (distinct : (rows.map key).Nodup) (value : Key) :
    (rows.filter fun row => key row = value).length ≤ 1 := by
  cases selected : rows.filter (fun row => key row = value) with
  | nil => exact Nat.zero_le 1
  | cons row rest =>
      have member : row ∈ rows.filter fun row => key row = value := by simp [selected]
      obtain ⟨row_mem, own⟩ := List.mem_filter.mp member
      rw [← selected, ← of_decide_eq_true own, filter_eq_singleton distinct row_mem]
      exact Nat.le_refl 1

omit [DecidableEq Key] in
/-- Deriving at most one row from each source, under its key, keeps the keys distinct. -/
theorem nodup_flatMap {sourceKey : Source → Key} {derive : Source → List Row}
    {sources : List Source}
    (distinct : (sources.map sourceKey).Nodup)
    (kept : ∀ source ∈ sources, ∀ row ∈ derive source, key row = sourceKey source)
    (one : ∀ source ∈ sources, (derive source).length ≤ 1) :
    ((sources.flatMap derive).map key).Nodup := by
  induction sources with
  | nil => exact List.nodup_nil
  | cons source rest induction =>
      rw [List.map_cons, List.nodup_cons] at distinct
      rw [List.forall_mem_cons] at kept one
      rw [List.flatMap_cons, List.map_append]
      refine List.nodup_append'.mpr ⟨?_, induction distinct.2 kept.2 one.2, ?_⟩
      · match derived : derive source, one.1 with
        | [], _ => exact List.nodup_nil
        | [row], _ => exact List.nodup_singleton _
      · intro value own later
        obtain ⟨row, row_mem, rfl⟩ := List.mem_map.mp own
        obtain ⟨other, other_mem, same⟩ := List.mem_map.mp later
        obtain ⟨source', source'_mem, other_mem⟩ := List.mem_flatMap.mp other_mem
        refine distinct.1 (List.mem_map.mpr ⟨source', source'_mem, ?_⟩)
        rw [← kept.2 source' source'_mem other other_mem, same, kept.1 row row_mem]

section Choice

variable {Value : Type*} {choose choose' : Row → Option Value}

/-- When a value tells its row, two choices agree exactly when they agree on every row that the
first one reaches. -/
theorem findSome?_eq_iff {rows : List Row}
    (determined : ∀ row ∈ rows, ∀ row' ∈ rows, ∀ value,
      choose row = some value → choose' row' = some value → row = row') :
    rows.findSome? choose = rows.findSome? choose' ↔
      ∀ before row after, rows = before ++ row :: after →
        (∀ earlier ∈ before, choose earlier = none) → choose row = choose' row := by
  induction rows with
  | nil => simp
  | cons first rest ih =>
      have reached : (∀ before row after, first :: rest = before ++ row :: after →
            (∀ earlier ∈ before, choose earlier = none) → choose row = choose' row) ↔
          choose first = choose' first ∧ (choose first = none →
            ∀ before row after, rest = before ++ row :: after →
              (∀ earlier ∈ before, choose earlier = none) → choose row = choose' row) := by
        constructor
        · intro agree
          refine ⟨agree [] first rest rfl (by simp),
            fun skipped before row after split none_before =>
            agree (first :: before) row after (by rw [split, List.cons_append]) ?_⟩
          exact List.forall_mem_cons.mpr ⟨skipped, none_before⟩
        · rintro ⟨own, others⟩ before row after split none_before
          cases before with
          | nil =>
              obtain ⟨rfl, rfl⟩ := List.cons.inj split
              exact own
          | cons head tail =>
              obtain ⟨rfl, rest_eq⟩ := List.cons.inj split
              obtain ⟨skipped, none_before⟩ := List.forall_mem_cons.mp none_before
              exact others skipped tail row after rest_eq none_before
      have ih := ih fun row member row' member' =>
        determined row (List.mem_cons_of_mem first member) row' (List.mem_cons_of_mem first member')
      rw [reached, List.findSome?_cons, List.findSome?_cons]
      cases own : choose first with
      | none =>
          cases own' : choose' first with
          | none => simpa using ih
          | some value =>
              refine iff_of_false (fun agree => ?_) (by simp)
              obtain ⟨row, member, found⟩ := List.exists_of_findSome?_eq_some agree
              obtain rfl := determined row (List.mem_cons_of_mem first member) first
                List.mem_cons_self value found own'
              rw [own] at found
              cases found
      | some value =>
          cases own' : choose' first with
          | none =>
              refine iff_of_false (fun agree => ?_) (by simp)
              obtain ⟨row, member, found⟩ := List.exists_of_findSome?_eq_some agree.symm
              obtain rfl := determined first List.mem_cons_self row
                (List.mem_cons_of_mem first member) value own found
              rw [own'] at found
              cases found
          | some value' => simp

end Choice

end KeyedRows
