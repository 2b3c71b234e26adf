import Mathlib.Data.List.Nodup
import Mathlib.Logic.Function.Basic

/-!
# Linked lists in a heap

A heap gives the nodes at their addresses, and a node ends with a pointer to the next one.  A
pointer starts a chain when the links from it go through allocated nodes and end.  A chain is
determined by its start, so it meets no address twice, and it ends nowhere once one of its nodes is
gone.
-/

/-- A node of a linked list. -/
structure LinkedNode (α : Type*) where
  value : α
  next : Option ℕ
deriving DecidableEq, Repr

/-- The nodes at their addresses. -/
abbrev NodeHeap (α : Type*) := ℕ → Option (LinkedNode α)

variable {α : Type*}

/-- The links from `start` go through these nodes, in order, and end. -/
def Chain (heap : NodeHeap α) : Option ℕ → List (ℕ × α) → Prop
  | start, [] => start = none
  | start, (p, a) :: rest =>
      start = some p ∧ ∃ next, heap p = some ⟨a, next⟩ ∧ Chain heap next rest

namespace Chain

variable {heap heap' : NodeHeap α} {start : Option ℕ} {nodes nodes' front rest : List (ℕ × α)}
  {p : ℕ} {a : α}

/-- A pointer starts one chain. -/
theorem unique (chain : Chain heap start nodes) (chain' : Chain heap start nodes') :
    nodes = nodes' := by
  induction nodes generalizing start nodes' with
  | nil =>
      cases nodes' with
      | nil => rfl
      | cons node' rest' => cases chain.symm.trans chain'.1
  | cons node rest induction =>
      obtain ⟨rfl, next, node_eq, later⟩ := chain
      cases nodes' with
      | nil => cases chain'
      | cons node' rest' =>
          obtain ⟨address, next', node_eq', later'⟩ := chain'
          obtain ⟨p, a⟩ := node
          obtain ⟨p', a'⟩ := node'
          obtain rfl : p = p' := Option.some.inj address
          obtain ⟨rfl, rfl⟩ := LinkedNode.mk.inj (Option.some.inj (node_eq.symm.trans node_eq'))
          rw [induction later later']

/-- The rest of a chain is the chain of its first node. -/
theorem suffix (chain : Chain heap start (front ++ (p, a) :: rest)) :
    Chain heap (some p) ((p, a) :: rest) := by
  induction front generalizing start with
  | nil => exact ⟨rfl, chain.2⟩
  | cons node front induction =>
      obtain ⟨-, next, -, later⟩ := chain
      exact induction later

/-- No address is met twice. -/
theorem nodup (chain : Chain heap start nodes) : (nodes.map Prod.fst).Nodup := by
  induction nodes generalizing start with
  | nil => exact List.nodup_nil
  | cons node rest induction =>
      obtain ⟨p, a⟩ := node
      have whole := chain
      obtain ⟨rfl, next, -, later⟩ := chain
      refine List.nodup_cons.mpr ⟨fun again => ?_, induction later⟩
      obtain ⟨⟨q, b⟩, member, rfl⟩ := List.mem_map.mp again
      obtain ⟨front, tail, rfl⟩ := List.append_of_mem member
      have lengths := congrArg List.length (whole.unique (suffix later))
      simp at lengths
      omega

/-- When a node is gone the pointer starts no chain. -/
theorem broken (chain : Chain heap start (front ++ (p, a) :: rest))
    (same : ∀ node ∈ front, heap' node.1 = heap node.1) (gone : heap' p = none) :
    ¬ Chain heap' start nodes' := by
  induction front generalizing start nodes' with
  | nil =>
      obtain ⟨rfl, -⟩ := chain
      intro chain'
      cases nodes' with
      | nil => cases chain'
      | cons node' rest' =>
          obtain ⟨address, next', node_eq', -⟩ := chain'
          rw [← Option.some.inj address, gone] at node_eq'
          cases node_eq'
  | cons node front induction =>
      obtain ⟨rfl, next, node_eq, later⟩ := chain
      intro chain'
      cases nodes' with
      | nil => cases chain'
      | cons node' rest' =>
          obtain ⟨address, next', node_eq', later'⟩ := chain'
          rw [← Option.some.inj address, same node List.mem_cons_self, node_eq] at node_eq'
          obtain ⟨-, rfl⟩ := LinkedNode.mk.inj (Option.some.inj node_eq')
          exact induction later
            (fun other member => same other (List.mem_cons_of_mem node member)) later'

/-- A node is put after the last one. -/
theorem concat {last : ℕ × α} (chain : Chain heap start (front ++ [last])) {q : ℕ} {b : α}
    (new : heap q = some ⟨b, none⟩) (fresh : q ∉ (front ++ [last]).map Prod.fst) :
    Chain (Function.update heap last.1 (some ⟨last.2, some q⟩)) start
      (front ++ [last] ++ [(q, b)]) := by
  have addresses := chain.nodup
  induction front generalizing start with
  | nil =>
      obtain ⟨rfl, next, -, -⟩ := chain
      have other : q ≠ last.1 := by simpa using fresh
      refine ⟨rfl, some q, by simp, rfl, none, ?_, rfl⟩
      rw [Function.update_of_ne other, new]
  | cons node front induction =>
      obtain ⟨rfl, next, node_eq, later⟩ := chain
      simp only [List.cons_append, List.map_cons, List.nodup_cons, List.mem_cons, not_or]
        at addresses fresh
      have other : node.1 ≠ last.1 := by
        rintro same
        exact addresses.1 (by simp [same])
      refine ⟨rfl, next, ?_, induction later fresh.2 addresses.2⟩
      rw [Function.update_of_ne other, node_eq]

end Chain
