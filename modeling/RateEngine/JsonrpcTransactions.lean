import Mathlib.Data.Int.Notation
import Mathlib.Tactic.Common
import RateEngine.Lib.Chain

/-!
# The list of JSON-RPC transactions

`json_rpc_transaction_new` puts a transaction at the end of a linked list, and
`json_rpc_transaction_find` follows the links.  `json_rpc_transaction_delete` follows them with a
second pointer one node behind, which it does not set before the loop: it frees the node behind the
one that it found.
-/

namespace RateEngine.Jsonrpc

/-! ## The list -/

/-- `jsonrpc_transaction_t` as far as the list. -/
structure Transaction where
  id : UInt32
  msgT : ℤ
deriving DecidableEq, Repr

/-- `jsonrpc_transaction_lst` and the allocated transactions. -/
structure TransactionList where
  lst : Option ℕ
  heap : NodeHeap Transaction

/-- A pointer that does not point to a transaction is used, or the loop is not at its end. -/
inductive ListFault where
  | dangling
  | unfinished
deriving DecidableEq, Repr

/-- `trans->next = next`. -/
def setNext (heap : NodeHeap Transaction) (trans next : Option ℕ) :
    Except ListFault (NodeHeap Transaction) :=
  match trans with
  | none => .error .dangling
  | some p =>
      match heap p with
      | none => .error .dangling
      | some node => .ok (Function.update heap p (some { node with next }))

/-- `json_rpc_transaction_free`. -/
def transactionFree (heap : NodeHeap Transaction) (trans : Option ℕ) :
    Except ListFault (NodeHeap Transaction) :=
  match trans with
  | none => .ok heap
  | some p => if (heap p).isSome then .ok (Function.update heap p none) else .error .dangling

/-- The loop of `json_rpc_transaction_new`. -/
def newLoop (trans : ℕ) : ℕ → NodeHeap Transaction → Option ℕ →
    Except ListFault (NodeHeap Transaction)
  | _, heap, none => .ok heap
  | 0, _, some _ => .error .unfinished
  | fuel + 1, heap, some tmp =>
      match heap tmp with
      | none => .error .dangling
      | some node =>
          if node.next = none then setNext heap (some tmp) (some trans)
          else newLoop trans fuel heap node.next

/-- `json_rpc_transaction_new`. -/
def TransactionList.new (s : TransactionList) (fuel : ℕ) (trans : Option ℕ) :
    Except ListFault TransactionList :=
  match trans with
  | none => .ok s
  | some p =>
      if s.lst = none then .ok { s with lst := some p }
      else (newLoop p fuel s.heap s.lst).map fun heap => { s with heap }

/-- The loop of `json_rpc_transaction_delete`. -/
def deleteLoop (id : UInt32) : ℕ → NodeHeap Transaction → Option ℕ → Option ℕ →
    Except ListFault (NodeHeap Transaction)
  | _, heap, _, none => .ok heap
  | 0, _, _, some _ => .error .unfinished
  | fuel + 1, heap, prev, some tmp =>
      match heap tmp with
      | none => .error .dangling
      | some node =>
          if node.value.id = id then
            (setNext heap prev node.next).bind fun heap => transactionFree heap prev
          else deleteLoop id fuel heap (some tmp) node.next

/-- `json_rpc_transaction_delete`; `unset` is what `prev` holds before the loop. -/
def TransactionList.delete (s : TransactionList) (unset : Option ℕ) (fuel : ℕ) (id : UInt32) :
    Except ListFault TransactionList :=
  if 0 < id then (deleteLoop id fuel s.heap unset s.lst).map fun heap => { s with heap }
  else .ok s

/-- The loop of `json_rpc_transaction_find`. -/
def findLoop (id : UInt32) (msgT : ℤ) : ℕ → NodeHeap Transaction → Option ℕ →
    Except ListFault (Option ℕ)
  | _, _, none => .ok none
  | 0, _, some _ => .error .unfinished
  | fuel + 1, heap, some tmp =>
      match heap tmp with
      | none => .error .dangling
      | some node =>
          if node.value.id = id ∧ node.value.msgT = msgT then .ok (some tmp)
          else findLoop id msgT fuel heap node.next

/-- `json_rpc_transaction_find`. -/
def TransactionList.find (s : TransactionList) (fuel : ℕ) (id : UInt32) (msgT : ℤ) :
    Except ListFault (Option ℕ) :=
  if id ≤ 0 then .ok none else findLoop id msgT fuel s.heap s.lst

/-! ## Lists that end -/

/-- A list of transactions with the nodes that it goes through. -/
structure Transactions extends TransactionList where
  nodes : List (ℕ × Transaction)
  chain : Chain heap lst nodes

/-- The first transaction with an id. -/
def Transactions.first (t : Transactions) (id : UInt32) : Option (ℕ × Transaction) :=
  t.nodes.find? fun node => node.2.id = id

/-- What is asked of a removal: the other transactions stay in order, the first one with the id is
released and no other, and a search finds each other transaction that it found before. -/
structure Transactions.RemovesFirst (t : Transactions) (id : UInt32) (after : TransactionList) :
    Prop where
  chain : Chain after.heap after.lst (t.nodes.eraseP fun node => node.2.id = id)
  released : ∀ p, after.heap p = none ↔ t.heap p = none ∨ ∃ trans, t.first id = some (p, trans)
  finds : ∀ other msgT p, t.find t.nodes.length other msgT = .ok (some p) →
    (∀ trans, t.first id ≠ some (p, trans)) →
      after.find t.nodes.length other msgT = .ok (some p)

/-- `json_rpc_transaction_delete` ends with the first transaction of the id removed. -/
def Transactions.DeletesFirst (t : Transactions) (unset : Option ℕ) (id : UInt32) : Prop :=
  ∃ after, t.delete unset t.nodes.length id = .ok after ∧ t.RemovesFirst id after

section Loops

variable {heap : NodeHeap Transaction} {start prev : Option ℕ} {id : UInt32}
  {nodes front rest : List (ℕ × Transaction)} {p : ℕ} {trans : Transaction}

/-- A transaction is put at the end. -/
theorem newLoop_chain (chain : Chain heap start nodes) (nonempty : nodes ≠ []) {fuel : ℕ}
    (enough : nodes.length ≤ fuel) (new : heap p = some ⟨trans, none⟩)
    (fresh : p ∉ nodes.map Prod.fst) :
    ∃ heap', newLoop p fuel heap start = .ok heap' ∧ Chain heap' start (nodes ++ [(p, trans)]) := by
  obtain ⟨front, last, rfl⟩ := (List.eq_nil_or_concat' nodes).resolve_left nonempty
  refine ⟨_, ?_, chain.concat new fresh⟩
  clear nonempty
  induction front generalizing start fuel with
  | nil =>
      obtain ⟨rfl, next, node_eq, ended⟩ := chain
      cases fuel with
      | zero => simp at enough
      | succ fuel => simp [newLoop, node_eq, show next = none from ended, setNext]
  | cons node front induction =>
      obtain ⟨rfl, next, node_eq, later⟩ := chain
      have goes_on : next ≠ none := by
        rintro rfl
        cases front <;> cases later.1
      cases fuel with
      | zero => simp at enough
      | succ fuel =>
          rw [newLoop, node_eq]
          simp only [if_neg goes_on]
          exact induction later (by simpa using enough) fun member =>
            fresh (List.mem_cons_of_mem node.1 member)

/-- A node that the loop of `json_rpc_transaction_delete` does not find leaves the heap. -/
theorem deleteLoop_absent (chain : Chain heap start nodes) {fuel : ℕ}
    (enough : nodes.length ≤ fuel) (absent : ∀ node ∈ nodes, node.2.id ≠ id) :
    deleteLoop id fuel heap prev start = .ok heap := by
  induction nodes generalizing start prev fuel with
  | nil =>
      obtain rfl : start = none := chain
      rw [deleteLoop]
  | cons node rest induction =>
      obtain ⟨rfl, next, node_eq, later⟩ := chain
      cases fuel with
      | zero => simp at enough
      | succ fuel =>
          rw [deleteLoop, node_eq]
          simp only [if_neg (absent node List.mem_cons_self)]
          exact induction later (by simpa using enough) fun other member =>
            absent other (List.mem_cons_of_mem node member)

/-- The loop comes to the first transaction of the id with `prev` on the node before it. -/
theorem deleteLoop_present (prev : Option ℕ)
    (chain : Chain heap start (front ++ (p, trans) :: rest)) {fuel : ℕ}
    (enough : (front ++ (p, trans) :: rest).length ≤ fuel)
    (before : ∀ node ∈ front, node.2.id ≠ id) (found : trans.id = id) :
    ∃ next, deleteLoop id fuel heap prev start =
      (setNext heap ((front.getLast?.map Prod.fst).or prev) next).bind fun heap =>
        transactionFree heap ((front.getLast?.map Prod.fst).or prev) := by
  induction front generalizing start prev fuel with
  | nil =>
      obtain ⟨rfl, next, node_eq, -⟩ := chain
      cases fuel with
      | zero => simp at enough
      | succ fuel =>
          refine ⟨next, ?_⟩
          rw [deleteLoop, node_eq]
          simp only [if_pos found]
          rfl
  | cons node front induction =>
      obtain ⟨rfl, next, node_eq, later⟩ := chain
      cases fuel with
      | zero => simp at enough
      | succ fuel =>
          obtain ⟨last, rest_eq⟩ := induction (some node.1) later (by simpa using enough)
            fun other member => before other (List.mem_cons_of_mem node member)
          refine ⟨last, ?_⟩
          rw [deleteLoop, node_eq]
          simp only [if_neg (before node List.mem_cons_self), rest_eq]
          cases front with
          | nil => simp
          | cons other front => simp [List.getLast?_cons]

/-- A search returns the first transaction with the id and the type. -/
theorem findLoop_eq {msgT : ℤ} (chain : Chain heap start nodes) {fuel : ℕ}
    (enough : nodes.length ≤ fuel) : findLoop id msgT fuel heap start =
      .ok ((nodes.find? fun node => node.2.id = id ∧ node.2.msgT = msgT).map Prod.fst) := by
  induction nodes generalizing start fuel with
  | nil =>
      obtain rfl : start = none := chain
      rw [findLoop]
      rfl
  | cons node rest induction =>
      obtain ⟨rfl, next, node_eq, later⟩ := chain
      cases fuel with
      | zero => simp at enough
      | succ fuel =>
          rw [findLoop, node_eq, List.find?_cons]
          by_cases matching : node.2.id = id ∧ node.2.msgT = msgT
          · simp [matching]
          · simp only [if_neg matching, decide_eq_false matching]
            exact induction later (by simpa using enough)

/-- What is released through a pointer is gone, and the other nodes are as they were. -/
theorem release_ok {next : Option ℕ} {q : ℕ} {heap' : NodeHeap Transaction}
    (released : (setNext heap (some q) next).bind (fun heap => transactionFree heap (some q)) =
      .ok heap') : heap' = Function.update heap q none := by
  rw [setNext] at released
  cases node_eq : heap q with
  | none =>
      rw [node_eq] at released
      cases released
  | some node =>
      rw [node_eq] at released
      simp only [Except.bind, transactionFree, Function.update_self, Option.isSome_some, if_true,
        Function.update_idem] at released
      exact (Except.ok.inj released).symm

/-- After the release of the node behind the one that was found, the others are no chain. -/
theorem chain_not_removed {unset next : Option ℕ} {heap' : NodeHeap Transaction}
    (chain : Chain heap start (front ++ (p, trans) :: rest))
    (released : (setNext heap ((front.getLast?.map Prod.fst).or unset) next).bind
      (fun heap => transactionFree heap ((front.getLast?.map Prod.fst).or unset)) = .ok heap') :
    ¬ Chain heap' start (front ++ rest) := by
  have addresses := chain.nodup
  rcases List.eq_nil_or_concat' front with rfl | ⟨front, ⟨q, other⟩, rfl⟩
  · -- the pointer to the list still starts with the node
    intro removed
    rw [List.nil_append] at chain removed addresses
    obtain ⟨rfl, -⟩ := chain
    cases rest with
    | nil => cases removed
    | cons second rest =>
        have address := Option.some.inj removed.1
        simp [address] at addresses
  · -- the node before the released one still points to it
    rw [List.getLast?_concat, Option.map_some, Option.some_or] at released
    obtain rfl := release_ok released
    rw [List.append_assoc, List.singleton_append] at chain addresses
    refine chain.broken (fun node member => ?_) (Function.update_self _ _ _)
    refine Function.update_of_ne ?_ _ _
    rintro rfl
    rw [List.map_append, List.map_cons] at addresses
    have apart := (List.nodup_append.mp addresses).2.2
    exact apart _ (List.mem_map_of_mem member) _ List.mem_cons_self rfl

end Loops

/-! ## Additions and searches -/

/-- `json_rpc_transaction_new` puts a transaction after the others. -/
theorem new_chain (t : Transactions) {p : ℕ} {trans : Transaction}
    (new : t.heap p = some ⟨trans, none⟩) (fresh : p ∉ t.nodes.map Prod.fst) :
    ∃ after, t.new t.nodes.length (some p) = .ok after ∧
      Chain after.heap after.lst (t.nodes ++ [(p, trans)]) := by
  have chain := t.chain
  rw [TransactionList.new]
  by_cases empty : t.nodes = []
  · rw [empty] at chain ⊢
    have first : t.lst = none := chain
    exact ⟨_, if_pos first, rfl, none, new, rfl⟩
  · have started : t.lst ≠ none := by
      intro null
      rw [null] at chain
      cases nodes_eq : t.nodes with
      | nil => exact empty nodes_eq
      | cons node rest =>
          rw [nodes_eq] at chain
          cases chain.1
    obtain ⟨heap', ended, chain'⟩ := newLoop_chain chain empty (Nat.le_refl _) new fresh
    rw [if_neg started, ended]
    exact ⟨_, rfl, chain'⟩

/-- `json_rpc_transaction_find` returns the first transaction with the id and the type. -/
theorem find_eq (t : Transactions) {id : UInt32} (positive : ¬ id ≤ 0) (msgT : ℤ) :
    t.find t.nodes.length id msgT =
      .ok ((t.nodes.find? fun node => node.2.id = id ∧ node.2.msgT = msgT).map Prod.fst) := by
  rw [TransactionList.find, if_neg positive, findLoop_eq t.chain (Nat.le_refl _)]

/-! ## Removal -/

/-- Where there is a transaction of the id, the first one is not what is removed and released. -/
theorem absent_of_deletesFirst (t : Transactions) {unset : Option ℕ} {id : UInt32}
    (deletes : t.DeletesFirst unset id) : ∀ node ∈ t.nodes, node.2.id ≠ id := by
  obtain ⟨after, deleted, removes⟩ := deletes
  intro node member found
  obtain ⟨⟨p, trans⟩, front, rest, before, found, nodes_eq, erased⟩ :=
    List.exists_of_eraseP (p := fun node => decide (node.2.id = id)) member (decide_eq_true found)
  replace before : ∀ node ∈ front, node.2.id ≠ id := fun node member same =>
    before node member (decide_eq_true same)
  replace found : trans.id = id := of_decide_eq_true found
  have chain := t.chain
  have removed := removes.chain
  rw [erased] at removed
  rw [nodes_eq] at chain
  rw [TransactionList.delete] at deleted
  by_cases positive : 0 < id
  · rw [if_pos positive] at deleted
    obtain ⟨next, ended⟩ := deleteLoop_present unset chain
      (Nat.le_of_eq (congrArg List.length nodes_eq.symm)) before found
    rw [ended] at deleted
    cases released : (setNext t.heap ((front.getLast?.map Prod.fst).or unset) next).bind
        fun heap => transactionFree heap ((front.getLast?.map Prod.fst).or unset) with
    | error fault =>
        rw [released] at deleted
        cases deleted
    | ok heap' =>
        rw [released] at deleted
        obtain rfl := Except.ok.inj deleted
        exact chain_not_removed chain released removed
  · -- the guard of the function leaves the list
    rw [if_neg positive] at deleted
    obtain rfl := Except.ok.inj deleted
    have lengths := congrArg List.length (chain.unique removed)
    simp at lengths

/-- A list without the id stays as it is. -/
theorem deletesFirst_of_absent (t : Transactions) (unset : Option ℕ) {id : UInt32}
    (absent : ∀ node ∈ t.nodes, node.2.id ≠ id) : t.DeletesFirst unset id := by
  have kept : t.nodes.eraseP (fun node => node.2.id = id) = t.nodes :=
    List.eraseP_of_forall_not fun node member => by simpa using absent node member
  have none_first : t.first id = none :=
    List.find?_eq_none.mpr fun node member => by simpa using absent node member
  refine ⟨t.toTransactionList, ?_, ?_, fun p => ?_, fun _ _ _ found _ => found⟩
  · rw [TransactionList.delete]
    split
    · rw [deleteLoop_absent t.chain (Nat.le_refl _) absent]
      rfl
    · rfl
  · rw [kept]
    exact t.chain
  · simp [none_first]

/-- `json_rpc_transaction_delete` removes the first transaction of an id exactly when there is none,
whatever the second pointer holds before the loop. -/
theorem deletesFirst_iff (t : Transactions) (unset : Option ℕ) (id : UInt32) :
    t.DeletesFirst unset id ↔ ∀ node ∈ t.nodes, node.2.id ≠ id :=
  ⟨absent_of_deletesFirst t, deletesFirst_of_absent t unset⟩

/-- Two transactions. -/
def twoTransactions : Transactions where
  lst := some 0
  heap p := if p = 0 then some ⟨⟨1, 2⟩, some 1⟩ else if p = 1 then some ⟨⟨2, 2⟩, none⟩ else none
  nodes := [(0, ⟨1, 2⟩), (1, ⟨2, 2⟩)]
  chain := ⟨rfl, some 1, rfl, rfl, none, rfl, rfl⟩

/-- The removal of the second transaction releases the first one. -/
theorem not_deletesFirst :
    ¬ ∀ (t : Transactions) (unset : Option ℕ) (id : UInt32), t.DeletesFirst unset id := by
  intro claim
  obtain ⟨after, deleted, removes⟩ := claim twoTransactions none 2
  obtain rfl := Except.ok.inj deleted
  have released := (removes.released 0).mp rfl
  revert released
  simp [twoTransactions, Transactions.first]

end RateEngine.Jsonrpc
