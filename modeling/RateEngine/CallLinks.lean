import RateEngine.CallObjects

/-!
# Pointers between call objects

Which objects a request allocates and where they point.  A step of a handler moves one pointer at
most, that of the call a termination attaches its record to; the rest of this file is what holds of
the pointers in every reachable state, whatever the threads do.
-/

namespace RateEngine

open Slots

/-! ## Pointers and calls -/

namespace CcMem

/-- The events, the pointers and the `call_uid`s of the objects. -/
@[ext]
structure Links where
  kind : ℕ → Option CcEvents
  maxPtr : ℕ → Option ℕ
  termPtr : ℕ → Option ℕ
  maxUid : ℕ → Option String
  termUid : ℕ → Option String

/-- The record of seconds of the `cc_t` and the termination have the same `call_uid`. -/
def Links.SameUid (links : Links) (p t : ℕ) : Prop :=
  ∃ m uid, links.maxPtr p = some m ∧ links.maxUid m = some uid ∧ links.termUid t = some uid

/-- A `cc_t` gets the pointer to a termination. -/
def Links.attach (links : Links) (p t : ℕ) : Links :=
  { links with termPtr := Function.update links.termPtr p (some t) }

theorem Links.attach_eq_self {links : Links} {p t : ℕ} (attached : links.termPtr p = some t) :
    links.attach p t = links := by
  rw [attach, ← attached, Function.update_eq_self]

def links (mem : CcMem) : Links where
  kind p := (mem.cc.get? p).map Cc.t
  maxPtr := mem.maxPtr
  termPtr := mem.termPtr
  maxUid m := (mem.max.get? m).map fun max => max.callUid
  termUid t := (mem.term.get? t).map fun term => term.callUid

section Links

variable (mem : CcMem) (p m t : ℕ)

@[simp] theorem links_useCc : (mem.useCc p).links = mem.links := rfl

@[simp] theorem links_useMax (ms : List ℕ) : (mem.useMax ms).links = mem.links := rfl

@[simp] theorem links_useTerm (ts : List ℕ) : (mem.useTerm ts).links = mem.links := rfl

@[simp] theorem links_look (ps : List ℕ) : (mem.look ps).links = mem.links := rfl

@[simp] theorem links_setStatus (ccStatus : CcStatus) :
    (mem.setStatus p ccStatus).links = mem.links := by
  ext q : 2 <;> simp only [links, setStatus, maxPtr, termPtr, ObjectHeap.get?_write]
  all_goals split
  all_goals first | rfl | (cases mem.cc.get? q <;> rfl)

@[simp] theorem links_setMaxsec (maxsec : ℤ) : (mem.setMaxsec m maxsec).links = mem.links := by
  ext q : 2 <;> simp only [links, setMaxsec, maxPtr, termPtr, ObjectHeap.get?_write]
  split
  · cases mem.max.get? q <;> rfl
  · rfl

@[simp] theorem links_setTblIdx (tblIdx : ℤ) : (mem.setTblIdx t tblIdx).links = mem.links := by
  ext q : 2 <;> simp only [links, setTblIdx, maxPtr, termPtr, ObjectHeap.get?_write]
  split
  · cases mem.term.get? q <;> rfl
  · rfl

@[simp] theorem links_freeCc : (mem.freeCc p).links = mem.links := by
  ext q : 2 <;> simp [links, freeCc, maxPtr, termPtr]

@[simp] theorem links_ccFree : (mem.ccFree p).links = mem.links := by
  ext q : 2 <;> simp only [links, ccFree, maxPtr, termPtr, ObjectHeap.get?_free,
    ObjectHeap.get?_use]
  · cases (mem.cc.get? p).bind Cc.max <;> simp
  · cases (mem.cc.get? p).bind Cc.term <;> simp

@[simp] theorem links_reply (proto : CcProto) (h : CcHandler) (cc : Cc) :
    (h.reply proto mem cc).links = mem.links := by
  unfold CcHandler.reply
  cases cc.t <;> dsimp only <;> split <;> simp

/-- Attaching a record changes one pointer. -/
theorem links_setTerm {p t : ℕ} {cc : Cc} (found : mem.cc.get? p = some cc) :
    (mem.setTerm p t).links = mem.links.attach p t := by
  ext q : 2 <;> simp only [links, Links.attach, setTerm, maxPtr, termPtr, ObjectHeap.get?_write]
  · split
    · cases mem.cc.get? q <;> rfl
    · rfl
  · split
    · cases mem.cc.get? q <;> rfl
    · rfl
  · by_cases same : p = q
    · subst same
      simp [found]
    · rw [if_neg same, Function.update_of_ne (Ne.symm same)]
      rfl

/-- A request brings its own `cc_t` and its own record. -/
theorem links_receive (r : CcRequest) :
    (mem.receive r).links =
      { kind := Function.update mem.links.kind mem.cc.next (some r.t)
        maxPtr := Function.update mem.links.maxPtr mem.cc.next (r.max.map fun _ => mem.max.next)
        termPtr := Function.update mem.links.termPtr mem.cc.next (r.term.map fun _ => mem.term.next)
        maxUid := r.max.elim mem.links.maxUid fun max =>
          Function.update mem.links.maxUid mem.max.next (some max.callUid)
        termUid := r.term.elim mem.links.termUid fun term =>
          Function.update mem.links.termUid mem.term.next (some term.callUid) } := by
  ext q : 2
  · simp only [links, receive, ObjectHeap.get?_alloc, Function.update_apply]
    split <;> rfl
  · simp only [links, receive, maxPtr, ObjectHeap.get?_alloc, Function.update_apply]
    split <;> rfl
  · simp only [links, receive, termPtr, ObjectHeap.get?_alloc, Function.update_apply]
    split <;> rfl
  · simp only [links, receive]
    cases r.max with
    | none => rfl
    | some max =>
        simp only [Option.elim_some, ObjectHeap.get?_alloc, Function.update_apply]
        split <;> rfl
  · simp only [links, receive]
    cases r.term with
    | none => rfl
    | some term =>
        simp only [Option.elim_some, ObjectHeap.get?_alloc, Function.update_apply]
        split <;> rfl

end Links

theorem kind_eq_none {mem : CcMem} {p : ℕ} (absent : mem.cc.next ≤ p) :
    mem.links.kind p = none := by
  simp only [links, mem.cc.get?_eq_none p absent, Option.map_none]

theorem next_ccFree (mem : CcMem) (p : ℕ) :
    (mem.ccFree p).cc.next = mem.cc.next ∧ (mem.ccFree p).max.next = mem.max.next ∧
      (mem.ccFree p).term.next = mem.term.next := by
  simp only [ccFree]
  cases mem.maxPtr p <;> cases mem.termPtr p <;> simp

section Found

variable {mem : CcMem} {p : ℕ} {cc : Cc} (found : mem.cc.get? p = some cc)
include found

theorem kind_of_get? : mem.links.kind p = some cc.t := by
  simp only [links, found, Option.map_some]

theorem maxPtr_of_get? : mem.links.maxPtr p = cc.max := by
  simp only [links, maxPtr, found, Option.bind_some]

theorem termPtr_of_get? : mem.links.termPtr p = cc.term := by
  simp only [links, termPtr, found, Option.bind_some]

end Found

/-! ## Requests and their records -/

/-- A `maxsec` request has its own record of seconds and no other request has one, a `term` request
has its own termination, and every pointer points to an object. -/
structure WellLinked (mem : CcMem) : Prop where
  max_iff : ∀ p, (mem.links.maxPtr p).isSome ↔ mem.links.kind p = some .maxsec
  term_isSome : ∀ p, mem.links.kind p = some .term → (mem.links.termPtr p).isSome
  max_lt : ∀ p m, mem.links.maxPtr p = some m → m < mem.max.next
  term_lt : ∀ p t, mem.links.termPtr p = some t → t < mem.term.next
  max_inj : ∀ p q m, mem.links.maxPtr p = some m → mem.links.maxPtr q = some m → p = q
  term_inj : ∀ p q t, mem.links.kind p = some .term → mem.links.kind q = some .term →
    mem.links.termPtr p = some t → mem.links.termPtr q = some t → p = q

namespace WellLinked

variable {mem mem' : CcMem}

theorem of_links_eq (linked : mem.WellLinked) (links_eq : mem'.links = mem.links)
    (max_next : mem'.max.next = mem.max.next) (term_next : mem'.term.next = mem.term.next) :
    mem'.WellLinked where
  max_iff := links_eq ▸ linked.max_iff
  term_isSome := links_eq ▸ linked.term_isSome
  max_lt := by rw [links_eq, max_next]; exact linked.max_lt
  term_lt := by rw [links_eq, term_next]; exact linked.term_lt
  max_inj := links_eq ▸ linked.max_inj
  term_inj := links_eq ▸ linked.term_inj

/-- Attaching a record to a call leaves the records of the requests alone. -/
theorem setTerm (linked : mem.WellLinked) {p t : ℕ} {cc : Cc} (found : mem.cc.get? p = some cc)
    (kind : cc.t = .maxsec) (allocated : t < mem.term.next) : (mem.setTerm p t).WellLinked := by
  have links_eq := mem.links_setTerm (t := t) found
  have kind_eq : mem.links.kind p = some .maxsec := by rw [kind_of_get? found, kind]
  have other {q : ℕ} (termination : mem.links.kind q = some .term) : q ≠ p := by
    rintro rfl
    rw [kind_eq] at termination
    cases termination
  constructor <;> rw [links_eq] <;> dsimp only [Links.attach]
  · exact linked.max_iff
  · intro q termination
    rw [Function.update_of_ne (other termination)]
    exact linked.term_isSome q termination
  · exact linked.max_lt
  · intro q t' points
    rw [Function.update_apply] at points
    split at points
    · rwa [← Option.some.inj points]
    · exact linked.term_lt q t' points
  · exact linked.max_inj
  · intro q q' t' termination termination' points points'
    rw [Function.update_of_ne (other termination)] at points
    rw [Function.update_of_ne (other termination')] at points'
    exact linked.term_inj q q' t' termination termination' points points'

/-- A new request gets records of its own. -/
theorem receive (linked : mem.WellLinked) (r : CcRequest) : (mem.receive r).WellLinked := by
  have max_next : (mem.receive r).max.next = mem.max.next + if r.max.isSome then 1 else 0 := by
    rw [CcMem.receive]
    cases r.max <;> simp
  have term_next : (mem.receive r).term.next = mem.term.next + if r.term.isSome then 1 else 0 := by
    rw [CcMem.receive]
    cases r.term <;> simp
  have max_new {q m : ℕ} (points : Function.update mem.links.maxPtr mem.cc.next
      (r.max.map fun _ => mem.max.next) q = some m) :
      q = mem.cc.next ∧ r.max.isSome ∧ m = mem.max.next ∨ mem.links.maxPtr q = some m := by
    rw [Function.update_apply] at points
    split at points
    · obtain ⟨max, max_eq, rfl⟩ := Option.map_eq_some_iff.mp points
      exact .inl ⟨‹_›, by rw [max_eq]; rfl, rfl⟩
    · exact .inr points
  have term_new {q t : ℕ} (points : Function.update mem.links.termPtr mem.cc.next
      (r.term.map fun _ => mem.term.next) q = some t) :
      q = mem.cc.next ∧ r.term.isSome ∧ t = mem.term.next ∨
        q ≠ mem.cc.next ∧ mem.links.termPtr q = some t := by
    rw [Function.update_apply] at points
    split at points
    · obtain ⟨term, term_eq, rfl⟩ := Option.map_eq_some_iff.mp points
      exact .inl ⟨‹_›, by rw [term_eq]; rfl, rfl⟩
    · exact .inr ⟨‹_›, points⟩
  constructor <;> rw [links_receive] <;> dsimp only
  · intro q
    rw [Function.update_apply, Function.update_apply]
    split
    · simp [r.max_iff]
    · exact linked.max_iff q
  · intro q termination
    rw [Function.update_apply] at termination ⊢
    split at termination
    · simp only [Option.some.injEq] at termination
      simp [r.term_iff, *]
    · rw [if_neg ‹_›]
      exact linked.term_isSome q termination
  · intro q m points
    rw [max_next]
    rcases max_new points with ⟨-, some_max, rfl⟩ | old
    · rw [if_pos some_max]
      exact Nat.lt_succ_self _
    · exact (linked.max_lt q m old).trans_le (Nat.le_add_right _ _)
  · intro q t points
    rw [term_next]
    rcases term_new points with ⟨-, some_term, rfl⟩ | ⟨-, old⟩
    · rw [if_pos some_term]
      exact Nat.lt_succ_self _
    · exact (linked.term_lt q t old).trans_le (Nat.le_add_right _ _)
  · intro q q' m points points'
    rcases max_new points with ⟨rfl, -, rfl⟩ | old <;> rcases max_new points' with
      ⟨rfl, -, m_eq⟩ | old'
    · rfl
    · exact absurd (linked.max_lt q' _ old') (lt_irrefl _)
    · subst m_eq
      exact absurd (linked.max_lt q _ old) (lt_irrefl _)
    · exact linked.max_inj q q' m old old'
  · intro q q' t termination termination' points points'
    rcases term_new points with ⟨rfl, -, rfl⟩ | ⟨q_ne, old⟩ <;>
      rcases term_new points' with ⟨rfl, -, t_eq⟩ | ⟨q'_ne, old'⟩
    · rfl
    · exact absurd (linked.term_lt q' _ old') (lt_irrefl _)
    · subst t_eq
      exact absurd (linked.term_lt q _ old) (lt_irrefl _)
    · rw [Function.update_of_ne q_ne] at termination
      rw [Function.update_of_ne q'_ne] at termination'
      exact linked.term_inj q q' t termination termination' old old'

end WellLinked

end CcMem

/-! ## What a step of a handler moves -/

namespace CcHandler

variable {proto : CcProto} {connected : Bool} {s s' : CcShared} {h : CcHandler} {cc : Cc}
  {handler : Option CcHandler}

/-- The handler is in `cc_maxsec_f`. -/
def InMaxsec (h : CcHandler) : Prop := (∃ sim, h.pc = .counted sim) ∨ ∃ rtp, h.pc = .admitted rtp

/-- The handler is in `cc_term_f`, with the slot that the search found. -/
def InTerm (h : CcHandler) (i : ℕ) : Prop := h.pc = .found i ∨ h.pc = .attached i

namespace Move

/-- A handler allocates nothing. -/
theorem next_eq (move : h.Move proto connected s cc s' handler) :
    s'.mem.cc.next = s.mem.cc.next ∧ s'.mem.max.next = s.mem.max.next ∧
      s'.mem.term.next = s.mem.term.next := by
  cases move with
  | acked pc =>
      simp only [reply]
      cases cc.t <;> dsimp only <;> split <;>
        simp [CcMem.useCc, CcMem.useMax, CcMem.useTerm, CcMem.setStatus]
  | closed pc status => exact CcMem.next_ccFree (s.mem.useCc h.cc) h.cc
  | _ =>
      simp [CcMem.useCc, CcMem.setMaxsec, CcMem.useMax, CcMem.look, CcMem.setStatus, read,
        CcMem.useTerm, CcMem.setTerm, CcMem.setTblIdx, CcMem.freeCc]

/-- A handler changes the table only when it takes a free slot for its granted call. -/
theorem seat_cases (move : h.Move proto connected s cc s' handler) :
    s'.tbl = s.tbl ∨ ∃ i rtp, h.pc = .admitted rtp ∧ s.tbl[i]? = some none ∧
      s'.tbl = s.tbl.set i (some (h.cc, rtp)) := by
  cases move with
  | @seated rtp tbl pc taken =>
      obtain ⟨i, free, tbl_eq⟩ := occupy_eq_set taken
      exact .inr ⟨i, rtp, pc, free, tbl_eq⟩
  | _ => exact .inl rfl

theorem tbl_cases (move : h.Move proto connected s cc s' handler) :
    s'.tbl = s.tbl ∨ h.InMaxsec ∧ ∃ i rtp, s.tbl[i]? = some none ∧
      s'.tbl = s.tbl.set i (some (h.cc, rtp)) := by
  rcases move.seat_cases with same | ⟨i, rtp, pc, free, tbl_eq⟩
  · exact .inl same
  · exact .inr ⟨.inr ⟨rtp, pc⟩, i, rtp, free, tbl_eq⟩

/-- A handler moves no pointer, or attaches its termination to the call of a slot: the one that the
search finds, or the one that it finds there the second time. -/
theorem links_cases (seated : ∀ i p, s.At i p → s.mem.links.kind p = some .maxsec)
    (move : h.Move proto connected s cc s' handler) :
    s'.mem.links = s.mem.links ∧ (∀ h' i, handler = some h' → h'.pc ≠ .found i) ∨
      ∃ i call t, cc.term = some t ∧ s.At i call ∧ s'.tbl = s.tbl ∧
        s'.mem.links = s.mem.links.attach call t ∧
        (cc.t = .term ∧ s.mem.links.SameUid call t ∧
            handler = some { h with pc := .found i, hold := .handed call } ∨
          h.pc = .found i ∧ handler = some { h with pc := .attached i }) := by
  cases move with
  | @found t i call term rtp pc kind term_eq record search slot same =>
      obtain ⟨max, max_eq, uid_eq⟩ : ∃ max, s.mem.maxAt call = some max ∧
          max.callUid = term.callUid := by
        simpa [CcShared.hasUid, Option.any_eq_true] using same
      obtain ⟨m, ptr_eq, get_eq⟩ := Option.bind_eq_some_iff.mp max_eq
      obtain ⟨called, called_eq, -⟩ := Option.bind_eq_some_iff.mp ptr_eq
      refine .inr ⟨i, call, t, term_eq, ⟨rtp, slot⟩, rfl, ?_, .inl ⟨kind, ?_, rfl⟩⟩
      · exact CcMem.links_setTerm _ called_eq
      · refine ⟨m, max.callUid, ptr_eq, ?_, ?_⟩
        · simp only [CcMem.links, get_eq, Option.map_some]
        · simp only [CcMem.links, record, Option.map_some, uid_eq]
  | @attached i call t rtp pc slot term_eq =>
      have call_kind := seated i call ⟨rtp, slot⟩
      obtain ⟨called, called_eq, -⟩ := Option.map_eq_some_iff.mp call_kind
      refine .inr ⟨i, call, t, term_eq, ⟨rtp, slot⟩, rfl, ?_, .inr ⟨pc, rfl⟩⟩
      exact CcMem.links_setTerm _ called_eq
  | _ => exact .inl ⟨by simp [read], by rintro h' i ⟨⟩ <;> simp⟩

/-- The events, the records of seconds and the `call_uid`s stay. -/
theorem links_kept (seated : ∀ i p, s.At i p → s.mem.links.kind p = some .maxsec)
    (move : h.Move proto connected s cc s' handler) :
    s'.mem.links.kind = s.mem.links.kind ∧ s'.mem.links.maxPtr = s.mem.links.maxPtr ∧
      s'.mem.links.maxUid = s.mem.links.maxUid ∧ s'.mem.links.termUid = s.mem.links.termUid := by
  rcases move.links_cases seated with ⟨same, -⟩ | ⟨i, call, t, -, -, -, attached, -⟩
  · rw [same]
    exact ⟨rfl, rfl, rfl, rfl⟩
  · rw [attached]
    exact ⟨rfl, rfl, rfl, rfl⟩

/-- The handler stays with its request and goes through the event manager in order. -/
theorem handler_cases (move : h.Move proto connected s cc s' handler) {h' : CcHandler}
    (goes : handler = some h') :
    h'.cc = h.cc ∧ (h'.InMaxsec → h.InMaxsec ∨ cc.t = .maxsec) ∧
      ∀ i, h'.InTerm i → h.InTerm i ∧ h'.hold = h.hold ∨ cc.t = .term ∧
        ∃ call, h'.hold = .handed call := by
  cases move <;> cases goes <;> refine ⟨rfl, ?_, ?_⟩ <;> simp_all [InMaxsec, InTerm]

end Move

end CcHandler

/-! ## Every reachable state -/

namespace CcProcess

/-- The slots hold granted requests, and a handler in the event manager has a request of its
event. -/
structure Linked (s : CcProcess) : Prop where
  mem : s.shared.mem.WellLinked
  seated : ∀ i p, s.shared.At i p → s.shared.mem.links.kind p = some .maxsec
  inMaxsec : ∀ thread ∈ s.threads, ∀ h, thread.handler = some h → h.InMaxsec →
    s.shared.mem.links.kind h.cc = some .maxsec
  inTerm : ∀ thread ∈ s.threads, ∀ h i, thread.handler = some h → h.InTerm i →
    s.shared.mem.links.kind h.cc = some .term ∧ ∃ call, h.hold = .handed call

theorem linked_start (slots : ℕ) (threads : List (CcProto × Bool)) :
    (start slots threads).Linked := by
  have idle {thread : CcThread} (member : thread ∈ (start slots threads).threads) :
      thread.handler = none := by
    obtain ⟨pair, -, rfl⟩ := List.mem_map.mp member
    rfl
  have empty (p : ℕ) : (start slots threads).shared.mem.links.kind p = none := rfl
  constructor
  · constructor <;> intro p <;> simp [start, CcMem.links, CcMem.maxPtr, CcMem.termPtr,
      ObjectHeap.get?]
  · rintro i p ⟨rtp, slot⟩
    simp [start, List.getElem?_replicate] at slot
  · intro thread member h busy
    rw [idle member] at busy
    cases busy
  · intro thread member h i busy
    rw [idle member] at busy
    cases busy

/-- A request that arrives leaves the objects of the others as they are. -/
theorem kind_receive {mem : CcMem} {p : ℕ} {kind : CcEvents} (r : CcRequest)
    (old : mem.links.kind p = some kind) : (mem.receive r).links.kind p = some kind := by
  have old_ne : p ≠ mem.cc.next := by
    rintro rfl
    rw [CcMem.kind_eq_none le_rfl] at old
    cases old
  rw [CcMem.links_receive]
  exact (Function.update_of_ne old_ne _ _).trans old

theorem receive_links (s : CcProcess) (w : ℕ) (thread : CcThread) (parse : CcParse) :
    (s.receive w thread parse).shared.mem.links = (s.shared.mem.receive parse.objects).links ∧
      (s.receive w thread parse).shared.tbl = s.shared.tbl ∧
        (s.receive w thread parse).shared.mem.max = (s.shared.mem.receive parse.objects).max ∧
          (s.receive w thread parse).shared.mem.term =
            (s.shared.mem.receive parse.objects).term := by
  cases parse <;> exact ⟨by simp [receive], rfl, rfl, rfl⟩

/-- Only an idle thread gets the request, and it stands before the event manager. -/
theorem mem_threads_receive {s : CcProcess} {w : ℕ} {thread thread' : CcThread} {parse : CcParse}
    (member : thread' ∈ (s.receive w thread parse).threads) :
    thread' ∈ s.threads ∨
      thread' = { thread with handler := some { cc := s.shared.mem.cc.next } } := by
  cases parse with
  | request r => exact List.mem_or_eq_of_mem_set member
  | freed r => exact .inl member
  | abandoned r => exact .inl member

theorem linked_receive {s : CcProcess} (linked : s.Linked) (w : ℕ) (thread : CcThread)
    (parse : CcParse) : (s.receive w thread parse).Linked := by
  obtain ⟨links_eq, tbl_eq, max_eq, term_eq⟩ := s.receive_links w thread parse
  have kept {p : ℕ} {kind : CcEvents} (old : s.shared.mem.links.kind p = some kind) :
      (s.receive w thread parse).shared.mem.links.kind p = some kind := by
    rw [links_eq]
    exact kind_receive _ old
  constructor
  · exact (linked.mem.receive parse.objects).of_links_eq links_eq (by rw [max_eq]) (by rw [term_eq])
  · rintro i p ⟨rtp, slot⟩
    rw [tbl_eq] at slot
    exact kept (linked.seated i p ⟨rtp, slot⟩)
  · intro thread' member h busy calling
    rcases mem_threads_receive member with old | rfl
    · exact kept (linked.inMaxsec thread' old h busy calling)
    · cases busy
      simp [CcHandler.InMaxsec] at calling
  · intro thread' member h i busy ending
    rcases mem_threads_receive member with old | rfl
    · obtain ⟨kind, handed⟩ := linked.inTerm thread' old h i busy ending
      exact ⟨kept kind, handed⟩
    · cases busy
      simp [CcHandler.InTerm] at ending

theorem linked_advanced {s : CcProcess} (linked : s.Linked) {w : ℕ} {thread : CcThread}
    {h : CcHandler} {cc : Cc} {shared : CcShared} {handler : Option CcHandler}
    (found : s.threads[w]? = some thread) (busy : thread.handler = some h)
    (cc_eq : s.shared.mem.cc.get? h.cc = some cc)
    (move : h.Move thread.proto thread.connected s.shared cc shared handler) :
    Linked { s with shared, threads := s.threads.set w { thread with handler } } := by
  have member : thread ∈ s.threads := List.mem_of_getElem? found
  obtain ⟨kind_eq, -, -, -⟩ := move.links_kept linked.seated
  obtain ⟨-, max_next, term_next⟩ := move.next_eq
  constructor
  · rcases move.links_cases linked.seated with ⟨same, -⟩ | ⟨i, call, t, term_eq,
      at_call, -, attached, -⟩
    · exact linked.mem.of_links_eq same max_next term_next
    · obtain ⟨called, called_eq, kind⟩ := Option.map_eq_some_iff.mp (linked.seated i call at_call)
      have allocated : t < s.shared.mem.term.next :=
        linked.mem.term_lt h.cc t (by rw [CcMem.termPtr_of_get? cc_eq, term_eq])
      refine (linked.mem.setTerm called_eq kind allocated).of_links_eq ?_ max_next term_next
      rw [CcMem.links_setTerm _ called_eq]
      exact attached
  · rintro i p ⟨rtp, slot⟩
    dsimp only at slot ⊢
    rw [kind_eq]
    rcases move.tbl_cases with same | ⟨calling, j, rtp', -, taken⟩
    · rw [same] at slot
      exact linked.seated i p ⟨rtp, slot⟩
    · rw [taken, List.getElem?_set] at slot
      split at slot
      · split at slot
        · obtain ⟨rfl, -⟩ : h.cc = p ∧ rtp' = rtp := by simpa using slot
          exact linked.inMaxsec thread member h busy calling
        · cases slot
      · exact linked.seated i p ⟨rtp, slot⟩
  · intro thread' member' h' busy' calling
    dsimp only
    rw [kind_eq]
    rcases List.mem_or_eq_of_mem_set member' with old | rfl
    · exact linked.inMaxsec thread' old h' busy' calling
    · obtain ⟨cc_same, maxsec, -⟩ := move.handler_cases busy'
      rw [cc_same]
      rcases maxsec calling with before | kind
      · exact linked.inMaxsec thread member h busy before
      · rw [CcMem.kind_of_get? cc_eq, kind]
  · intro thread' member' h' i busy' ending
    dsimp only
    rw [kind_eq]
    rcases List.mem_or_eq_of_mem_set member' with old | rfl
    · exact linked.inTerm thread' old h' i busy' ending
    · obtain ⟨cc_same, -, term⟩ := move.handler_cases busy'
      rw [cc_same]
      rcases term i ending with ⟨before, hold_eq⟩ | ⟨kind, handed⟩
      · rw [hold_eq]
        exact linked.inTerm thread member h i busy before
      · exact ⟨by rw [CcMem.kind_of_get? cc_eq, kind], handed⟩

/-- The janitor moves no pointer. -/
theorem judge_links (s : CcProcess) (i p callMaxsecLimit : ℕ) (now : ℤ) :
    (s.judge i p callMaxsecLimit now).shared.mem.links = s.shared.mem.links ∧
      (s.judge i p callMaxsecLimit now).shared.tbl = s.shared.tbl ∧
        (s.judge i p callMaxsecLimit now).threads = s.threads := by
  simp only [judge]
  split <;> exact ⟨rfl, rfl, rfl⟩

/-- What the janitor leaves of the links: the same pointers, and no slot that was not there. -/
theorem Linked.of_links_eq {s s' : CcProcess} (linked : s.Linked)
    (links_eq : s'.shared.mem.links = s.shared.mem.links)
    (max_next : s'.shared.mem.max.next = s.shared.mem.max.next)
    (term_next : s'.shared.mem.term.next = s.shared.mem.term.next)
    (slots : ∀ i p, s'.shared.At i p → s.shared.At i p) (threads_eq : s'.threads = s.threads) :
    s'.Linked where
  mem := linked.mem.of_links_eq links_eq max_next term_next
  seated i p slot := by
    rw [links_eq]
    exact linked.seated i p (slots i p slot)
  inMaxsec := by
    rw [links_eq, threads_eq]
    exact linked.inMaxsec
  inTerm := by
    rw [links_eq, threads_eq]
    exact linked.inTerm

theorem at_of_clear {s : CcProcess} {i p j q : ℕ} (at_slot : (s.clear i p).shared.At j q) :
    s.shared.At j q := by
  obtain ⟨rtp, slot⟩ := at_slot
  rw [clear, List.getElem?_set] at slot
  split at slot
  · split at slot <;> cases slot
  · exact ⟨rtp, slot⟩

theorem linked_step {s s' : CcProcess} {action : CcAction} (steps : s.step action = some s')
    (linked : s.Linked) : s'.Linked := by
  cases moves_of_step steps with
  | received input => exact linked_receive linked _ _ _
  | advanced found busy cc_eq move => exact linked_advanced linked found busy cc_eq move
  | @judged i p callMaxsecLimit now rtp slot =>
      obtain ⟨links_eq, tbl_eq, threads_eq⟩ := s.judge_links i p callMaxsecLimit now
      refine linked.of_links_eq links_eq ?_ ?_ (fun j q => ?_) threads_eq
      · simp only [judge]
        split <;> rfl
      · simp only [judge]
        split <;> rfl
      · rw [CcShared.At, tbl_eq]
        exact id
  | passed => exact linked
  | @cleared i p rtp janitor slot =>
      refine linked.of_links_eq ?_ ?_ ?_ (fun j q at_slot => ?_) rfl
      · simp [clear]
      · exact (CcMem.next_ccFree _ p).2.1
      · exact (CcMem.next_ccFree _ p).2.2
      · exact at_of_clear at_slot

end CcProcess

end RateEngine
