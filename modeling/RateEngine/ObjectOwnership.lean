import RateEngine.CallLinks
import RateEngine.Lib.GuardedRun

/-!
# Who frees a call object

The handler frees what the table has not taken over, the janitor the rest.  Whether the table has
taken an object over is read off the seconds and the table index of the request, while the janitor
may already be clearing the slot.  This file states when every object is freed once and no freed
object is used.
-/

namespace RateEngine

open Slots

/-! ## Books of the three heaps -/

namespace CcMem

/-- Every object is freed or owned, once in all. -/
structure Books (mem : CcMem) (cc max term : ℕ → ℤ) : Prop where
  cc : mem.cc.Conserved cc
  max : mem.max.Conserved max
  term : mem.term.Conserved term

/-- No freed object was used. -/
structure Faultless (mem : CcMem) : Prop where
  cc : mem.cc.faults = 0
  max : mem.max.faults = 0
  term : mem.term.faults = 0

namespace Books

variable {mem : CcMem} {cc max term : ℕ → ℤ} (books : mem.Books cc max term)
include books

theorem useCc (p : ℕ) : (mem.useCc p).Books cc max term :=
  ⟨books.cc.use [p], books.max, books.term⟩

theorem useMax (ms : List ℕ) : (mem.useMax ms).Books cc max term :=
  ⟨books.cc, books.max.use ms, books.term⟩

theorem useTerm (ts : List ℕ) : (mem.useTerm ts).Books cc max term :=
  ⟨books.cc, books.max, books.term.use ts⟩

theorem look (ps : List ℕ) : (mem.look ps).Books cc max term :=
  ⟨books.cc.use ps, books.max.use _, books.term⟩

theorem setStatus (p : ℕ) (ccStatus : CcStatus) : (mem.setStatus p ccStatus).Books cc max term :=
  ⟨books.cc.write p _, books.max, books.term⟩

theorem setTerm (p t : ℕ) : (mem.setTerm p t).Books cc max term :=
  ⟨books.cc.write p _, books.max, books.term⟩

theorem setMaxsec (m : ℕ) (maxsec : ℤ) : (mem.setMaxsec m maxsec).Books cc max term :=
  ⟨books.cc, books.max.write m _, books.term⟩

theorem setTblIdx (t : ℕ) (tblIdx : ℤ) : (mem.setTblIdx t tblIdx).Books cc max term :=
  ⟨books.cc, books.max, books.term.write t _⟩

theorem freeCc {p : ℕ} (allocated : p < mem.cc.next) :
    (mem.freeCc p).Books (cc - unit (some p)) max term :=
  ⟨books.cc.free allocated, books.max, books.term⟩

theorem reply (proto : CcProto) (h : CcHandler) (record : Cc) :
    (h.reply proto mem record).Books cc max term := by
  have ends {read : CcMem} (ack : Bool) (books : read.Books cc max term) :
      (if ack then read.setStatus h.cc .deactive else read).Books cc max term := by
    split
    · exact books.setStatus _ _
    · exact books
  unfold CcHandler.reply
  cases record.t with
  | maxsec => exact ends _ (books.useMax _)
  | term => exact ends _ (books.useTerm _)
  | _ => exact ends _ books

/-- `cc_free` frees the `cc_t` and the records it points to. -/
theorem ccFree (linked : mem.WellLinked) {p : ℕ} (allocated : p < mem.cc.next) :
    (mem.ccFree p).Books (cc - unit (some p)) (max - unit (mem.links.maxPtr p))
      (term - unit (mem.links.termPtr p)) where
  cc := (books.cc.use [p]).free allocated
  max := by
    simp only [CcMem.ccFree, links]
    cases points : mem.maxPtr p with
    | none => simpa using books.max
    | some m => exact (books.max.use [m]).free (linked.max_lt p m points)
  term := by
    simp only [CcMem.ccFree, links]
    cases points : mem.termPtr p with
    | none => simpa using books.term
    | some t => exact (books.term.use [t]).free (linked.term_lt p t points)

/-- The objects of a new request get an owner. -/
theorem receive (r : CcRequest) :
    (mem.receive r).Books (cc + unit (some mem.cc.next))
      (max + unit (r.max.map fun _ => mem.max.next))
      (term + unit (r.term.map fun _ => mem.term.next)) where
  cc := books.cc.alloc _
  max := by
    rw [CcMem.receive]
    cases r.max with
    | none => simpa using books.max
    | some record => exact books.max.alloc _
  term := by
    rw [CcMem.receive]
    cases r.term with
    | none => simpa using books.term
    | some record => exact books.term.alloc _

end Books

namespace Faultless

variable {mem : CcMem} (faultless : mem.Faultless)
include faultless

theorem useCc {p : ℕ} (unfreed : mem.cc.frees p = 0) : (mem.useCc p).Faultless :=
  ⟨(ObjectHeap.faults_use (by simpa using unfreed)).trans faultless.cc, faultless.max,
    faultless.term⟩

theorem useMax {ms : List ℕ} (unfreed : ∀ m ∈ ms, mem.max.frees m = 0) :
    (mem.useMax ms).Faultless :=
  ⟨faultless.cc, (ObjectHeap.faults_use unfreed).trans faultless.max, faultless.term⟩

theorem useTerm {ts : List ℕ} (unfreed : ∀ t ∈ ts, mem.term.frees t = 0) :
    (mem.useTerm ts).Faultless :=
  ⟨faultless.cc, faultless.max, (ObjectHeap.faults_use unfreed).trans faultless.term⟩

theorem useMax_one {m : ℕ} (unfreed : mem.max.frees m = 0) : (mem.useMax [m]).Faultless :=
  faultless.useMax (by simpa using unfreed)

theorem useTerm_one {t : ℕ} (unfreed : mem.term.frees t = 0) : (mem.useTerm [t]).Faultless :=
  faultless.useTerm (by simpa using unfreed)

theorem look {ps : List ℕ} (unfreed : ∀ p ∈ ps, mem.cc.frees p = 0)
    (unfreed_max : ∀ p ∈ ps, ∀ m, mem.maxPtr p = some m → mem.max.frees m = 0) :
    (mem.look ps).Faultless := by
  refine ⟨(ObjectHeap.faults_use unfreed).trans faultless.cc,
    (ObjectHeap.faults_use fun m member => ?_).trans faultless.max, faultless.term⟩
  obtain ⟨p, p_member, points⟩ := List.mem_filterMap.mp member
  exact unfreed_max p p_member m points

theorem setStatus {p : ℕ} (ccStatus : CcStatus) (unfreed : mem.cc.frees p = 0) :
    (mem.setStatus p ccStatus).Faultless :=
  ⟨(faultless.useCc unfreed).cc, faultless.max, faultless.term⟩

theorem setTerm {p : ℕ} (t : ℕ) (unfreed : mem.cc.frees p = 0) : (mem.setTerm p t).Faultless :=
  ⟨(faultless.useCc unfreed).cc, faultless.max, faultless.term⟩

theorem setMaxsec {m : ℕ} (maxsec : ℤ) (unfreed : mem.max.frees m = 0) :
    (mem.setMaxsec m maxsec).Faultless :=
  ⟨faultless.cc, (faultless.useMax_one unfreed).max, faultless.term⟩

theorem setTblIdx {t : ℕ} (tblIdx : ℤ) (unfreed : mem.term.frees t = 0) :
    (mem.setTblIdx t tblIdx).Faultless :=
  ⟨faultless.cc, faultless.max, (faultless.useTerm_one unfreed).term⟩

theorem ccFree {p : ℕ} (unfreed : mem.cc.frees p = 0)
    (unfreed_max : ∀ m, mem.links.maxPtr p = some m → mem.max.frees m = 0)
    (unfreed_term : ∀ t, mem.links.termPtr p = some t → mem.term.frees t = 0) :
    (mem.ccFree p).Faultless := by
  refine ⟨(faultless.useCc unfreed).cc, ?_, ?_⟩
  · simp only [CcMem.ccFree]
    cases points : mem.maxPtr p with
    | none => exact faultless.max
    | some m => exact (faultless.useMax_one (unfreed_max m points)).max
  · simp only [CcMem.ccFree]
    cases points : mem.termPtr p with
    | none => exact faultless.term
    | some t => exact (faultless.useTerm_one (unfreed_term t points)).term

theorem reply {proto : CcProto} {h : CcHandler} {record : Cc} (unfreed : mem.cc.frees h.cc = 0)
    (unfreed_max : ∀ m, record.max = some m → mem.max.frees m = 0)
    (unfreed_term : ∀ t, record.t = .term → record.term = some t → mem.term.frees t = 0) :
    (h.reply proto mem record).Faultless := by
  have ends {read : CcMem} (ack : Bool) (faultless : read.Faultless)
      (unfreed : read.cc.frees h.cc = 0) :
      (if ack then read.setStatus h.cc .deactive else read).Faultless := by
    split
    · exact faultless.setStatus _ unfreed
    · exact faultless
  unfold CcHandler.reply
  cases kind : record.t with
  | maxsec => exact ends _ (faultless.useMax (by simpa using unfreed_max)) unfreed
  | term => exact ends _ (faultless.useTerm (by simpa using fun t => unfreed_term t kind)) unfreed
  | _ => exact ends _ faultless unfreed

end Faultless

/-! ## What a handler sees of its request -/

/-- The status of a `cc_t`. -/
def statusAt (mem : CcMem) (p : ℕ) : Option CcStatus := (mem.cc.get? p).map Cc.ccStatus

/-- The seconds of a `cc_t`. -/
def maxsecAt (mem : CcMem) (p : ℕ) : Option ℤ := (mem.maxAt p).map CcMaxsec.maxsec

/-- The table index of a `cc_t`. -/
def tblIdxAt (mem : CcMem) (p : ℕ) : Option ℤ :=
  (mem.termPtr p).bind fun t => (mem.term.get? t).map CcTermRecord.tblIdx

/-- The status and the answer to the request. -/
def view (mem : CcMem) (p : ℕ) : Option CcStatus × Option ℤ × Option ℤ :=
  (mem.statusAt p, mem.maxsecAt p,
    if mem.links.kind p = some .term then mem.tblIdxAt p else none)

section View

variable (mem : CcMem) (p q m t : ℕ)

@[simp] theorem view_useCc : (mem.useCc p).view q = mem.view q := rfl

@[simp] theorem view_useMax (ms : List ℕ) : (mem.useMax ms).view q = mem.view q := rfl

@[simp] theorem view_useTerm (ts : List ℕ) : (mem.useTerm ts).view q = mem.view q := rfl

@[simp] theorem view_look (ps : List ℕ) : (mem.look ps).view q = mem.view q := rfl

@[simp] theorem view_freeCc : (mem.freeCc p).view q = mem.view q := by
  simp [view, statusAt, maxsecAt, maxAt, tblIdxAt, maxPtr, termPtr, freeCc, links]

@[simp] theorem view_ccFree : (mem.ccFree p).view q = mem.view q := by
  have links_eq := mem.links_ccFree p
  have max_get (m : ℕ) : (mem.ccFree p).max.get? m = mem.max.get? m := by
    simp only [ccFree]
    cases mem.maxPtr p <;> simp
  have term_get (t : ℕ) : (mem.ccFree p).term.get? t = mem.term.get? t := by
    simp only [ccFree]
    cases mem.termPtr p <;> simp
  have cc_get (q : ℕ) : (mem.ccFree p).cc.get? q = mem.cc.get? q := by simp [ccFree]
  simp only [view, links_eq, statusAt, maxsecAt, maxAt, tblIdxAt, maxPtr, termPtr, cc_get, term_get]
  congr 3
  exact Option.bind_congr fun m _ => max_get m

variable {mem p q m t}

theorem view_setStatus (ccStatus : CcStatus) (other : q ≠ p) :
    (mem.setStatus p ccStatus).view q = mem.view q := by
  rw [view, links_setStatus]
  simp [view, statusAt, maxsecAt, maxAt, tblIdxAt, maxPtr, termPtr, setStatus,
    ObjectHeap.get?_write, other.symm]

theorem view_reply {proto : CcProto} {h : CcHandler} {cc : Cc} (other : q ≠ h.cc) :
    (h.reply proto mem cc).view q = mem.view q := by
  unfold CcHandler.reply
  cases cc.t <;> dsimp only <;> split
  all_goals first | exact view_setStatus _ other | rfl

theorem view_setTerm {cc : Cc} (found : mem.cc.get? p = some cc) (kind : cc.t = .maxsec) :
    (mem.setTerm p t).view q = mem.view q := by
  rw [view, links_setTerm _ found]
  by_cases same : p = q
  · subst same
    have not_term : mem.links.kind p ≠ some .term := by simp [kind_of_get? found, kind]
    simp [view, Links.attach, statusAt, maxsecAt, maxAt, maxPtr, setTerm, ObjectHeap.get?_write,
      found, not_term]
  · simp [view, Links.attach, statusAt, maxsecAt, maxAt, tblIdxAt, maxPtr, termPtr, setTerm,
      ObjectHeap.get?_write, same]

theorem view_setMaxsec (maxsec : ℤ) (other : mem.links.maxPtr q ≠ some m) :
    (mem.setMaxsec m maxsec).view q = mem.view q := by
  have kept : (mem.setMaxsec m maxsec).maxAt q = mem.maxAt q := by
    refine Option.bind_congr fun m' points => ?_
    rw [setMaxsec, ObjectHeap.get?_write, if_neg]
    rintro rfl
    exact other points
  rw [view, links_setMaxsec, view, maxsecAt, kept]
  rfl

theorem view_setTblIdx (tblIdx : ℤ)
    (other : mem.links.kind q = some .term → mem.links.termPtr q ≠ some t) :
    (mem.setTblIdx t tblIdx).view q = mem.view q := by
  rw [view, links_setTblIdx, view]
  by_cases kind : mem.links.kind q = some .term
  · have kept : (mem.setTblIdx t tblIdx).tblIdxAt q = mem.tblIdxAt q := by
      refine Option.bind_congr fun t' points => ?_
      rw [setTblIdx, ObjectHeap.get?_write, if_neg]
      rintro rfl
      exact other kind points
    rw [kept]
    rfl
  · rw [if_neg kind, if_neg kind]
    rfl

/-- A request that arrives changes nothing of the others. -/
theorem view_receive (linked : mem.WellLinked) (r : CcRequest) (other : q ≠ mem.cc.next) :
    (mem.receive r).view q = mem.view q := by
  have cc_get : (mem.receive r).cc.get? q = mem.cc.get? q := by
    rw [receive, ObjectHeap.get?_alloc, if_neg other]
  have max_get : (mem.receive r).maxAt q = mem.maxAt q := by
    rw [maxAt, maxPtr, cc_get]
    refine Option.bind_congr fun m points => ?_
    rw [receive]
    cases r.max with
    | none => rfl
    | some max =>
        rw [Option.elim_some, ObjectHeap.get?_alloc, if_neg (linked.max_lt q m points).ne]
  have term_get : (mem.receive r).tblIdxAt q = mem.tblIdxAt q := by
    rw [tblIdxAt, termPtr, cc_get]
    refine Option.bind_congr fun t points => ?_
    rw [receive]
    cases r.term with
    | none => rfl
    | some term =>
        rw [Option.elim_some, ObjectHeap.get?_alloc, if_neg (linked.term_lt q t points).ne]
  have kind_eq : (mem.receive r).links.kind q = mem.links.kind q := by
    simp only [links, cc_get]
  rw [view, view, statusAt, statusAt, maxsecAt, maxsecAt, cc_get, max_get, term_get, kind_eq]

theorem statusAt_setStatus {cc : Cc} (ccStatus : CcStatus) (found : mem.cc.get? p = some cc) :
    (mem.setStatus p ccStatus).statusAt p = some ccStatus := by
  simp [statusAt, setStatus, ObjectHeap.get?_write, found]

theorem statusAt_setTerm {cc : Cc} (found : mem.cc.get? q = some cc) (kind : cc.t = .maxsec) :
    (mem.setTerm q t).statusAt p = mem.statusAt p :=
  congrArg Prod.fst (view_setTerm found kind)

/-- The reply deactivates the request or leaves its status. -/
theorem statusAt_reply {proto : CcProto} {h : CcHandler} {cc : Cc}
    (found : mem.cc.get? h.cc = some cc) :
    (h.reply proto mem cc).statusAt h.cc =
      if proto.compAck (mem.maxsecAt h.cc) (mem.tblIdxAt h.cc) cc.t then some .deactive
      else mem.statusAt h.cc := by
  have maxsec_eq :
      (cc.max.bind fun m => (mem.max.get? m).map CcMaxsec.maxsec) = mem.maxsecAt h.cc := by
    rw [maxsecAt, maxAt, maxPtr, found, Option.bind_some, Option.map_bind]
    rfl
  have tblIdx_eq : (cc.term.bind fun t => (mem.term.get? t).map CcTermRecord.tblIdx) =
      mem.tblIdxAt h.cc := by
    rw [tblIdxAt, termPtr, found, Option.bind_some]
  unfold CcHandler.reply
  dsimp only
  rw [maxsec_eq, tblIdx_eq]
  cases cc.t <;> dsimp only <;> split
  all_goals first | exact statusAt_setStatus _ found | rfl

theorem maxsecAt_setMaxsec (maxsec : ℤ) (linked : mem.WellLinked)
    (points : mem.links.maxPtr p = some m) :
    (mem.setMaxsec m maxsec).maxsecAt p = some maxsec := by
  obtain ⟨max, get_eq⟩ := mem.max.get?_isSome m (linked.max_lt p m points)
  have points' : (mem.setMaxsec m maxsec).maxPtr p = some m := points
  rw [maxsecAt, maxAt, points', Option.bind_some, setMaxsec, ObjectHeap.get?_write,
    if_pos rfl, get_eq]
  rfl

theorem tblIdxAt_setTblIdx (tblIdx : ℤ) (linked : mem.WellLinked)
    (points : mem.links.termPtr p = some t) :
    (mem.setTblIdx t tblIdx).tblIdxAt p = some tblIdx := by
  obtain ⟨term, get_eq⟩ := mem.term.get?_isSome t (linked.term_lt p t points)
  have points' : (mem.setTblIdx t tblIdx).termPtr p = some t := points
  rw [tblIdxAt, points', Option.bind_some, setTblIdx, ObjectHeap.get?_write, if_pos rfl, get_eq]
  rfl

end View

end CcMem

/-! ## Handlers and what the table holds of their requests -/

/-- The call in slot `i` has the termination of the request. -/
def CcShared.Lends (s : CcShared) (i call p : ℕ) : Prop :=
  s.At i call ∧ ∃ t, s.mem.links.termPtr call = some t ∧ s.mem.links.termPtr p = some t

namespace CcHandler

/-- The handler still uses an object that the table would free with the call. -/
def Uses (h : CcHandler) (call : ℕ) : Prop :=
  match h.hold with
  | .own => False
  | .seated => h.cc = call
  | .handed target => target = call ∧ h.pc ≠ .acked ∧ h.pc ≠ .kept

/-- What the event manager has written of a request fits what the table holds of it. -/
def Ok (proto : CcProto) (s : CcShared) (h : CcHandler) : Prop :=
  match h.pc, h.hold with
  | .received, .own => s.mem.statusAt h.cc = some .active
  | .counted _, .own => s.mem.links.kind h.cc = some .maxsec ∧ s.mem.statusAt h.cc = some .active
  | .admitted _, .own =>
      s.mem.links.kind h.cc = some .maxsec ∧ s.mem.statusAt h.cc = some .active ∧
        ∃ maxsec, s.mem.maxsecAt h.cc = some maxsec ∧ 0 < maxsec
  | .found i, .handed call | .attached i, .handed call =>
      s.mem.links.kind h.cc = some .term ∧ s.mem.statusAt h.cc = some .active ∧ s.Lends i call h.cc
  | .served, .own =>
      ∃ t, s.mem.links.kind h.cc = some t ∧
        (t = .maxsec → ∃ maxsec, s.mem.maxsecAt h.cc = some maxsec ∧
          proto.compAck (some maxsec) none .maxsec = true) ∧
        (t = .term → ∃ tblIdx, s.mem.tblIdxAt h.cc = some tblIdx ∧ tblIdx < 0)
  | .served, .seated =>
      s.mem.links.kind h.cc = some .maxsec ∧ s.mem.statusAt h.cc = some .active ∧
        (∃ maxsec, s.mem.maxsecAt h.cc = some maxsec ∧ 0 < maxsec) ∧ ∃ i, s.At i h.cc
  | .served, .handed call =>
      s.mem.links.kind h.cc = some .term ∧ s.mem.statusAt h.cc = some .active ∧
        (∃ tblIdx, s.mem.tblIdxAt h.cc = some tblIdx ∧ 0 ≤ tblIdx) ∧ ∃ i, s.Lends i call h.cc
  | .acked, .own => s.mem.statusAt h.cc = some .deactive
  | .acked, .seated | .kept, .seated =>
      s.mem.links.kind h.cc = some .maxsec ∧ s.mem.statusAt h.cc = some .active ∧
        ∃ i, s.At i h.cc
  | .acked, .handed _ | .kept, .handed _ =>
      s.mem.links.kind h.cc = some .term ∧ s.mem.statusAt h.cc = some .active
  | _, _ => False

/-- A handler goes by its own request and the call that has its objects. -/
theorem Ok.frame {proto : CcProto} {s s' : CcShared} {h : CcHandler} (ok : h.Ok proto s)
    (kind_eq : s'.mem.links.kind h.cc = s.mem.links.kind h.cc)
    (view_eq : s'.mem.view h.cc = s.mem.view h.cc)
    (used : ∀ i call, h.Uses call → s.At i call → s'.At i call)
    (lent : ∀ i call, h.Uses call → s.Lends i call h.cc →
      s'.mem.links.termPtr call = s.mem.links.termPtr call)
    (term_eq : s.mem.links.kind h.cc = some .term →
      s'.mem.links.termPtr h.cc = s.mem.links.termPtr h.cc) :
    h.Ok proto s' := by
  simp only [CcMem.view, kind_eq, Prod.mk.injEq] at view_eq
  obtain ⟨status_eq, maxsec_eq, answer_eq⟩ := view_eq
  have tblIdx_eq (kind : s.mem.links.kind h.cc = some .term) :
      s'.mem.tblIdxAt h.cc = s.mem.tblIdxAt h.cc := by
    simpa only [kind, if_true] using answer_eq
  have lends_frame {i call : ℕ} (uses : h.Uses call) (kind : s.mem.links.kind h.cc = some .term)
      (lends : s.Lends i call h.cc) : s'.Lends i call h.cc := by
    have call_eq := lent i call uses lends
    obtain ⟨at_call, t, call_t, own_t⟩ := lends
    exact ⟨used i call uses at_call, t, by rw [call_eq, call_t], by rw [term_eq kind, own_t]⟩
  obtain ⟨cc, pc, hold⟩ := h
  dsimp only at kind_eq status_eq maxsec_eq tblIdx_eq lends_frame
  cases hold with
  | own =>
      cases pc <;> simp only [Ok, kind_eq, status_eq, maxsec_eq] at ok ⊢
      case served =>
        obtain ⟨t, kind, maxsec, term⟩ := ok
        refine ⟨t, kind, maxsec, fun t_eq => ?_⟩
        rw [tblIdx_eq (by rw [kind, t_eq])]
        exact term t_eq
      all_goals exact ok
  | seated =>
      have at_frame (seated : ∃ i, s.At i cc) : ∃ i, s'.At i cc := by
        obtain ⟨i, at_cc⟩ := seated
        exact ⟨i, used i cc rfl at_cc⟩
      cases pc <;> simp only [Ok, kind_eq, status_eq, maxsec_eq] at ok ⊢
      case served => exact ⟨ok.1, ok.2.1, ok.2.2.1, at_frame ok.2.2.2⟩
      all_goals exact ⟨ok.1, ok.2.1, at_frame ok.2.2⟩
  | handed call =>
      cases pc <;> simp only [Ok, kind_eq, status_eq] at ok ⊢
      case found i => exact ⟨ok.1, ok.2.1, lends_frame ⟨rfl, by simp, by simp⟩ ok.1 ok.2.2⟩
      case attached i => exact ⟨ok.1, ok.2.1, lends_frame ⟨rfl, by simp, by simp⟩ ok.1 ok.2.2⟩
      case served =>
        obtain ⟨kind, status, index, i, lends⟩ := ok
        rw [tblIdx_eq kind]
        exact ⟨kind, status, index, i, lends_frame ⟨rfl, by simp, by simp⟩ kind lends⟩
      all_goals exact ok

/-- The reply ends a request that the table holds nothing of. -/
theorem compAck_of_own {proto : CcProto} {maxsec tblIdx : Option ℤ} {t : CcEvents}
    (refused : t = .maxsec →
      ∃ seconds, maxsec = some seconds ∧ proto.compAck (some seconds) none .maxsec = true)
    (unfound : t = .term → ∃ index, tblIdx = some index ∧ index < 0) :
    proto.compAck maxsec tblIdx t = true := by
  cases t with
  | maxsec =>
      obtain ⟨seconds, rfl, refusal⟩ := refused rfl
      cases proto <;> exact refusal
  | term =>
      obtain ⟨index, rfl, negative⟩ := unfound rfl
      cases proto <;> simpa [CcProto.compAck, myCcCompAck, jsonrpcCcCompResp,
        CcEvents.done] using negative
  | _ => cases proto <;> rfl

/-- It leaves a granted call and a termination with its call. -/
theorem compAck_of_grant {proto : CcProto} {maxsec : ℤ} (grant : 0 < maxsec) (tblIdx : Option ℤ) :
    proto.compAck (some maxsec) tblIdx .maxsec = false := by
  cases proto <;>
    simpa [CcProto.compAck, myCcCompAck, jsonrpcCcCompResp, CcEvents.done] using (by omega)

theorem compAck_of_index {proto : CcProto} {tblIdx : ℤ} (index : 0 ≤ tblIdx) (maxsec : Option ℤ) :
    proto.compAck maxsec (some tblIdx) .term = false := by
  cases proto <;>
    simpa [CcProto.compAck, myCcCompAck, jsonrpcCcCompResp, CcEvents.done] using index

/-- A refusal leaves the request with its handler, whose module ends it. -/
theorem ok_of_refusal {proto : CcProto} {s : CcShared} {h : CcHandler} {m : ℕ} {maxsec : ℤ}
    (well : s.mem.WellLinked) (points : s.mem.links.maxPtr h.cc = some m)
    (refused : proto.compAck (some maxsec) none .maxsec = true)
    (kind : s.mem.links.kind h.cc = some .maxsec) (hold : h.hold = .own) :
    Ok proto { s with mem := (s.mem.useCc h.cc).setMaxsec m maxsec } { h with pc := .served } := by
  obtain ⟨p, pc, _⟩ := h
  obtain rfl := hold
  refine ⟨.maxsec, by simpa using kind, fun _ => ⟨maxsec, ?_, refused⟩, nofun⟩
  exact CcMem.maxsecAt_setMaxsec _ (well.of_links_eq rfl rfl rfl) points

section Where

variable {proto : CcProto} {s : CcShared} {h : CcHandler} (ok : h.Ok proto s)
include ok

/-- The request of a handler exists. -/
theorem Ok.exists_cc : ∃ cc, s.mem.cc.get? h.cc = some cc := by
  have of_kind {t : CcEvents} (kind : s.mem.links.kind h.cc = some t) :
      ∃ cc, s.mem.cc.get? h.cc = some cc := by
    obtain ⟨cc, cc_eq, -⟩ := Option.map_eq_some_iff.mp kind
    exact ⟨cc, cc_eq⟩
  have of_status {status : CcStatus} (status_eq : s.mem.statusAt h.cc = some status) :
      ∃ cc, s.mem.cc.get? h.cc = some cc := by
    obtain ⟨cc, cc_eq, -⟩ := Option.map_eq_some_iff.mp status_eq
    exact ⟨cc, cc_eq⟩
  obtain ⟨p, pc, hold⟩ := h
  cases pc <;> cases hold <;> simp only [Ok] at ok
  case received.own => exact of_status ok
  case acked.own => exact of_status ok
  case served.own =>
    obtain ⟨t, kind, -⟩ := ok
    exact of_kind kind
  all_goals exact of_kind ok.1

theorem Ok.own_of_received (pc : h.pc = .received) : h.hold = .own := by
  obtain ⟨cc, _, hold⟩ := h
  obtain rfl := pc
  cases hold <;> first | rfl | simp only [Ok] at ok

theorem Ok.own_of_inMaxsec (inMaxsec : h.InMaxsec) : h.hold = .own := by
  obtain ⟨cc, pc, hold⟩ := h
  rcases inMaxsec with ⟨sim, rfl⟩ | ⟨rtp, rfl⟩ <;> cases hold <;>
    first | rfl | simp only [Ok] at ok

theorem Ok.lends_of_inTerm {i : ℕ} (inTerm : h.InTerm i) :
    ∃ call, h.hold = .handed call ∧ s.Lends i call h.cc := by
  obtain ⟨cc, pc, hold⟩ := h
  rcases inTerm with rfl | rfl <;> cases hold <;> simp only [Ok] at ok
  all_goals exact ⟨_, rfl, ok.2.2⟩

/-- Before the reply a termination is with its handler or with the call. -/
theorem Ok.has_term_of_served (pc : h.pc = .served) (kind : s.mem.links.kind h.cc = some .term) :
    h.hold = .own ∨ ∃ i call, s.Lends i call h.cc := by
  obtain ⟨cc, _, hold⟩ := h
  obtain rfl := pc
  cases hold with
  | own => exact .inl rfl
  | seated =>
      simp only [Ok] at ok
      rw [ok.1] at kind
      cases kind
  | handed call =>
      simp only [Ok] at ok
      obtain ⟨-, -, -, i, lends⟩ := ok
      exact .inr ⟨i, call, lends⟩

/-- After the reply the handler has the request exactly when it is deactivated. -/
theorem Ok.own_of_deactive (pc : h.pc = .acked) (status : s.mem.statusAt h.cc = some .deactive) :
    h.hold = .own := by
  obtain ⟨cc, _, hold⟩ := h
  obtain rfl := pc
  cases hold with
  | own => rfl
  | seated =>
      simp only [Ok] at ok
      rw [ok.2.1] at status
      cases status
  | handed call =>
      simp only [Ok] at ok
      rw [ok.2] at status
      cases status

theorem Ok.handed_of_kept (pc : h.pc = .kept) (kind : s.mem.links.kind h.cc = some .term) :
    ∃ call, h.hold = .handed call := by
  obtain ⟨cc, _, hold⟩ := h
  obtain rfl := pc
  cases hold <;> simp only [Ok] at ok
  · rw [ok.1] at kind
    cases kind
  · exact ⟨_, rfl⟩

theorem Ok.seated_of_kept (pc : h.pc = .kept) (kind : s.mem.links.kind h.cc ≠ some .term) :
    h.hold = .seated := by
  obtain ⟨cc, _, hold⟩ := h
  obtain rfl := pc
  cases hold <;> simp only [Ok] at ok
  · rfl
  · exact absurd ok.1 kind

end Where

end CcHandler

/-! ## Owners -/

/-- The `cc_t` that the thread frees at the end of its request. -/
def CcThread.ownsCc (thread : CcThread) : Option ℕ :=
  thread.handler.bind fun h => if h.hold = .seated then none else some h.cc

/-- The `cc_t` whose termination the thread frees at the end of its request. -/
def CcThread.ownsTerm (thread : CcThread) : Option ℕ :=
  thread.handler.bind fun h => if h.hold = .own then some h.cc else none

/-- The `cc_t` that the janitor frees with the slot. -/
def slotCc (cell : Option (ℕ × Racc)) : Option ℕ := cell.map Prod.fst

/-- How often each object is owned: through a pointer of the `cc_t`s of threads and slots. -/
def heldBy (owns : CcThread → Option ℕ) (ptr : ℕ → Option ℕ) (threads : List CcThread)
    (tbl : List (Option (ℕ × Racc))) : ℕ → ℤ :=
  held (fun thread => (owns thread).bind ptr) threads +
    held (fun cell => (slotCc cell).bind ptr) tbl

/-- Every object has one owner or was freed once. -/
def CcMem.BooksOf (mem : CcMem) (threads : List CcThread) (tbl : List (Option (ℕ × Racc))) : Prop :=
  mem.Books (heldBy CcThread.ownsCc some threads tbl)
    (heldBy CcThread.ownsCc mem.links.maxPtr threads tbl)
    (heldBy CcThread.ownsTerm mem.links.termPtr threads tbl)

section HeldBy

variable {owns : CcThread → Option ℕ} {ptr ptr' : ℕ → Option ℕ} {threads : List CcThread}
  {tbl : List (Option (ℕ × Racc))} {p : ℕ}

theorem heldBy_nonneg (owns : CcThread → Option ℕ) (ptr : ℕ → Option ℕ) (threads : List CcThread)
    (tbl : List (Option (ℕ × Racc))) (p : ℕ) : 0 ≤ heldBy owns ptr threads tbl p :=
  add_nonneg (held_nonneg _ _ p) (held_nonneg _ _ p)

theorem heldBy_some (owns : CcThread → Option ℕ) (threads : List CcThread)
    (tbl : List (Option (ℕ × Racc))) :
    heldBy owns some threads tbl = held owns threads + held slotCc tbl := by
  simp only [heldBy, Option.bind_fun_some]

theorem held_ownsTerm_le (threads : List CcThread) (p : ℕ) :
    held CcThread.ownsTerm threads p ≤ held CcThread.ownsCc threads p := by
  refine held_le fun thread own => ?_
  obtain ⟨h, busy, own⟩ := Option.bind_eq_some_iff.mp own
  rw [CcThread.ownsCc, busy, Option.bind_some]
  split at own
  · rename_i hold
    rw [if_neg (by rw [hold]; decide)]
    exact own
  · cases own

theorem heldBy_setThread {w : ℕ} {thread : CcThread} (new : CcThread)
    (found : threads[w]? = some thread) :
    heldBy owns ptr (threads.set w new) tbl =
      heldBy owns ptr threads tbl +
        (unit ((owns new).bind ptr) - unit ((owns thread).bind ptr)) := by
  rw [heldBy, held_set new found, heldBy]
  abel

theorem heldBy_setSlot {i : ℕ} {cell : Option (ℕ × Racc)} (new : Option (ℕ × Racc))
    (found : tbl[i]? = some cell) :
    heldBy owns ptr threads (tbl.set i new) =
      heldBy owns ptr threads tbl +
        (unit ((slotCc new).bind ptr) - unit ((slotCc cell).bind ptr)) := by
  rw [heldBy, held_set new found, heldBy, add_assoc]

/-- When one pointer changes, what is owned through it changes once for each owner. -/
theorem heldBy_update {c : ℕ} (others : ∀ p ≠ c, ptr' p = ptr p) :
    heldBy owns ptr' threads tbl =
      heldBy owns ptr threads tbl +
        (held owns threads c + held slotCc tbl c) • (unit (ptr' c) - unit (ptr c)) := by
  rw [heldBy, held_via_update others, held_via_update others, heldBy, add_zsmul]
  abel

theorem heldBy_pos_thread {thread : CcThread} (member : thread ∈ threads)
    (own : (owns thread).bind ptr = some p) : 1 ≤ heldBy owns ptr threads tbl p := by
  have thread_pos : 1 ≤ held (fun thread => (owns thread).bind ptr) threads p :=
    held_pos member own
  have slots_nonneg := held_nonneg (fun cell => (slotCc cell).bind ptr) tbl p
  rw [heldBy, Pi.add_apply]
  omega

theorem heldBy_pos_slot {i c : ℕ} {rtp : Racc} (slot : tbl[i]? = some (some (c, rtp)))
    (own : ptr c = some p) : 1 ≤ heldBy owns ptr threads tbl p := by
  have slot_pos : 1 ≤ held (fun cell => (slotCc cell).bind ptr) tbl p :=
    held_pos (List.mem_of_getElem? slot) (by rw [slotCc, Option.map_some, Option.bind_some, own])
  have threads_nonneg := held_nonneg (fun thread => (owns thread).bind ptr) threads p
  rw [heldBy, Pi.add_apply]
  omega

/-- Who holds an object: a thread or a slot. -/
theorem exists_of_heldBy_pos (positive : 1 ≤ heldBy owns ptr threads tbl p) :
    (∃ thread ∈ threads, (owns thread).bind ptr = some p) ∨
      ∃ (i c : ℕ) (rtp : Racc), tbl[i]? = some (some (c, rtp)) ∧ ptr c = some p := by
  rw [heldBy, Pi.add_apply] at positive
  by_cases thread_pos : 1 ≤ held (fun thread => (owns thread).bind ptr) threads p
  · exact .inl (exists_of_held_pos thread_pos)
  · obtain ⟨cell, member, own⟩ := exists_of_held_pos
      (by omega : 1 ≤ held (fun cell => (slotCc cell).bind ptr) tbl p)
    obtain ⟨i, slot⟩ := List.mem_iff_getElem?.mp member
    obtain ⟨c, cell_eq, points⟩ := Option.bind_eq_some_iff.mp own
    obtain ⟨⟨c', rtp⟩, rfl, rfl⟩ := Option.map_eq_some_iff.mp cell_eq
    exact .inr ⟨i, _, rtp, slot, points⟩

end HeldBy

namespace CcProcess

/-- Every object has one owner or was freed once, no freed object was used, and every handler stands
where the table's part of its request puts it. -/
structure Owned (s : CcProcess) : Prop where
  linked : s.Linked
  faultless : s.shared.mem.Faultless
  books : s.shared.mem.BooksOf s.threads s.shared.tbl
  ok : ∀ thread ∈ s.threads, ∀ h, thread.handler = some h → h.Ok thread.proto s.shared
  distinct : ∀ (w w' : ℕ) (thread thread' : CcThread) (h h' : CcHandler),
    s.threads[w]? = some thread → s.threads[w']? = some thread' → thread.handler = some h →
      thread'.handler = some h' → h.cc = h'.cc → w = w'

/-- A thread that answers a `maxsec` request has a database connection, or its module takes an
answer without seconds for a refusal. -/
def AnswersMaxsec (thread : CcThread) (h : CcHandler) : Prop :=
  (∃ sim, h.pc = .counted sim) → thread.connected = true ∨ thread.proto = .jsonrpcCc

/-- The call that the search of a termination finds has none yet. -/
def FindsUnended (s : CcShared) (h : CcHandler) : Prop :=
  h.pc = .received → ∀ t term i p, s.mem.links.termPtr h.cc = some t →
    s.mem.term.get? t = some term → s.searchCallUid term.callUid = some i → s.At i p →
      s.mem.links.termPtr p = none

section Owned

variable {s : CcProcess} (owned : s.Owned)
include owned

/-- The objects of a call in the table are not freed. -/
theorem Owned.slot_unfreed {i p : ℕ} (at_p : s.shared.At i p) :
    s.shared.mem.cc.frees p = 0 ∧
      (∀ m, s.shared.mem.links.maxPtr p = some m → s.shared.mem.max.frees m = 0) ∧
        ∀ t, s.shared.mem.links.termPtr p = some t → s.shared.mem.term.frees t = 0 := by
  obtain ⟨rtp, slot⟩ := at_p
  exact ⟨owned.books.cc.frees_eq_zero (heldBy_pos_slot slot rfl),
    fun m points => owned.books.max.frees_eq_zero (heldBy_pos_slot slot points),
    fun t points => owned.books.term.frees_eq_zero (heldBy_pos_slot slot points)⟩

/-- The `cc_t` of a running handler and its record of seconds are not freed. -/
theorem Owned.handler_unfreed {thread : CcThread} {h : CcHandler} (member : thread ∈ s.threads)
    (busy : thread.handler = some h) :
    s.shared.mem.cc.frees h.cc = 0 ∧
      ∀ m, s.shared.mem.links.maxPtr h.cc = some m → s.shared.mem.max.frees m = 0 := by
  by_cases seated : h.hold = .seated
  · have ok := owned.ok thread member h busy
    obtain ⟨i, at_cc⟩ : ∃ i, s.shared.At i h.cc := by
      obtain ⟨cc, pc, hold⟩ := h
      obtain rfl : hold = .seated := seated
      cases pc <;> simp only [CcHandler.Ok] at ok
      case served => exact ok.2.2.2
      all_goals exact ok.2.2
    exact ⟨(owned.slot_unfreed at_cc).1, (owned.slot_unfreed at_cc).2.1⟩
  · have own : thread.ownsCc = some h.cc := by
      rw [CcThread.ownsCc, busy, Option.bind_some, if_neg seated]
    exact ⟨owned.books.cc.frees_eq_zero (heldBy_pos_thread member (by rw [own]; rfl)),
      fun m points => owned.books.max.frees_eq_zero
        (heldBy_pos_thread member (by rw [own]; exact points))⟩

/-- The termination of a request is not freed while the handler has it or the call holds it. -/
theorem Owned.term_unfreed {thread : CcThread} {h : CcHandler} (member : thread ∈ s.threads)
    (busy : thread.handler = some h)
    (has_term : h.hold = .own ∨ ∃ i call, s.shared.Lends i call h.cc) {t : ℕ}
    (points : s.shared.mem.links.termPtr h.cc = some t) : s.shared.mem.term.frees t = 0 := by
  rcases has_term with own | ⟨i, call, at_call, t', call_t, own_t⟩
  · have owns : thread.ownsTerm = some h.cc := by
      rw [CcThread.ownsTerm, busy, Option.bind_some, if_pos own]
    exact owned.books.term.frees_eq_zero (heldBy_pos_thread member (by rw [owns]; exact points))
  · obtain rfl : t = t' := Option.some.inj (points.symm.trans own_t)
    exact (owned.slot_unfreed at_call).2.2 t call_t

/-- The calls of a stretch of the table are not freed. -/
theorem Owned.calls_unfreed {cells : List (Option (ℕ × Racc))}
    (part : ∀ cell ∈ cells, cell ∈ s.shared.tbl) {p : ℕ} (member : p ∈ CcShared.calls cells) :
    s.shared.mem.cc.frees p = 0 ∧
      ∀ m, s.shared.mem.links.maxPtr p = some m → s.shared.mem.max.frees m = 0 := by
  obtain ⟨cell, cell_member, call_eq⟩ := List.mem_filterMap.mp member
  obtain ⟨⟨p', rtp⟩, rfl, rfl⟩ := Option.map_eq_some_iff.mp call_eq
  obtain ⟨i, slot⟩ := List.mem_iff_getElem?.mp (part _ cell_member)
  have unfreed := owned.slot_unfreed ⟨rtp, slot⟩
  exact ⟨unfreed.1, unfreed.2.1⟩

/-- A call in the table has the slot as its only owner. -/
theorem Owned.slot_alone {i p : ℕ} (at_p : s.shared.At i p) :
    held CcThread.ownsCc s.threads p = 0 ∧ held slotCc s.shared.tbl p = 1 := by
  obtain ⟨rtp, slot⟩ := at_p
  have one := owned.books.cc.held_eq_one (heldBy_pos_slot slot rfl)
  rw [heldBy_some, Pi.add_apply] at one
  have slot_pos : 1 ≤ held slotCc s.shared.tbl p := held_pos (List.mem_of_getElem? slot) rfl
  have threads_nonneg := held_nonneg CcThread.ownsCc s.threads p
  omega

theorem Owned.sole_slot {i p : ℕ} (at_p : s.shared.At i p) :
    held CcThread.ownsTerm s.threads p + held slotCc s.shared.tbl p = 1 := by
  obtain ⟨cc_none, slot_one⟩ := owned.slot_alone at_p
  have term_nonneg := held_nonneg CcThread.ownsTerm s.threads p
  have term_le := held_ownsTerm_le s.threads p
  omega

section Move

variable {w : ℕ} {thread : CcThread} {h : CcHandler} {cc : Cc} {shared : CcShared}
  {handler : Option CcHandler} (at_w : s.threads[w]? = some thread)
  (busy : thread.handler = some h) (cc_eq : s.shared.mem.cc.get? h.cc = some cc)
  (move : h.Move thread.proto thread.connected s.shared cc shared handler)
include at_w busy cc_eq

/-- The second attachment finds the call with the termination already. -/
theorem Owned.attach_again {i call t : ℕ} {rtp : Racc} (pc : h.pc = .found i)
    (slot : s.shared.tbl[i]? = some (some (call, rtp))) (points : cc.term = some t) :
    h.hold = .handed call ∧
      (s.shared.mem.links.termPtr call = some t ∧ s.shared.mem.links.termPtr h.cc = some t) ∧
        ((s.shared.mem.useCc h.cc).setTerm call t).links = s.shared.mem.links := by
  have ok := owned.ok thread (List.mem_of_getElem? at_w) h busy
  obtain ⟨target, hold, ⟨rtp', slot'⟩, t', target_t, own_t⟩ := ok.lends_of_inTerm (.inl pc)
  obtain rfl : call = target := by
    rw [slot] at slot'
    cases slot'
    rfl
  obtain rfl : t = t' :=
    Option.some.inj (points.symm.trans ((CcMem.termPtr_of_get? cc_eq).symm.trans own_t))
  obtain ⟨called, called_eq, -⟩ :=
    Option.map_eq_some_iff.mp (owned.linked.seated i call ⟨rtp, slot⟩)
  exact ⟨hold, ⟨target_t, own_t⟩,
    (CcMem.links_setTerm _ called_eq).trans (CcMem.Links.attach_eq_self target_t)⟩

/-- A handler that finds its call gives it the termination. -/
theorem Owned.ok_found {t i call : ℕ} {rtp : Racc} (pc : h.pc = .received) (kind : cc.t = .term)
    (points : cc.term = some t) (slot : s.shared.tbl[i]? = some (some (call, rtp))) :
    CcHandler.Ok thread.proto
      { s.shared with
        mem := (((s.shared.mem.useCc h.cc).useTerm [t]).look
          (CcShared.calls (s.shared.tbl.take (i + 1)))).setTerm call t }
      { h with pc := .found i, hold := .handed call } := by
  have ok := owned.ok thread (List.mem_of_getElem? at_w) h busy
  have own := ok.own_of_received pc
  have kind_eq := CcMem.kind_of_get? cc_eq
  have call_kind := owned.linked.seated i call ⟨rtp, slot⟩
  obtain ⟨called, called_eq, called_kind⟩ := Option.map_eq_some_iff.mp call_kind
  have call_ne : h.cc ≠ call := by
    intro same
    rw [same, call_kind] at kind_eq
    cases kind_eq.trans (congrArg some kind)
  have points' := (CcMem.termPtr_of_get? cc_eq).trans points
  obtain ⟨p, _, _⟩ := h
  obtain rfl := pc
  obtain rfl := own
  have attached : CcMem.links ((((s.shared.mem.useCc p).useTerm [t]).look
      (CcShared.calls (s.shared.tbl.take (i + 1)))).setTerm call t) =
      s.shared.mem.links.attach call t := CcMem.links_setTerm _ called_eq
  refine ⟨?_, (CcMem.statusAt_setTerm called_eq called_kind).trans ok, ⟨rtp, slot⟩, t, ?_, ?_⟩
  all_goals
    dsimp only
    rw [attached]
  · exact kind_eq.trans (congrArg some kind)
  · exact Function.update_self _ _ _
  · exact (Function.update_of_ne call_ne _ _).trans points'

/-- The second attachment leaves the termination with the call. -/
theorem Owned.ok_attached {t i call : ℕ} {rtp : Racc} (pc : h.pc = .found i)
    (slot : s.shared.tbl[i]? = some (some (call, rtp))) (points : cc.term = some t) :
    CcHandler.Ok thread.proto
      { s.shared with mem := (s.shared.mem.useCc h.cc).setTerm call t }
        { h with pc := .attached i } := by
  have ok := owned.ok thread (List.mem_of_getElem? at_w) h busy
  obtain ⟨hold, ⟨target_t, own_t⟩, links_eq⟩ := owned.attach_again at_w busy cc_eq pc slot points
  obtain ⟨called, called_eq, called_kind⟩ :=
    Option.map_eq_some_iff.mp (owned.linked.seated i call ⟨rtp, slot⟩)
  obtain ⟨p, _, _⟩ := h
  obtain rfl := pc
  obtain rfl := hold
  refine ⟨?_, (CcMem.statusAt_setTerm called_eq called_kind).trans ok.2.1, ⟨rtp, slot⟩, t, ?_, ?_⟩
  all_goals
    dsimp only
    rw [links_eq]
  · exact ok.1
  · exact target_t
  · exact own_t

/-- The reply ends exactly the requests that the table holds nothing of. -/
theorem Owned.ok_acked (pc : h.pc = .served) :
    CcHandler.Ok thread.proto
      { s.shared with mem := h.reply thread.proto (s.shared.mem.useCc h.cc) cc }
      { h with pc := .acked } := by
  have ok := owned.ok thread (List.mem_of_getElem? at_w) h busy
  have kind_eq := CcMem.kind_of_get? cc_eq
  have status_eq : s.shared.mem.statusAt h.cc = some cc.ccStatus := by
    rw [CcMem.statusAt, cc_eq, Option.map_some]
  obtain ⟨p, _, hold⟩ := h
  obtain rfl := pc
  have links_eq : CcMem.links (CcHandler.reply thread.proto
      (s.shared.mem.useCc p) ⟨p, .served, hold⟩ cc) = s.shared.mem.links := by simp
  have status' : CcMem.statusAt (CcHandler.reply thread.proto
      (s.shared.mem.useCc p) ⟨p, .served, hold⟩ cc) p =
        if thread.proto.compAck (s.shared.mem.maxsecAt p) (s.shared.mem.tblIdxAt p) cc.t
          then some .deactive else some cc.ccStatus := by
    rw [← status_eq]
    exact CcMem.statusAt_reply cc_eq
  cases hold with
  | own =>
      obtain ⟨t, kind, maxsec, term⟩ := ok
      obtain rfl : cc.t = t := Option.some.inj (kind_eq.symm.trans kind)
      refine status'.trans (if_pos (CcHandler.compAck_of_own (fun t_eq => ?_) fun t_eq => ?_))
      · exact maxsec t_eq
      · exact term t_eq
  | seated =>
      obtain ⟨kind, status, ⟨maxsec, maxsec_eq, grant⟩, i, at_cc⟩ := ok
      have t_eq : cc.t = .maxsec := Option.some.inj (kind_eq.symm.trans kind)
      rw [maxsec_eq, t_eq, CcHandler.compAck_of_grant grant, if_neg (by decide),
        ← status_eq] at status'
      exact ⟨by rwa [links_eq], status'.trans status, i, at_cc⟩
  | handed call =>
      obtain ⟨kind, status, ⟨tblIdx, tblIdx_eq, index⟩, -⟩ := ok
      have t_eq : cc.t = .term := Option.some.inj (kind_eq.symm.trans kind)
      rw [tblIdx_eq, t_eq, CcHandler.compAck_of_index index, if_neg (by decide),
        ← status_eq] at status'
      exact ⟨by rwa [links_eq], status'.trans status⟩

/-- A refusal leaves seconds that the module answers as one. -/
theorem Owned.ok_refused (answers : AnswersMaxsec thread h) {sim maxsec : ℤ} {m : ℕ}
    (pc : h.pc = .counted sim) (points : cc.max = some m)
    (refusal : maxsec < 0 ∨ maxsec = 0 ∧ thread.connected = false) :
    CcHandler.Ok thread.proto
      { s.shared with mem := (s.shared.mem.useCc h.cc).setMaxsec m maxsec }
      { h with pc := .served } := by
  have member : thread ∈ s.threads := List.mem_of_getElem? at_w
  refine CcHandler.ok_of_refusal owned.linked.mem ((CcMem.maxPtr_of_get? cc_eq).trans points) ?_
    (owned.linked.inMaxsec thread member h busy (.inl ⟨sim, pc⟩))
    ((owned.ok thread member h busy).own_of_inMaxsec (.inl ⟨sim, pc⟩))
  have answers := answers ⟨sim, pc⟩
  cases module_eq : thread.proto with
  | myCc =>
      -- a refusal without seconds needs a thread without a connection
      have negative : maxsec < 0 := by
        simpa [module_eq] using refusal.resolve_right (by simp_all)
      simpa [CcProto.compAck, myCcCompAck, CcEvents.done] using negative
  | jsonrpcCc =>
      have refused_le : maxsec ≤ 0 := by omega
      simpa [CcProto.compAck, jsonrpcCcCompResp, CcEvents.done] using refused_le

/-- A grant stands in the record of the request. -/
theorem Owned.ok_granted {sim maxsec : ℤ} {m : ℕ} {rtp : Racc} (pc : h.pc = .counted sim)
    (points : cc.max = some m) (grant : 0 < maxsec) :
    CcHandler.Ok thread.proto
      { s.shared with mem := (s.shared.mem.useCc h.cc).setMaxsec m maxsec }
      { h with pc := .admitted rtp } := by
  have ok := owned.ok thread (List.mem_of_getElem? at_w) h busy
  have max_eq := (CcMem.maxPtr_of_get? cc_eq).trans points
  have own := ok.own_of_inMaxsec (.inl ⟨sim, pc⟩)
  obtain ⟨p, _, _⟩ := h
  obtain rfl := pc
  obtain rfl := own
  refine ⟨?_, ok.2, maxsec, ?_, grant⟩
  · simpa using ok.1
  · exact CcMem.maxsecAt_setMaxsec _ (owned.linked.mem.of_links_eq rfl rfl rfl) max_eq

/-- The index of the slot is the answer to a termination. -/
theorem Owned.ok_noted {i t : ℕ} (pc : h.pc = .attached i) (points : cc.term = some t) :
    CcHandler.Ok thread.proto
      { s.shared with mem := (s.shared.mem.useCc h.cc).setTblIdx t i }
      { h with pc := .served } := by
  have ok := owned.ok thread (List.mem_of_getElem? at_w) h busy
  have term_eq := (CcMem.termPtr_of_get? cc_eq).trans points
  obtain ⟨call, hold, -⟩ := ok.lends_of_inTerm (.inr pc)
  obtain ⟨p, _, _⟩ := h
  obtain rfl := pc
  obtain rfl := hold
  have links_eq : CcMem.links ((s.shared.mem.useCc p).setTblIdx t i) = s.shared.mem.links := by
    simp
  obtain ⟨kind, status, at_call, shared_t⟩ := ok
  refine ⟨?_, status, ⟨i, ?_, Int.natCast_nonneg i⟩, i, at_call, ?_⟩
  · exact (congrFun (congrArg CcMem.Links.kind links_eq) p).trans kind
  · exact CcMem.tblIdxAt_setTblIdx _ (owned.linked.mem.of_links_eq rfl rfl rfl) term_eq
  · dsimp only
    rw [links_eq]
    exact shared_t

omit owned cc_eq in
/-- Memory that moves no pointer, under a handler that goes on with the same request. -/
theorem booksOf_quiet {mem : CcMem} {h' : CcHandler}
    (books : mem.Books (heldBy CcThread.ownsCc some s.threads s.shared.tbl)
      (heldBy CcThread.ownsCc s.shared.mem.links.maxPtr s.threads s.shared.tbl)
      (heldBy CcThread.ownsTerm s.shared.mem.links.termPtr s.threads s.shared.tbl))
    (links_eq : mem.links = s.shared.mem.links) (cc_same : h'.cc = h.cc)
    (hold_same : h'.hold = h.hold) :
    mem.BooksOf (s.threads.set w { thread with handler := some h' }) s.shared.tbl := by
  have owns_cc : CcThread.ownsCc { thread with handler := some h' } = thread.ownsCc := by
    simp [CcThread.ownsCc, busy, cc_same, hold_same]
  have owns_term : CcThread.ownsTerm { thread with handler := some h' } = thread.ownsTerm := by
    simp [CcThread.ownsTerm, busy, cc_same, hold_same]
  rw [CcMem.BooksOf, links_eq, heldBy_setThread _ at_w, heldBy_setThread _ at_w,
    heldBy_setThread _ at_w, owns_cc, owns_term]
  simpa using books

/-- The termination leaves its thread for the only owner of the call. -/
theorem Owned.books_found {t i call : ℕ} {rtp : Racc} (pc : h.pc = .received)
    (points : cc.term = some t) (slot : s.shared.tbl[i]? = some (some (call, rtp)))
    (call_none : s.shared.mem.links.termPtr call = none) :
    CcMem.BooksOf ((((s.shared.mem.useCc h.cc).useTerm [t]).look
        (CcShared.calls (s.shared.tbl.take (i + 1)))).setTerm call t)
      (s.threads.set w
        { thread with handler := some { h with pc := .found i, hold := .handed call } })
      s.shared.tbl := by
  have own := (owned.ok thread (List.mem_of_getElem? at_w) h busy).own_of_received pc
  have points_t : s.shared.mem.links.termPtr h.cc = some t :=
    (CcMem.termPtr_of_get? cc_eq).trans points
  obtain ⟨called, called_eq, -⟩ :=
    Option.map_eq_some_iff.mp (owned.linked.seated i call ⟨rtp, slot⟩)
  have call_ne : h.cc ≠ call := by
    rintro same
    rw [same, call_none] at points_t
    cases points_t
  have links_eq : CcMem.links ((((s.shared.mem.useCc h.cc).useTerm [t]).look
      (CcShared.calls (s.shared.tbl.take (i + 1)))).setTerm call t) =
      s.shared.mem.links.attach call t := CcMem.links_setTerm _ called_eq
  have owns_cc : CcThread.ownsCc { thread with
      handler := some { h with pc := .found i, hold := .handed call } } = thread.ownsCc := by
    simp [CcThread.ownsCc, busy, own]
  have owns_term : thread.ownsTerm = some h.cc := by simp [CcThread.ownsTerm, busy, own]
  have handed_term : CcThread.ownsTerm { thread with
      handler := some { h with pc := .found i, hold := .handed call } } = none := by
    simp [CcThread.ownsTerm]
  have attached_call : Function.update s.shared.mem.links.termPtr call (some t) call = some t :=
    Function.update_self _ _ _
  have attached_own : Function.update s.shared.mem.links.termPtr call (some t) h.cc = some t :=
    (Function.update_of_ne call_ne _ _).trans points_t
  have pointed : heldBy CcThread.ownsTerm (Function.update s.shared.mem.links.termPtr call (some t))
      s.threads s.shared.tbl =
      heldBy CcThread.ownsTerm s.shared.mem.links.termPtr s.threads s.shared.tbl +
        (held CcThread.ownsTerm s.threads call + held slotCc s.shared.tbl call) •
          (unit (Function.update s.shared.mem.links.termPtr call (some t) call) -
            unit (s.shared.mem.links.termPtr call)) :=
    heldBy_update fun q q_ne => Function.update_of_ne q_ne _ _
  have read := owned.books.useCc h.cc
  have moved :=
    ((read.useTerm [t]).look (CcShared.calls (s.shared.tbl.take (i + 1)))).setTerm call t
  rw [CcMem.BooksOf, links_eq, CcMem.Links.attach]
  dsimp only
  rw [heldBy_setThread _ at_w, heldBy_setThread _ at_w, heldBy_setThread _ at_w,
    pointed, owned.sole_slot ⟨rtp, slot⟩,
    owns_cc, owns_term, handed_term, Option.bind_some, attached_call, attached_own, call_none]
  simpa using moved

include move

/-- A handler uses no freed object. -/
theorem Owned.faultless_move : shared.mem.Faultless := by
  have member : thread ∈ s.threads := List.mem_of_getElem? at_w
  have ok := owned.ok thread member h busy
  obtain ⟨own_cc, own_max⟩ := owned.handler_unfreed member busy
  have max_of {m : ℕ} (max_eq : cc.max = some m) : s.shared.mem.max.frees m = 0 :=
    own_max m (by rw [CcMem.maxPtr_of_get? cc_eq, max_eq])
  have term_of {t : ℕ} (has_term : h.hold = .own ∨ ∃ i call, s.shared.Lends i call h.cc)
      (term_eq : cc.term = some t) : s.shared.mem.term.frees t = 0 :=
    owned.term_unfreed member busy has_term (by rw [CcMem.termPtr_of_get? cc_eq, term_eq])
  have read : (s.shared.mem.useCc h.cc).Faultless := owned.faultless.useCc own_cc
  have all (p : ℕ) (p_member : p ∈ CcShared.calls s.shared.tbl) :=
    owned.calls_unfreed (fun _ cell => cell) p_member
  cases move with
  | denied pc kind max_eq => exact read.setMaxsec _ (max_of max_eq)
  | counted pc kind max_eq =>
      exact (read.useMax_one (max_of max_eq)).look (fun p calls => (all p calls).1)
        fun p calls => (all p calls).2
  | ended pc => exact read.setStatus _ own_cc
  | passed pc => exact read
  | @found t i call term rtp pc kind term_eq record search slot same =>
      have searched (p : ℕ) (p_member : p ∈ CcShared.calls (s.shared.tbl.take (i + 1))) :=
        owned.calls_unfreed (fun _ cell => List.mem_of_mem_take cell) p_member
      have used := read.useTerm_one (term_of (.inl (ok.own_of_received pc)) term_eq)
      exact (used.look (fun p calls => (searched p calls).1)
        fun p calls => (searched p calls).2).setTerm t (owned.slot_unfreed ⟨rtp, slot⟩).1
  | @unfound t pc kind term_eq =>
      have own_term := term_of (.inl (ok.own_of_received pc)) term_eq
      exact ((read.useTerm_one own_term).look (fun p calls => (all p calls).1)
        fun p calls => (all p calls).2).setTblIdx _ own_term
  | refused pc max_eq => exact read.setMaxsec _ (max_of max_eq)
  | granted pc max_eq => exact read.setMaxsec _ (max_of max_eq)
  | seated pc => exact read
  | full pc max_eq => exact read.setMaxsec _ (max_of max_eq)
  | @attached i call t rtp pc slot term_eq =>
      exact read.setTerm t (owned.slot_unfreed ⟨rtp, slot⟩).1
  | missed pc => exact read
  | @noted i t pc term_eq =>
      obtain ⟨call, -, lends⟩ := ok.lends_of_inTerm (.inr pc)
      exact read.setTblIdx _ (term_of (.inr ⟨i, call, lends⟩) term_eq)
  | acked pc =>
      refine read.reply own_cc (fun m max_eq => max_of max_eq) fun t kind term_eq => ?_
      exact term_of (ok.has_term_of_served pc (by rw [CcMem.kind_of_get? cc_eq, kind])) term_eq
  | closed pc status =>
      have own := ok.own_of_deactive pc (by rw [CcMem.statusAt, cc_eq, Option.map_some, status])
      exact read.ccFree own_cc own_max fun t points =>
        owned.term_unfreed member busy (.inl own) points
  | kept pc => exact read
  | released pc => exact ⟨read.cc, read.max, read.term⟩
  | left pc => exact read

/-- The handler stands where its step has put it. -/
theorem Owned.ok_move (answers : AnswersMaxsec thread h) {h' : CcHandler}
    (goes : handler = some h') : h'.Ok thread.proto shared := by
  have member : thread ∈ s.threads := List.mem_of_getElem? at_w
  have ok := owned.ok thread member h busy
  have well := owned.linked.mem
  have inMaxsec := owned.linked.inMaxsec thread member h busy
  have kind_eq := CcMem.kind_of_get? cc_eq
  have max_eq := CcMem.maxPtr_of_get? cc_eq
  have term_eq := CcMem.termPtr_of_get? cc_eq
  cases move with
  | denied pc kind points =>
      cases goes
      refine CcHandler.ok_of_refusal well (max_eq.trans points) ?_
        (kind_eq.trans (congrArg some kind))
        (ok.own_of_received pc)
      cases thread.proto <;> decide
  | counted pc kind points =>
      cases goes
      have own := ok.own_of_received pc
      obtain ⟨p, _, _⟩ := h
      obtain rfl := pc
      obtain rfl := own
      exact ⟨kind_eq.trans (congrArg some kind), ok⟩
  | ended pc maxsec term =>
      cases goes
      have own := ok.own_of_received pc
      obtain ⟨p, _, _⟩ := h
      obtain rfl := own
      refine ⟨cc.t, by simpa using kind_eq, fun kind => absurd kind maxsec,
        fun kind => absurd kind term⟩
  | passed pc maxsec term =>
      cases goes
      have own := ok.own_of_received pc
      obtain ⟨p, _, _⟩ := h
      obtain rfl := own
      exact ⟨cc.t, kind_eq, fun kind => absurd kind maxsec, fun kind => absurd kind term⟩
  | found pc kind points record search slot =>
      cases goes
      exact owned.ok_found at_w busy cc_eq pc kind points slot
  | @unfound t pc kind points =>
      cases goes
      have own := ok.own_of_received pc
      obtain ⟨p, _, _⟩ := h
      obtain rfl := own
      refine ⟨.term, by simpa using kind_eq.trans (congrArg some kind), nofun, fun _ =>
        ⟨-1, ?_, by decide⟩⟩
      exact CcMem.tblIdxAt_setTblIdx _ (well.of_links_eq rfl rfl rfl) (term_eq.trans points)
  | refused pc points refusal =>
      cases goes
      exact owned.ok_refused at_w busy cc_eq answers pc points refusal
  | granted pc points grant =>
      cases goes
      exact owned.ok_granted at_w busy cc_eq pc points grant
  | @seated rtp tbl pc taken =>
      cases goes
      have own := ok.own_of_inMaxsec (.inr ⟨rtp, pc⟩)
      obtain ⟨p, _, _⟩ := h
      obtain rfl := pc
      obtain rfl := own
      obtain ⟨i, free, rfl⟩ := occupy_eq_set taken
      obtain ⟨inside, -⟩ := List.getElem?_eq_some_iff.mp free
      exact ⟨ok.1, ok.2.1, ok.2.2, i, rtp, List.getElem?_set_self inside⟩
  | @full rtp m pc points =>
      cases goes
      refine CcHandler.ok_of_refusal well (max_eq.trans points) ?_ (inMaxsec (.inr ⟨rtp, pc⟩))
        (ok.own_of_inMaxsec (.inr ⟨rtp, pc⟩))
      cases thread.proto <;> decide
  | attached pc slot points =>
      cases goes
      exact owned.ok_attached at_w busy cc_eq pc slot points
  | @missed i pc absent =>
      obtain ⟨call, -, ⟨rtp, slot⟩, t, -, own_t⟩ := ok.lends_of_inTerm (.inl pc)
      rcases absent with no_term | no_call
      · rw [term_eq, no_term] at own_t
        cases own_t
      · exact absurd slot (no_call (call, rtp))
  | noted pc points =>
      cases goes
      exact owned.ok_noted at_w busy cc_eq pc points
  | acked pc =>
      cases goes
      exact owned.ok_acked at_w busy cc_eq pc
  | closed pc => cases goes
  | kept pc status =>
      cases goes
      obtain ⟨p, _, hold⟩ := h
      obtain rfl := pc
      cases hold with
      | own =>
          have deactive : s.shared.mem.statusAt p = some .deactive := ok
          rw [CcMem.statusAt, cc_eq, Option.map_some, status] at deactive
          cases deactive
      | seated => exact ok
      | handed call => exact ok
  | released pc => cases goes
  | left pc => cases goes

/-- A handler leaves the requests of the others alone. -/
theorem Owned.view_move {q : ℕ} (other : q ≠ h.cc) :
    shared.mem.view q = s.shared.mem.view q := by
  have well := owned.linked.mem
  have kind_eq := CcMem.kind_of_get? cc_eq
  have max_other {m : ℕ} (points : cc.max = some m) : s.shared.mem.links.maxPtr q ≠ some m :=
    fun points' => other (well.max_inj q h.cc m points'
      ((CcMem.maxPtr_of_get? cc_eq).trans points))
  have term_other {t : ℕ} (kind : s.shared.mem.links.kind h.cc = some .term)
      (points : cc.term = some t) (kind' : s.shared.mem.links.kind q = some .term) :
      s.shared.mem.links.termPtr q ≠ some t :=
    fun points' => other (well.term_inj q h.cc t kind' kind points'
      ((CcMem.termPtr_of_get? cc_eq).trans points))
  have attach {i call : ℕ} {rtp : Racc} (slot : s.shared.tbl[i]? = some (some (call, rtp))) :
      ∃ called, s.shared.mem.cc.get? call = some called ∧ called.t = .maxsec :=
    Option.map_eq_some_iff.mp (owned.linked.seated i call ⟨rtp, slot⟩)
  cases move with
  | denied pc kind points => exact CcMem.view_setMaxsec _ (max_other points)
  | ended pc => exact CcMem.view_setStatus _ other
  | found pc kind points record search slot same =>
      obtain ⟨called, called_eq, called_kind⟩ := attach slot
      exact CcMem.view_setTerm called_eq called_kind
  | unfound pc kind points =>
      exact CcMem.view_setTblIdx _ (term_other (kind_eq.trans (congrArg some kind)) points)
  | refused pc points => exact CcMem.view_setMaxsec _ (max_other points)
  | granted pc points => exact CcMem.view_setMaxsec _ (max_other points)
  | full pc points => exact CcMem.view_setMaxsec _ (max_other points)
  | attached pc slot points =>
      obtain ⟨called, called_eq, called_kind⟩ := attach slot
      exact CcMem.view_setTerm called_eq called_kind
  | @noted i t pc points =>
      have kind := (owned.linked.inTerm thread (List.mem_of_getElem? at_w) h i busy (.inr pc)).1
      exact CcMem.view_setTblIdx _ (term_other kind points)
  | acked pc => exact CcMem.view_reply other
  | closed pc => exact CcMem.view_ccFree _ _ _
  | released pc => exact CcMem.view_freeCc _ _ _
  | _ => rfl

/-- Each object keeps its owner, goes from one to another, or is freed by it. -/
theorem Owned.books_move (unended : FindsUnended s.shared h) :
    shared.mem.BooksOf (s.threads.set w { thread with handler }) shared.tbl := by
  have member : thread ∈ s.threads := List.mem_of_getElem? at_w
  have ok := owned.ok thread member h busy
  have well := owned.linked.mem
  have read := owned.books.useCc h.cc
  have allocated : h.cc < (s.shared.mem.useCc h.cc).cc.next := by
    by_contra absent
    rw [s.shared.mem.cc.get?_eq_none h.cc (not_lt.mp absent)] at cc_eq
    cases cc_eq
  cases move with
  | denied pc kind points => exact booksOf_quiet at_w busy (read.setMaxsec _ _) (by simp) rfl rfl
  | counted pc => exact booksOf_quiet at_w busy ((read.useMax _).look _) (by simp) rfl rfl
  | ended pc => exact booksOf_quiet at_w busy (read.setStatus _ _) (by simp) rfl rfl
  | passed pc => exact booksOf_quiet at_w busy read rfl rfl rfl
  | @found t i call term rtp pc kind points record search slot same =>
      refine owned.books_found at_w busy cc_eq pc points slot ?_
      exact unended pc t term i call ((CcMem.termPtr_of_get? cc_eq).trans points) record search
        ⟨rtp, slot⟩
  | unfound pc kind points =>
      exact booksOf_quiet at_w busy (((read.useTerm _).look _).setTblIdx _ _) (by simp) rfl rfl
  | refused pc points => exact booksOf_quiet at_w busy (read.setMaxsec _ _) (by simp) rfl rfl
  | granted pc points => exact booksOf_quiet at_w busy (read.setMaxsec _ _) (by simp) rfl rfl
  | @seated rtp tbl pc taken =>
      have own := ok.own_of_inMaxsec (.inr ⟨rtp, pc⟩)
      obtain ⟨i, free, rfl⟩ := occupy_eq_set taken
      have owns_cc : thread.ownsCc = some h.cc := by simp [CcThread.ownsCc, busy, own]
      have owns_term : thread.ownsTerm = some h.cc := by simp [CcThread.ownsTerm, busy, own]
      have seated_cc : CcThread.ownsCc { thread with
          handler := some { h with pc := .served, hold := .seated } } = none := by
        simp [CcThread.ownsCc]
      have seated_term : CcThread.ownsTerm { thread with
          handler := some { h with pc := .served, hold := .seated } } = none := by
        simp [CcThread.ownsTerm]
      dsimp only
      rw [CcMem.BooksOf, CcMem.links_useCc, heldBy_setThread _ at_w, heldBy_setThread _ at_w,
        heldBy_setThread _ at_w, heldBy_setSlot _ free, heldBy_setSlot _ free,
        heldBy_setSlot _ free,
        owns_cc, owns_term, seated_cc, seated_term]
      simpa [slotCc] using read
  | full pc points => exact booksOf_quiet at_w busy (read.setMaxsec _ _) (by simp) rfl rfl
  | attached pc slot points =>
      obtain ⟨-, -, links_eq⟩ := owned.attach_again at_w busy cc_eq pc slot points
      exact booksOf_quiet at_w busy (read.setTerm _ _) links_eq rfl rfl
  | missed pc => exact booksOf_quiet at_w busy read rfl rfl rfl
  | noted pc points => exact booksOf_quiet at_w busy (read.setTblIdx _ _) (by simp) rfl rfl
  | acked pc => exact booksOf_quiet at_w busy (read.reply _ _ _) (by simp) rfl rfl
  | closed pc status =>
      have own := ok.own_of_deactive pc (by rw [CcMem.statusAt, cc_eq, Option.map_some, status])
      have owns_cc : thread.ownsCc = some h.cc := by simp [CcThread.ownsCc, busy, own]
      have owns_term : thread.ownsTerm = some h.cc := by simp [CcThread.ownsTerm, busy, own]
      have freed := read.ccFree (well.of_links_eq rfl rfl rfl) (allocated)
      dsimp only
      rw [CcMem.BooksOf, CcMem.links_ccFree, heldBy_setThread _ at_w, heldBy_setThread _ at_w,
        heldBy_setThread _ at_w, owns_cc, owns_term]
      simpa [CcThread.ownsCc, CcThread.ownsTerm, sub_eq_add_neg] using freed
  | kept pc => exact booksOf_quiet at_w busy read rfl rfl rfl
  | released pc kind =>
      have max_none : s.shared.mem.links.maxPtr h.cc = none := by
        have not_max := (well.max_iff h.cc).not.mpr (by simp [CcMem.kind_of_get? cc_eq, kind])
        simpa using not_max
      obtain ⟨call, hold⟩ := ok.handed_of_kept pc (by rw [CcMem.kind_of_get? cc_eq, kind])
      have owns_cc : thread.ownsCc = some h.cc := by simp [CcThread.ownsCc, busy, hold]
      have owns_term : thread.ownsTerm = none := by simp [CcThread.ownsTerm, busy, hold]
      have freed := read.freeCc allocated
      dsimp only
      rw [CcMem.BooksOf, CcMem.links_freeCc, heldBy_setThread _ at_w, heldBy_setThread _ at_w,
        heldBy_setThread _ at_w, owns_cc, owns_term, Option.bind_some, Option.bind_some,
        CcMem.links_useCc, max_none]
      simpa [CcThread.ownsCc, CcThread.ownsTerm, sub_eq_add_neg] using freed
  | left pc kind =>
      have hold := ok.seated_of_kept pc (by simp [CcMem.kind_of_get? cc_eq, kind])
      have owns_cc : thread.ownsCc = none := by simp [CcThread.ownsCc, busy, hold]
      have owns_term : thread.ownsTerm = none := by simp [CcThread.ownsTerm, busy, hold]
      dsimp only [CcHandler.read]
      rw [CcMem.BooksOf, CcMem.links_useCc, heldBy_setThread _ at_w, heldBy_setThread _ at_w,
        heldBy_setThread _ at_w, owns_cc, owns_term]
      simpa [CcThread.ownsCc, CcThread.ownsTerm] using read

/-- A handler moves no pointer but that of a call without a termination. -/
theorem Owned.links_move (unended : FindsUnended s.shared h) :
    shared.mem.links = s.shared.mem.links ∨
      ∃ i call t, s.shared.At i call ∧ s.shared.mem.links.termPtr call = none ∧
        shared.mem.links = s.shared.mem.links.attach call t := by
  cases move with
  | @found t i call term rtp pc kind points record search slot same =>
      obtain ⟨called, called_eq, -⟩ :=
        Option.map_eq_some_iff.mp (owned.linked.seated i call ⟨rtp, slot⟩)
      refine .inr ⟨i, call, t, ⟨rtp, slot⟩, ?_, CcMem.links_setTerm _ called_eq⟩
      exact unended pc t term i call ((CcMem.termPtr_of_get? cc_eq).trans points) record search
        ⟨rtp, slot⟩
  | attached pc slot points => exact .inl (owned.attach_again at_w busy cc_eq pc slot points).2.2
  | _ => exact .inl (by simp [CcHandler.read])

/-- A step of one handler keeps the other handlers where they stand. -/
theorem Owned.ok_other (unended : FindsUnended s.shared h) {w' : ℕ} (other : w ≠ w')
    {thread' : CcThread} {h' : CcHandler} (at_w' : s.threads[w']? = some thread')
    (busy' : thread'.handler = some h') : h'.Ok thread'.proto shared := by
  have member' : thread' ∈ s.threads := List.mem_of_getElem? at_w'
  have cc_ne : h'.cc ≠ h.cc := fun same =>
    other (owned.distinct w w' thread thread' h h' at_w at_w' busy busy' same.symm)
  obtain ⟨kind_eq, -, -, -⟩ := move.links_kept owned.linked.seated
  have links_cases := owned.links_move at_w busy cc_eq move unended
  refine (owned.ok thread' member' h' busy').frame (congrFun kind_eq _)
    (owned.view_move at_w busy cc_eq move cc_ne) ?_ ?_ ?_
  · rintro i call - ⟨rtp, slot⟩
    rcases move.tbl_cases with same | ⟨-, j, rtp', free, taken⟩
    · exact ⟨rtp, same ▸ slot⟩
    · refine ⟨rtp, ?_⟩
      rw [taken, List.getElem?_set_ne, slot]
      rintro rfl
      rw [free] at slot
      cases slot
  · rintro i call - ⟨at_call, t, call_t, -⟩
    rcases links_cases with same | ⟨j, target, t', at_target, target_none, attached⟩
    · rw [same]
    · rw [attached]
      refine Function.update_of_ne ?_ _ _
      rintro rfl
      rw [target_none] at call_t
      cases call_t
  · intro kind
    rcases links_cases with same | ⟨j, target, t', at_target, -, attached⟩
    · rw [same]
    · rw [attached]
      refine Function.update_of_ne ?_ _ _
      rintro same
      rw [same, owned.linked.seated j target at_target] at kind
      cases kind

theorem Owned.advanced (answers : AnswersMaxsec thread h) (unended : FindsUnended s.shared h) :
    Owned { s with shared, threads := s.threads.set w { thread with handler } } where
  linked := linked_advanced owned.linked at_w busy cc_eq move
  faultless := owned.faultless_move at_w busy cc_eq move
  books := owned.books_move at_w busy cc_eq move unended
  ok thread' member' h' busy' := by
    obtain ⟨j, at_j⟩ := List.mem_iff_getElem?.mp member'
    dsimp only at at_j
    rw [List.getElem?_set] at at_j
    split at at_j
    · split at at_j
      · obtain rfl := Option.some.inj at_j
        exact owned.ok_move at_w busy cc_eq move answers busy'
      · cases at_j
    · exact owned.ok_other at_w busy cc_eq move unended ‹_› at_j busy'
  distinct j j' thread' thread'' h' h'' at_j at_j' busy' busy'' same := by
    have request {j : ℕ} {thread' : CcThread} {h' : CcHandler}
        (at_j : (s.threads.set w { thread with handler })[j]? = some thread')
        (busy' : thread'.handler = some h') :
        ∃ before h₀, s.threads[j]? = some before ∧ before.handler = some h₀ ∧ h₀.cc = h'.cc := by
      rw [List.getElem?_set] at at_j
      split at at_j
      · split at at_j
        · obtain rfl := Option.some.inj at_j
          rename_i w_eq _
          exact ⟨thread, h, w_eq ▸ at_w, busy, (move.handler_cases busy').1.symm⟩
        · cases at_j
      · exact ⟨thread', h', at_j, busy', rfl⟩
    obtain ⟨before, h₀, before_at, before_busy, cc_eq⟩ := request at_j busy'
    obtain ⟨before', h₀', before_at', before_busy', cc_eq'⟩ := request at_j' busy''
    exact owned.distinct j j' before before' h₀ h₀' before_at before_at' before_busy before_busy'
      (cc_eq.trans (same.trans cc_eq'.symm))

end Move

theorem Owned.request_lt {thread : CcThread} {h : CcHandler} (member : thread ∈ s.threads)
    (busy : thread.handler = some h) : h.cc < s.shared.mem.cc.next := by
  obtain ⟨cc, cc_eq⟩ := (owned.ok thread member h busy).exists_cc
  by_contra absent
  rw [s.shared.mem.cc.get?_eq_none h.cc (not_lt.mp absent)] at cc_eq
  cases cc_eq

/-- Nobody owns an object that is not allocated yet. -/
theorem Owned.next_unheld : held CcThread.ownsCc s.threads s.shared.mem.cc.next = 0 ∧
    held CcThread.ownsTerm s.threads s.shared.mem.cc.next = 0 ∧
      held slotCc s.shared.tbl s.shared.mem.cc.next = 0 := by
  have none := owned.books.cc s.shared.mem.cc.next
  rw [if_neg (lt_irrefl _), heldBy_some, Pi.add_apply] at none
  have cc_nonneg := held_nonneg CcThread.ownsCc s.threads s.shared.mem.cc.next
  have term_nonneg := held_nonneg CcThread.ownsTerm s.threads s.shared.mem.cc.next
  have slot_nonneg := held_nonneg slotCc s.shared.tbl s.shared.mem.cc.next
  have term_le := held_ownsTerm_le s.threads s.shared.mem.cc.next
  omega

/-- What is owned of the old objects stays when a request brings new ones. -/
theorem Owned.heldBy_receive (r : CcRequest) :
    heldBy CcThread.ownsCc (s.shared.mem.receive r).links.maxPtr s.threads s.shared.tbl =
        heldBy CcThread.ownsCc s.shared.mem.links.maxPtr s.threads s.shared.tbl ∧
      heldBy CcThread.ownsTerm (s.shared.mem.receive r).links.termPtr s.threads s.shared.tbl =
        heldBy CcThread.ownsTerm s.shared.mem.links.termPtr s.threads s.shared.tbl := by
  obtain ⟨cc_none, term_none, slot_none⟩ := owned.next_unheld
  rw [CcMem.links_receive]
  constructor
  · rw [heldBy_update fun q q_ne => Function.update_of_ne q_ne _ _, cc_none, slot_none]
    simp
  · rw [heldBy_update fun q q_ne => Function.update_of_ne q_ne _ _, term_none, slot_none]
    simp

theorem Owned.ok_receive {mem : CcMem} (r : CcRequest)
    (links_eq : mem.links = (s.shared.mem.receive r).links)
    (view_eq : ∀ q, mem.view q = (s.shared.mem.receive r).view q) {thread : CcThread}
    {h : CcHandler} (member : thread ∈ s.threads) (busy : thread.handler = some h) :
    h.Ok thread.proto { s.shared with mem } := by
  have old {q : ℕ} (q_ne : q ≠ s.shared.mem.cc.next) :
      mem.links.kind q = s.shared.mem.links.kind q ∧
        mem.links.termPtr q = s.shared.mem.links.termPtr q := by
    rw [links_eq, CcMem.links_receive]
    exact ⟨Function.update_of_ne q_ne _ _, Function.update_of_ne q_ne _ _⟩
  have h_ne := (owned.request_lt member busy).ne
  refine (owned.ok thread member h busy).frame (old h_ne).1 ?_ (fun i call _ => id) ?_
    fun _ => (old h_ne).2
  · exact (view_eq h.cc).trans (CcMem.view_receive owned.linked.mem r h_ne)
  · rintro i call - ⟨at_call, -⟩
    have call_ne : call ≠ s.shared.mem.cc.next := by
      rintro rfl
      have kind := owned.linked.seated i _ at_call
      rw [CcMem.kind_eq_none le_rfl] at kind
      cases kind
    exact (old call_ne).2

theorem Owned.faultless_receive (r : CcRequest) : (s.shared.mem.receive r).Faultless := by
  refine ⟨owned.faultless.cc, ?_, ?_⟩
  · rw [CcMem.receive]
    cases r.max <;> exact owned.faultless.max
  · rw [CcMem.receive]
    cases r.term <;> exact owned.faultless.term

/-- A request that arrives is owned by its thread, unless the parser has freed it again. -/
theorem Owned.received {w : ℕ} {thread : CcThread} (idle : s.threads[w]? = some thread)
    (free : thread.handler = none) {input : CcInput} (complete : input.IsComplete) :
    (s.receive w thread input.parse).Owned := by
  have linked' := linked_receive owned.linked w thread input.parse
  have next_lt : s.shared.mem.cc.next < (s.shared.mem.receive input.parse.objects).cc.next := by
    simp [CcMem.receive]
  obtain ⟨max_held, term_held⟩ := owned.heldBy_receive input.parse.objects
  cases parse_eq : input.parse with
  | request r =>
      rw [parse_eq] at linked' max_held term_held
      have max_new : (s.shared.mem.receive r).links.maxPtr s.shared.mem.cc.next =
          r.max.map fun _ => s.shared.mem.max.next := by
        rw [CcMem.links_receive]
        exact Function.update_self _ _ _
      have term_new : (s.shared.mem.receive r).links.termPtr s.shared.mem.cc.next =
          r.term.map fun _ => s.shared.mem.term.next := by
        rw [CcMem.links_receive]
        exact Function.update_self _ _ _
      have owns_cc : thread.ownsCc = none := by simp [CcThread.ownsCc, free]
      have owns_term : thread.ownsTerm = none := by simp [CcThread.ownsTerm, free]
      refine ⟨linked', owned.faultless_receive r, ?_, ?_, ?_⟩
      · have books := owned.books.receive r
        rw [← max_held, ← term_held, ← max_new, ← term_new] at books
        simp only [receive, CcMem.BooksOf]
        rw [heldBy_setThread _ idle, heldBy_setThread _ idle, heldBy_setThread _ idle, owns_cc,
          owns_term]
        simpa [CcThread.ownsCc, CcThread.ownsTerm, CcParse.objects] using books
      · intro thread' member' h' busy'
        rcases mem_threads_receive member' with old | rfl
        · exact owned.ok_receive r rfl (fun _ => rfl) old busy'
        · cases busy'
          simp [CcHandler.Ok, receive, CcMem.statusAt, CcMem.receive, ObjectHeap.get?_alloc]
      · have request {j : ℕ} {thread' : CcThread} {h' : CcHandler}
            (at_j : (s.receive w thread (.request r)).threads[j]? = some thread')
            (busy' : thread'.handler = some h') :
            j = w ∧ h'.cc = s.shared.mem.cc.next ∨
              s.threads[j]? = some thread' ∧ h'.cc < s.shared.mem.cc.next := by
          rw [receive, List.getElem?_set] at at_j
          split at at_j
          · split at at_j
            · obtain rfl := Option.some.inj at_j
              cases busy'
              exact .inl ⟨Eq.symm ‹_›, rfl⟩
            · cases at_j
          · exact .inr ⟨at_j, owned.request_lt (List.mem_of_getElem? at_j) busy'⟩
        intro j j' thread' thread'' h' h'' at_j at_j' busy' busy'' same
        rcases request at_j busy' with ⟨rfl, new⟩ | ⟨old, lt⟩ <;>
          rcases request at_j' busy'' with ⟨rfl, new'⟩ | ⟨old', lt'⟩
        · rfl
        · omega
        · omega
        · exact owned.distinct j j' thread' thread'' h' h'' old old' busy' busy'' same
  | freed r =>
      rw [parse_eq] at linked' max_held term_held next_lt
      have unkn := input.freed_unkn parse_eq
      have no_max : r.max = none := by simpa [unkn] using r.max_iff
      have no_term : r.term = none := by simpa [unkn] using r.term_iff
      refine ⟨linked', ?_, ?_, ?_, owned.distinct⟩
      · exact ⟨owned.faultless.cc, (owned.faultless_receive r).max,
          (owned.faultless_receive r).term⟩
      · have books := (owned.books.receive r).freeCc next_lt
        rw [no_max, no_term, ← max_held, ← term_held] at books
        simp only [receive, CcMem.BooksOf, CcMem.links_freeCc]
        simpa [CcParse.objects] using books
      · intro thread' member' h' busy'
        exact owned.ok_receive r (CcMem.links_freeCc _ _) (fun q => CcMem.view_freeCc _ _ q) member'
          busy'
  | abandoned r => exact absurd complete (input.parse_abandoned_iff.mp ⟨r, parse_eq⟩)

/-- A step that moves no pointer and keeps the slots and the answers that handlers go by. -/
theorem Owned.ok_of_links_eq {shared : CcShared} (links_eq : shared.mem.links = s.shared.mem.links)
    {thread : CcThread} {h : CcHandler} (member : thread ∈ s.threads)
    (busy : thread.handler = some h) (view_eq : shared.mem.view h.cc = s.shared.mem.view h.cc)
    (used : ∀ i call, h.Uses call → s.shared.At i call → shared.At i call) :
    h.Ok thread.proto shared :=
  (owned.ok thread member h busy).frame (by rw [links_eq]) view_eq used
    (fun _ _ _ _ => by rw [links_eq])
    fun _ => by rw [links_eq]

/-- The janitor reads a call of the table. -/
theorem Owned.judged {i p : ℕ} (callMaxsecLimit : ℕ) (now : ℤ) (at_p : s.shared.At i p)
    (linked' : (s.judge i p callMaxsecLimit now).Linked) :
    (s.judge i p callMaxsecLimit now).Owned := by
  obtain ⟨cc_unfreed, max_unfreed, term_unfreed⟩ := owned.slot_unfreed at_p
  have read := owned.faultless.useCc cc_unfreed
  have books := owned.books.useCc p
  unfold judge at linked' ⊢
  dsimp only at linked' ⊢
  split at linked' <;> refine ⟨linked', ?_, ?_, ?_, owned.distinct⟩
  · rename_i t points
    exact read.useTerm_one (term_unfreed t points)
  · exact books.useTerm _
  · exact fun thread member h busy => owned.ok_of_links_eq rfl member busy rfl fun _ _ _ => id
  · exact read.useMax fun m member => max_unfreed m (Option.mem_toList.mp member)
  · exact books.useMax _
  · exact fun thread member h busy => owned.ok_of_links_eq rfl member busy rfl fun _ _ _ => id

/-- The janitor frees a call that no handler uses any more. -/
theorem Owned.cleared {i p : ℕ} {rtp : Racc} (slot : s.shared.tbl[i]? = some (some (p, rtp)))
    (linked' : (s.clear i p).Linked)
    (unused : ∀ thread ∈ s.threads, ∀ h, thread.handler = some h → ¬ h.Uses p) :
    (s.clear i p).Owned := by
  obtain ⟨cc_unfreed, max_unfreed, term_unfreed⟩ := owned.slot_unfreed ⟨rtp, slot⟩
  have links_eq : (s.shared.mem.setStatus p .deactive).links = s.shared.mem.links := by simp
  have allocated : p < (s.shared.mem.setStatus p .deactive).cc.next := by
    rw [CcMem.setStatus, ObjectHeap.next_write]
    exact owned.books.cc.lt_next (heldBy_pos_slot slot rfl)
  refine ⟨linked', ?_, ?_, ?_, owned.distinct⟩
  · refine (owned.faultless.setStatus .deactive cc_unfreed).ccFree ?_ ?_ ?_
    · rw [CcMem.setStatus, ObjectHeap.frees_write]
      exact cc_unfreed
    · rw [links_eq]
      exact max_unfreed
    · rw [links_eq]
      exact term_unfreed
  · have freed := (owned.books.setStatus p .deactive).ccFree
      (owned.linked.mem.of_links_eq links_eq rfl rfl) allocated
    simp only [clear, CcMem.BooksOf, CcMem.links_ccFree, links_eq]
    rw [heldBy_setSlot _ slot, heldBy_setSlot _ slot, heldBy_setSlot _ slot]
    rw [links_eq] at freed
    simpa [slotCc, sub_eq_add_neg] using freed
  · intro thread member h busy
    have other : h.cc ≠ p := by
      rintro rfl
      by_cases seated : h.hold = .seated
      · exact unused thread member h busy (by rw [CcHandler.Uses, seated])
      · have own : thread.ownsCc = some h.cc := by
          rw [CcThread.ownsCc, busy, Option.bind_some, if_neg seated]
        have thread_pos : 1 ≤ held CcThread.ownsCc s.threads h.cc := held_pos member own
        rw [(owned.slot_alone ⟨rtp, slot⟩).1] at thread_pos
        exact absurd thread_pos (by decide)
    refine owned.ok_of_links_eq (by simp [clear]) member busy ?_ ?_
    · exact (CcMem.view_ccFree _ _ _).trans (CcMem.view_setStatus _ other)
    · rintro j call uses ⟨rtp', slot'⟩
      refine ⟨rtp', ?_⟩
      rw [clear, List.getElem?_set_ne, slot']
      rintro rfl
      rw [slot] at slot'
      cases slot'
      exact unused thread member h busy uses

end Owned

/-! ## Runs -/

/-- Requests are complete, refusals are recognised, a search finds a call without a termination, and
the janitor clears a call when no handler uses it any more. -/
def ReleasesInTurn (s : CcProcess) : CcAction → Prop
  | .receive _ input => input.IsComplete
  | .advance w _ _ => ∀ thread h, s.threads[w]? = some thread → thread.handler = some h →
      AnswersMaxsec thread h ∧ FindsUnended s.shared h
  | .judge .. => True
  | .clear => ∀ i p, s.janitor = some i → s.shared.At i p →
      ∀ thread ∈ s.threads, ∀ h, thread.handler = some h → ¬ h.Uses p

theorem owned_start (slots : ℕ) (threads : List (CcProto × Bool)) :
    (start slots threads).Owned := by
  have idle {thread : CcThread} (member : thread ∈ (start slots threads).threads) :
      thread.handler = none := by
    obtain ⟨pair, -, rfl⟩ := List.mem_map.mp member
    rfl
  have unheld {owns : CcThread → Option ℕ} (ptr : ℕ → Option ℕ)
      (idles : ∀ thread : CcThread, thread.handler = none → owns thread = none) :
      heldBy owns ptr (start slots threads).threads (start slots threads).shared.tbl = 0 := by
    have threads_unheld : held (fun thread => (owns thread).bind ptr)
        (start slots threads).threads = 0 :=
      held_eq_zero fun thread member => by rw [idles thread (idle member), Option.bind_none]
    have slots_unheld : held (fun cell => (slotCc cell).bind ptr)
        (start slots threads).shared.tbl = 0 :=
      held_eq_zero fun cell member => by rw [(List.mem_replicate.mp member).2]; rfl
    rw [heldBy, threads_unheld, slots_unheld, add_zero]
  refine ⟨linked_start slots threads, ⟨rfl, rfl, rfl⟩, ?_, ?_, ?_⟩
  · have owns_cc (thread : CcThread) (free : thread.handler = none) : thread.ownsCc = none := by
      rw [CcThread.ownsCc, free, Option.bind_none]
    have owns_term (thread : CcThread) (free : thread.handler = none) : thread.ownsTerm = none := by
      rw [CcThread.ownsTerm, free, Option.bind_none]
    rw [CcMem.BooksOf, unheld _ owns_cc, unheld _ owns_cc, unheld _ owns_term]
    exact ⟨.empty, .empty, .empty⟩
  · intro thread member h busy
    rw [idle member] at busy
    cases busy
  · intro w w' thread thread' h h' at_w at_w' busy
    rw [idle (List.mem_of_getElem? at_w)] at busy
    cases busy

theorem owned_step {s s' : CcProcess} {action : CcAction} (inTurn : s.ReleasesInTurn action)
    (steps : s.step action = some s') (owned : s.Owned) : s'.Owned := by
  have linked' := linked_step steps owned.linked
  cases moves_of_step steps with
  | received input idle free => exact owned.received idle free inTurn
  | advanced at_w busy cc_eq move =>
      obtain ⟨answers, unended⟩ := inTurn _ _ at_w busy
      exact owned.advanced at_w busy cc_eq move answers unended
  | judged slot => exact owned.judged _ _ ⟨_, slot⟩ linked'
  | passed => exact owned
  | @cleared i p rtp janitor slot =>
      exact owned.cleared slot linked' (inTurn i p janitor ⟨rtp, slot⟩)

/-- A running handler or a slot has the `cc_t`. -/
def Reaches (s : CcProcess) (p : ℕ) : Prop :=
  (∃ thread ∈ s.threads, ∃ h, thread.handler = some h ∧ h.cc = p) ∨ ∃ i, s.shared.At i p

/-- No freed object was used, and every object was freed once or is not freed and still in the hands
of a handler or of the table. -/
structure FreedOnce (s : CcProcess) : Prop where
  unused : s.shared.mem.Faultless
  cc : ∀ p < s.shared.mem.cc.next, s.shared.mem.cc.frees p = 1 ∨
    s.shared.mem.cc.frees p = 0 ∧ s.Reaches p
  max : ∀ m < s.shared.mem.max.next, s.shared.mem.max.frees m = 1 ∨
    s.shared.mem.max.frees m = 0 ∧ ∃ p, s.Reaches p ∧ s.shared.mem.maxPtr p = some m
  term : ∀ t < s.shared.mem.term.next, s.shared.mem.term.frees t = 1 ∨
    s.shared.mem.term.frees t = 0 ∧ ∃ p, s.Reaches p ∧ s.shared.mem.termPtr p = some t

/-- No request is running and the table is empty. -/
def AtRest (s : CcProcess) : Prop :=
  (∀ thread ∈ s.threads, thread.handler = none) ∧ ∀ cell ∈ s.shared.tbl, cell = none

theorem not_reaches_of_atRest {s : CcProcess} (rest : s.AtRest) (p : ℕ) : ¬ s.Reaches p := by
  rintro (⟨thread, member, h, busy, -⟩ | ⟨i, rtp, slot⟩)
  · rw [rest.1 thread member] at busy
    cases busy
  · cases rest.2 _ (List.mem_of_getElem? slot)

/-- At rest every object was freed once. -/
theorem FreedOnce.frees_eq_one {s : CcProcess} (freedOnce : s.FreedOnce) (rest : s.AtRest) :
    (∀ p < s.shared.mem.cc.next, s.shared.mem.cc.frees p = 1) ∧
      (∀ m < s.shared.mem.max.next, s.shared.mem.max.frees m = 1) ∧
        ∀ t < s.shared.mem.term.next, s.shared.mem.term.frees t = 1 := by
  have unreached := not_reaches_of_atRest rest
  refine ⟨fun p allocated => ?_, fun m allocated => ?_, fun t allocated => ?_⟩
  · exact (freedOnce.cc p allocated).resolve_right fun kept => unreached p kept.2
  · refine (freedOnce.max m allocated).resolve_right ?_
    rintro ⟨-, p, reached, -⟩
    exact unreached p reached
  · refine (freedOnce.term t allocated).resolve_right ?_
    rintro ⟨-, p, reached, -⟩
    exact unreached p reached

/-- The owner of an object that was not freed is a handler or a slot. -/
theorem reaches_of_owner {s : CcProcess} {owns : CcThread → Option ℕ} {ptr : ℕ → Option ℕ} {p : ℕ}
    (of_thread : ∀ thread q, owns thread = some q → ∃ h, thread.handler = some h ∧ h.cc = q)
    (owner : 1 ≤ heldBy owns ptr s.threads s.shared.tbl p) : ∃ q, s.Reaches q ∧ ptr q = some p := by
  rcases exists_of_heldBy_pos owner with ⟨thread, member, own⟩ | ⟨i, q, rtp, slot, points⟩
  · obtain ⟨q, owned, points⟩ := Option.bind_eq_some_iff.mp own
    obtain ⟨h, busy, cc_eq⟩ := of_thread thread q owned
    exact ⟨q, .inl ⟨thread, member, h, busy, cc_eq⟩, points⟩
  · exact ⟨q, .inr ⟨i, rtp, slot⟩, points⟩

theorem Owned.freedOnce {s : CcProcess} (owned : s.Owned) : s.FreedOnce := by
  have owns_cc (thread : CcThread) (q : ℕ) (own : thread.ownsCc = some q) :
      ∃ h, thread.handler = some h ∧ h.cc = q := by
    obtain ⟨h, busy, own⟩ := Option.bind_eq_some_iff.mp own
    split at own
    · cases own
    · exact ⟨h, busy, Option.some.inj own⟩
  have owns_term (thread : CcThread) (q : ℕ) (own : thread.ownsTerm = some q) :
      ∃ h, thread.handler = some h ∧ h.cc = q := by
    obtain ⟨h, busy, own⟩ := Option.bind_eq_some_iff.mp own
    split at own
    · exact ⟨h, busy, Option.some.inj own⟩
    · cases own
  refine ⟨owned.faultless, fun p allocated => ?_, fun m allocated => ?_, fun t allocated => ?_⟩
  · refine (owned.books.cc.frees_or_held (heldBy_nonneg _ _ _ _) allocated).imp_right ?_
    rintro ⟨unfreed, owner⟩
    obtain ⟨q, reached, q_eq⟩ := reaches_of_owner owns_cc owner
    exact ⟨unfreed, Option.some.inj q_eq ▸ reached⟩
  · refine (owned.books.max.frees_or_held (heldBy_nonneg _ _ _ _) allocated).imp_right ?_
    rintro ⟨unfreed, owner⟩
    exact ⟨unfreed, reaches_of_owner owns_cc owner⟩
  · refine (owned.books.term.frees_or_held (heldBy_nonneg _ _ _ _) allocated).imp_right ?_
    rintro ⟨unfreed, owner⟩
    exact ⟨unfreed, reaches_of_owner owns_term owner⟩

/-- The condition on releases, as a check. -/
def releasesCheck (s : CcProcess) : CcAction → Bool
  | .receive _ input =>
      match input.parse with
      | .abandoned _ => false
      | _ => true
  | .advance w _ _ =>
      match s.threads[w]? with
      | some { proto, connected, handler := some h } =>
          match h.pc with
          | .received =>
              match (s.shared.mem.termPtr h.cc).bind s.shared.mem.term.get? with
              | some term =>
                  match (s.shared.searchCallUid term.callUid).bind (s.shared.tbl[·]?) with
                  | some (some (p, _)) => (s.shared.mem.termPtr p).isNone
                  | _ => true
              | none => true
          | .counted _ => connected || proto = .jsonrpcCc
          | _ => true
      | _ => true
  | .judge .. => true
  | .clear =>
      match s.janitor.bind (s.shared.tbl[·]?) with
      | some (some (p, _)) =>
          s.threads.all fun thread => thread.handler.all fun h =>
            match h.hold with
            | .own => true
            | .seated => h.cc ≠ p
            | .handed call => call ≠ p || h.pc = .acked || h.pc = .kept
      | _ => true

theorem releasesInTurn_of_check (s : CcProcess) (action : CcAction)
    (checked : s.releasesCheck action = true) : s.ReleasesInTurn action := by
  cases action with
  | receive w input =>
      by_contra incomplete
      obtain ⟨r, parse_eq⟩ := input.parse_abandoned_iff.mpr incomplete
      simp [releasesCheck, parse_eq] at checked
  | advance w env db =>
      rintro ⟨proto, connected, handler⟩ ⟨cc, pc, hold⟩ at_w busy
      dsimp only at busy
      subst busy
      simp only [releasesCheck, at_w] at checked
      constructor
      · rintro ⟨sim, pc_eq⟩
        dsimp only at pc_eq
        subst pc_eq
        simpa using checked
      · intro pc_eq t term i p points record search at_p
        obtain ⟨rtp, slot⟩ := at_p
        have found : (s.shared.mem.termPtr cc).bind s.shared.mem.term.get? = some term :=
          Option.bind_eq_some_iff.mpr ⟨t, points, record⟩
        dsimp only at pc_eq
        subst pc_eq
        rw [found] at checked
        simp only [search, Option.bind_some, slot] at checked
        exact Option.isNone_iff_eq_none.mp checked
  | judge => trivial
  | clear =>
      rintro i p janitor ⟨rtp, slot⟩ thread member ⟨cc, pc, hold⟩ busy uses
      simp only [releasesCheck, janitor, Option.bind_some, slot, List.all_eq_true] at checked
      have used := checked thread member
      rw [busy] at used
      cases hold with
      | own => exact uses
      | seated => simp_all [CcHandler.Uses]
      | handed call => simp_all [CcHandler.Uses]

/-- A call is granted and ended, and the janitor clears it after the replies. -/
def grantEndClear : List CcAction :=
  grantCall "first" ++ termFirst :: List.replicate 6 (go 1) ++ [.judge 0 3600 1709546431, .clear]

end CcProcess

end RateEngine
