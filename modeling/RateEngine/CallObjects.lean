import RateEngine.CallRequests
import RateEngine.Lib.ObjectHeap

/-!
# Call objects between handlers and the call table

A handler thread allocates the objects of a request, runs the event manager, replies and frees what
the call table has not taken over.  A termination finds its call under one lock and attaches its
record under another; the janitor reads the slots without the lock and clears them under it.  This
file is the system of these threads: each step of it is one critical section, or one stretch of code
between two of them, and every use of an object is recorded in the heap.
-/

namespace RateEngine

open Slots

/-! ## Memory -/

/-- `cc_status`. -/
inductive CcStatus where
  | active
  | deactive
deriving DecidableEq, Repr

/-- `cc_t`: the event, the pointers to the records and the status. -/
structure Cc where
  cdrServerId : ℕ
  t : CcEvents
  max : Option ℕ
  term : Option ℕ
  ccStatus : CcStatus := .active
deriving DecidableEq, Repr

/-- `cc_maxsec_t`. -/
structure CcMaxsec extends CcMax where
  maxsec : ℤ := 0
deriving DecidableEq, Repr

/-- `cc_term_t`. -/
structure CcTermRecord extends CcTerm where
  tblIdx : ℤ := 0
deriving DecidableEq, Repr

/-- The call objects of the process. -/
structure CcMem where
  cc : ObjectHeap Cc := {}
  max : ObjectHeap CcMaxsec := {}
  term : ObjectHeap CcTermRecord := {}
deriving DecidableEq, Repr

namespace CcMem

/-- `cc_ptr->max`. -/
def maxPtr (mem : CcMem) (p : ℕ) : Option ℕ := (mem.cc.get? p).bind Cc.max

/-- `cc_ptr->term`. -/
def termPtr (mem : CcMem) (p : ℕ) : Option ℕ := (mem.cc.get? p).bind Cc.term

/-- The `cc_maxsec_t` of a `cc_t`. -/
def maxAt (mem : CcMem) (p : ℕ) : Option CcMaxsec := (mem.maxPtr p).bind mem.max.get?

/-- Allocate the objects of a request. -/
def receive (mem : CcMem) (r : CcRequest) : CcMem where
  cc := mem.cc.alloc
    { cdrServerId := r.cdrServerId, t := r.t, max := r.max.map fun _ => mem.max.next,
      term := r.term.map fun _ => mem.term.next }
  max := r.max.elim mem.max fun max => mem.max.alloc { toCcMax := max }
  term := r.term.elim mem.term fun term => mem.term.alloc { toCcTerm := term }

/-- Read `cc_t`s and their records of seconds. -/
def look (mem : CcMem) (ps : List ℕ) : CcMem :=
  { mem with cc := mem.cc.use ps, max := mem.max.use (ps.filterMap mem.maxPtr) }

/-- Read one `cc_t`. -/
def useCc (mem : CcMem) (p : ℕ) : CcMem := { mem with cc := mem.cc.use [p] }

/-- Read `cc_maxsec_t`s. -/
def useMax (mem : CcMem) (ms : List ℕ) : CcMem := { mem with max := mem.max.use ms }

/-- Read `cc_term_t`s. -/
def useTerm (mem : CcMem) (ts : List ℕ) : CcMem := { mem with term := mem.term.use ts }

def setStatus (mem : CcMem) (p : ℕ) (ccStatus : CcStatus) : CcMem :=
  { mem with cc := mem.cc.write p fun cc => { cc with ccStatus } }

def setTerm (mem : CcMem) (p t : ℕ) : CcMem :=
  { mem with cc := mem.cc.write p fun cc => { cc with term := some t } }

def setMaxsec (mem : CcMem) (m : ℕ) (maxsec : ℤ) : CcMem :=
  { mem with max := mem.max.write m fun max => { max with maxsec } }

def setTblIdx (mem : CcMem) (t : ℕ) (tblIdx : ℤ) : CcMem :=
  { mem with term := mem.term.write t fun term => { term with tblIdx } }

/-- `mem_free` of a `cc_t` alone. -/
def freeCc (mem : CcMem) (p : ℕ) : CcMem := { mem with cc := mem.cc.free p }

/-- `cc_free` of a deactivated `cc_t`: the records it points to are read for the log and freed. -/
def ccFree (mem : CcMem) (p : ℕ) : CcMem where
  cc := (mem.cc.use [p]).free p
  max := (mem.maxPtr p).elim mem.max fun m => (mem.max.use [m]).free m
  term := (mem.termPtr p).elim mem.term fun t => (mem.term.use [t]).free t

end CcMem

/-! ## The call table -/

/-- The call objects and `cc_tbl`, whose slots hold the `cc_t` of a call and its account. -/
structure CcShared where
  mem : CcMem := {}
  tbl : List (Option (ℕ × Racc))
deriving DecidableEq, Repr

namespace CcShared

/-- The `cc_t`s of a stretch of the table. -/
def calls (cells : List (Option (ℕ × Racc))) : List ℕ := cells.filterMap (Option.map Prod.fst)

/-- The slot holds the call. -/
def At (s : CcShared) (i p : ℕ) : Prop := ∃ rtp, s.tbl[i]? = some (some (p, rtp))

/-- The slot holds a call with the `call_uid`. -/
def hasUid (mem : CcMem) (callUid : String) (cell : Option (ℕ × Racc)) : Bool :=
  cell.any fun slot => (mem.maxAt slot.1).any fun max => max.callUid = callUid

/-- `cc_server_call_search_call_uid`: the first slot of a call with the `call_uid`. -/
def searchCallUid (s : CcShared) (callUid : String) : Option ℕ :=
  s.tbl.findIdx? (hasUid s.mem callUid)

/-- `cc_server_call_search_racc`. -/
def searchRacc (s : CcShared) (clg : String) : ℤ :=
  (calls s.tbl).countP fun p => (s.mem.maxAt p).any fun max => max.clg = clg

end CcShared

/-! ## Handlers -/

/-- Where a handler stands: before the event manager; in `cc_maxsec_f` after the count and after the
grant; in `cc_term_f` after the search and after `cc_server_call_term`; after the event manager,
after the reply, and after it has read an active status. -/
inductive CcPc where
  | received
  | counted (sim : ℤ)
  | admitted (rtp : Racc)
  | found (i : ℕ)
  | attached (i : ℕ)
  | served
  | acked
  | kept
deriving DecidableEq, Repr

/-- What the table holds of the request: nothing, its `cc_t`, or its `cc_term_t` in a call that the
search found.  No step depends on it. -/
inductive CcHold where
  | own
  | seated
  | handed (call : ℕ)
deriving DecidableEq, Repr

/-- A request in the hands of a handler. -/
structure CcHandler where
  cc : ℕ
  pc : CcPc := .received
  hold : CcHold := .own
deriving DecidableEq, Repr

/-- `CC_MAXSEC_NO_PRE`. -/
def ccMaxsecNoPre : ℤ := -9

/-- `CC_MAXSEC_NO_CCTBL`. -/
def ccMaxsecNoCctbl : ℤ := -10

namespace CcHandler

/-- `cc_event_manager` up to the first step that waits for other threads.  The search attaches the
record when it finds the call. -/
def eventManager (s : CcShared) (h : CcHandler) (cc : Cc) : Option (CcShared × CcHandler) :=
  match cc.t with
  | .maxsec =>
      match cc.max.bind fun m => (s.mem.max.get? m).map fun max => (m, max) with
      | none => none
      | some (m, max) =>
          if max.clg = "" then
            some ({ s with mem := s.mem.setMaxsec m ccMaxsecNoPre }, { h with pc := .served })
          else
            let mem := (s.mem.useMax [m]).look (CcShared.calls s.tbl)
            some ({ s with mem }, { h with pc := .counted (s.searchRacc max.clg) })
  | .balance | .rate | .cprice =>
      some ({ s with mem := s.mem.setStatus h.cc .deactive }, { h with pc := .served })
  | .term =>
      match cc.term.bind fun t => (s.mem.term.get? t).map fun term => (t, term) with
      | none => none
      | some (t, term) =>
          let read := s.mem.useTerm [t]
          match s.searchCallUid term.callUid with
          | some i =>
              match s.tbl[i]? with
              | some (some (call, _)) =>
                  let mem := (read.look (CcShared.calls (s.tbl.take (i + 1)))).setTerm call t
                  some ({ s with mem }, { h with pc := .found i, hold := .handed call })
              | _ => none
          | none =>
              let mem := (read.look (CcShared.calls s.tbl)).setTblIdx t (-1)
              some ({ s with mem }, { h with pc := .served })
  | .unkn | .status => some (s, { h with pc := .served })

/-- The answer of `rt_maxsec`, which leaves the zeroed record alone on a thread without a database
connection. -/
def maxsec (connected : Bool) (env : Env) (db : Db) (cdrServerId : ℕ) (max : CcMaxsec) (sim : ℤ) :
    ℤ × Option Racc :=
  if connected then
    let answer := rtMaxsec env db (ccMaxsecPre cdrServerId max.toCcMax) sim
    (answer.1.maxsec, answer.2.1)
  else (0, none)

/-- The reply reads the record of the event and may end the request. -/
def reply (proto : CcProto) (mem : CcMem) (h : CcHandler) (cc : Cc) : CcMem :=
  let read :=
    match cc.t with
    | .maxsec => mem.useMax cc.max.toList
    | .term => mem.useTerm cc.term.toList
    | _ => mem
  let maxsec := cc.max.bind fun m => (mem.max.get? m).map CcMaxsec.maxsec
  let tblIdx := cc.term.bind fun t => (mem.term.get? t).map CcTermRecord.tblIdx
  if proto.compAck maxsec tblIdx cc.t then read.setStatus h.cc .deactive else read

/-- The next step of a handler: what it does to the shared state and where it stands then, `none`
when the request is over. -/
def next (proto : CcProto) (connected : Bool) (env : Env) (db : Db) (s : CcShared) (h : CcHandler) :
    Option (CcShared × Option CcHandler) :=
  match s.mem.cc.get? h.cc with
  | none => none
  | some cc =>
      let s := { s with mem := s.mem.useCc h.cc }
      match h.pc with
      | .received => (h.eventManager s cc).map fun next => (next.1, some next.2)
      | .counted sim =>
          match cc.max.bind fun m => (s.mem.max.get? m).map fun max => (m, max) with
          | none => none
          | some (m, max) =>
              match maxsec connected env db cc.cdrServerId max sim with
              | (maxsec, rtp) =>
                  let s := { s with mem := s.mem.setMaxsec m maxsec }
                  some (s, some { h with pc := rtp.elim .served .admitted })
      | .admitted rtp =>
          match occupy s.tbl (h.cc, rtp) with
          | some tbl => some ({ s with tbl }, some { h with pc := .served, hold := .seated })
          | none =>
              -- the table is full
              cc.max.map fun m =>
                ({ s with mem := s.mem.setMaxsec m ccMaxsecNoCctbl }, some { h with pc := .served })
      | .found i =>
          match s.tbl[i]? with
          | some (some (call, _)) =>
              let mem := cc.term.elim s.mem fun t => s.mem.setTerm call t
              some ({ s with mem }, some { h with pc := .attached i })
          | _ => some (s, some { h with pc := .attached i })
      | .attached i =>
          cc.term.map fun t =>
            ({ s with mem := s.mem.setTblIdx t i }, some { h with pc := .served })
      | .served => some ({ s with mem := h.reply proto s.mem cc }, some { h with pc := .acked })
      | .acked =>
          match cc.ccStatus with
          | .deactive => some ({ s with mem := s.mem.ccFree h.cc }, none)
          | .active => some (s, some { h with pc := .kept })
      | .kept =>
          if cc.t = .term then some ({ s with mem := s.mem.freeCc h.cc }, none) else some (s, none)

end CcHandler

/-! ## The process -/

/-- A handler thread: its module, whether it has a database connection, and the request it is at. -/
structure CcThread where
  proto : CcProto
  connected : Bool := true
  handler : Option CcHandler := none
deriving DecidableEq, Repr

/-- The shared state, the handler threads, and the slot that the janitor has found settled. -/
structure CcProcess where
  shared : CcShared
  threads : List CcThread
  janitor : Option ℕ := none
deriving DecidableEq, Repr

/-- The steps of the process. -/
inductive CcAction where
  /-- A request arrives at an idle thread. -/
  | receive (w : ℕ) (input : CcInput)
  /-- A handler goes on; the database as `rt_maxsec` finds it. -/
  | advance (w : ℕ) (env : Env) (db : Db)
  /-- The janitor looks at a slot. -/
  | judge (i : ℕ) (callMaxsecLimit : ℕ) (now : ℤ)
  /-- The janitor clears the slot it has found settled. -/
  | clear

namespace CcProcess

/-- `slots` free slots and idle threads. -/
def start (slots : ℕ) (threads : List (CcProto × Bool)) : CcProcess where
  shared := { tbl := List.replicate slots none }
  threads := threads.map fun (proto, connected) => { proto, connected }

/-- A request after its parser: one that is malformed gets its reply at once. -/
def receive (s : CcProcess) (w : ℕ) (thread : CcThread) (parse : CcParse) : CcProcess :=
  let p := s.shared.mem.cc.next
  let mem := s.shared.mem.receive parse.objects
  match parse with
  | .request _ =>
      { s with
        shared := { s.shared with mem },
        threads := s.threads.set w { thread with handler := some { cc := p } } }
  | .freed _ => { s with shared := { s.shared with mem := mem.freeCc p } }
  | .abandoned _ => { s with shared := { s.shared with mem } }

/-- The janitor looks at a call: it is settled when it has a termination or has outlived every
grant. -/
def judge (s : CcProcess) (i p callMaxsecLimit : ℕ) (now : ℤ) : CcProcess :=
  let mem := s.shared.mem.useCc p
  match mem.termPtr p with
  | some t => { s with shared := { s.shared with mem := mem.useTerm [t] }, janitor := some i }
  | none =>
      let outlived :=
        (mem.maxAt p).any fun max => callMaxsecLimit + callMaxsecLimitWait < now - max.ts
      { s with
        shared := { s.shared with mem := mem.useMax (mem.maxPtr p).toList },
        janitor := if outlived then some i else none }

/-- `cc_server_call_clear`. -/
def clear (s : CcProcess) (i p : ℕ) : CcProcess :=
  let mem := (s.shared.mem.setStatus p .deactive).ccFree p
  { s with shared := { mem, tbl := s.shared.tbl.set i none }, janitor := none }

/-- A step of the process, `none` when it is not enabled. -/
def step (s : CcProcess) : CcAction → Option CcProcess
  | .receive w input =>
      match s.threads[w]? with
      | some { proto, connected, handler := none } =>
          if input.proto = proto then some (s.receive w { proto, connected } input.parse) else none
      | _ => none
  | .advance w env db =>
      match s.threads[w]? with
      | some { proto, connected, handler := some h } =>
          (h.next proto connected env db s.shared).map fun (shared, handler) =>
            { s with shared, threads := s.threads.set w { proto, connected, handler } }
      | _ => none
  | .judge i callMaxsecLimit now =>
      match s.janitor, s.shared.tbl[i]? with
      | none, some (some (p, _)) => some (s.judge i p callMaxsecLimit now)
      | none, some none => some s
      | _, _ => none
  | .clear =>
      match s.janitor with
      | none => none
      | some i =>
          match s.shared.tbl[i]? with
          | some (some (p, _)) => some (s.clear i p)
          | _ => none

end CcProcess

/-! ## What a step of a handler does -/

/-- A refused call has a negative code, a granted one has seconds. -/
theorem rtMaxsec_maxsec (env : Env) (db : Db) (pre : Rating) (sim : ℤ) :
    (∃ answer db', rtMaxsec env db pre sim = (answer, none, db') ∧ answer.maxsec < 0) ∨
      ∃ answer rtp db', rtMaxsec env db pre sim = (answer, some rtp, db') ∧ 0 < answer.maxsec := by
  cases account : rtMaxsecAccount env pre with
  | error refusal =>
      refine .inl ⟨{ refusal.2 with maxsec := refusal.1.value }, db, ?_, refusal.1.value_neg⟩
      simp only [rtMaxsec, account]
  | ok found =>
      cases grant : rtMaxsecGrant env (rtRateSearching env db found.1).1 found.2 sim with
      | error refusal =>
          refine .inl ⟨{ refusal.2 with maxsec := refusal.1.value },
            (rtRateSearching env db found.1).2, ?_, refusal.1.value_neg⟩
          simp only [rtMaxsec, account, grant]
      | ok rtp =>
          refine .inr ⟨rtp.pre, rtp, (rtRateSearching env db found.1).2, ?_, ?_⟩
          · simp only [rtMaxsec, account, grant]
          · simp only [rtMaxsecGrant] at grant
            split at grant
            · cases grant
            split at grant
            · cases grant
            split at grant
            · cases grant
            · rename_i seconds
              obtain rfl := Except.ok.inj grant
              exact not_le.mp seconds

namespace CcHandler

/-- The shared state after the handler has read its `cc_t`. -/
def read (s : CcShared) (h : CcHandler) : CcShared := { s with mem := s.mem.useCc h.cc }

/-- The steps of a handler, each with its conditions. -/
inductive Move (proto : CcProto) (connected : Bool) (s : CcShared) (h : CcHandler) (cc : Cc) :
    CcShared → Option CcHandler → Prop
  | denied {m : ℕ} (pc : h.pc = .received) (kind : cc.t = .maxsec) (max_eq : cc.max = some m) :
      Move proto connected s h cc { s with mem := (s.mem.useCc h.cc).setMaxsec m ccMaxsecNoPre }
        (some { h with pc := .served })
  | counted {m : ℕ} {sim : ℤ} (pc : h.pc = .received) (kind : cc.t = .maxsec)
      (max_eq : cc.max = some m) :
      Move proto connected s h cc
        { s with mem := ((s.mem.useCc h.cc).useMax [m]).look (CcShared.calls s.tbl) }
        (some { h with pc := .counted sim })
  | ended (pc : h.pc = .received) (maxsec : cc.t ≠ .maxsec) (term : cc.t ≠ .term) :
      Move proto connected s h cc { s with mem := (s.mem.useCc h.cc).setStatus h.cc .deactive }
        (some { h with pc := .served })
  | passed (pc : h.pc = .received) (maxsec : cc.t ≠ .maxsec) (term : cc.t ≠ .term) :
      Move proto connected s h cc (h.read s) (some { h with pc := .served })
  | found {t i call : ℕ} {term : CcTermRecord} {rtp : Racc} (pc : h.pc = .received)
      (kind : cc.t = .term) (term_eq : cc.term = some t) (record : s.mem.term.get? t = some term)
      (search : s.searchCallUid term.callUid = some i) (slot : s.tbl[i]? = some (some (call, rtp)))
      (same : CcShared.hasUid s.mem term.callUid (some (call, rtp)) = true) :
      Move proto connected s h cc
        { s with
          mem := (((s.mem.useCc h.cc).useTerm [t]).look
            (CcShared.calls (s.tbl.take (i + 1)))).setTerm call t }
        (some { h with pc := .found i, hold := .handed call })
  | unfound {t : ℕ} (pc : h.pc = .received) (kind : cc.t = .term) (term_eq : cc.term = some t) :
      Move proto connected s h cc
        { s with
          mem := (((s.mem.useCc h.cc).useTerm [t]).look (CcShared.calls s.tbl)).setTblIdx t (-1) }
        (some { h with pc := .served })
  | refused {sim maxsec : ℤ} {m : ℕ} (pc : h.pc = .counted sim) (max_eq : cc.max = some m)
      (refusal : maxsec < 0 ∨ maxsec = 0 ∧ connected = false) :
      Move proto connected s h cc { s with mem := (s.mem.useCc h.cc).setMaxsec m maxsec }
        (some { h with pc := .served })
  | granted {sim maxsec : ℤ} {m : ℕ} {rtp : Racc} (pc : h.pc = .counted sim)
      (max_eq : cc.max = some m) (grant : 0 < maxsec) :
      Move proto connected s h cc { s with mem := (s.mem.useCc h.cc).setMaxsec m maxsec }
        (some { h with pc := .admitted rtp })
  | seated {rtp : Racc} {tbl : List (Option (ℕ × Racc))} (pc : h.pc = .admitted rtp)
      (taken : occupy s.tbl (h.cc, rtp) = some tbl) :
      Move proto connected s h cc { mem := s.mem.useCc h.cc, tbl }
        (some { h with pc := .served, hold := .seated })
  | full {rtp : Racc} {m : ℕ} (pc : h.pc = .admitted rtp) (max_eq : cc.max = some m) :
      Move proto connected s h cc { s with mem := (s.mem.useCc h.cc).setMaxsec m ccMaxsecNoCctbl }
        (some { h with pc := .served })
  | attached {i call t : ℕ} {rtp : Racc} (pc : h.pc = .found i)
      (slot : s.tbl[i]? = some (some (call, rtp))) (term_eq : cc.term = some t) :
      Move proto connected s h cc { s with mem := (s.mem.useCc h.cc).setTerm call t }
        (some { h with pc := .attached i })
  | missed {i : ℕ} (pc : h.pc = .found i)
      (absent : cc.term = none ∨ ∀ slot, s.tbl[i]? ≠ some (some slot)) :
      Move proto connected s h cc (h.read s) (some { h with pc := .attached i })
  | noted {i t : ℕ} (pc : h.pc = .attached i) (term_eq : cc.term = some t) :
      Move proto connected s h cc { s with mem := (s.mem.useCc h.cc).setTblIdx t i }
        (some { h with pc := .served })
  | acked (pc : h.pc = .served) :
      Move proto connected s h cc { s with mem := h.reply proto (s.mem.useCc h.cc) cc }
        (some { h with pc := .acked })
  | closed (pc : h.pc = .acked) (status : cc.ccStatus = .deactive) :
      Move proto connected s h cc { s with mem := (s.mem.useCc h.cc).ccFree h.cc } none
  | kept (pc : h.pc = .acked) (status : cc.ccStatus = .active) :
      Move proto connected s h cc (h.read s) (some { h with pc := .kept })
  | released (pc : h.pc = .kept) (kind : cc.t = .term) :
      Move proto connected s h cc { s with mem := (s.mem.useCc h.cc).freeCc h.cc } none
  | left (pc : h.pc = .kept) (kind : cc.t ≠ .term) :
      Move proto connected s h cc (h.read s) none

/-- The record that a `cc_t` points to. -/
theorem record_of_bind {α : Type*} {ptr : Option ℕ} {get : ℕ → Option α} {m : ℕ} {record : α}
    (loaded : (ptr.bind fun m => (get m).map fun record => (m, record)) = some (m, record)) :
    ptr = some m ∧ get m = some record := by
  obtain ⟨m', ptr_eq, mapped⟩ := Option.bind_eq_some_iff.mp loaded
  obtain ⟨record', get_eq, pair_eq⟩ := Option.map_eq_some_iff.mp mapped
  cases pair_eq
  exact ⟨ptr_eq, get_eq⟩

variable {proto : CcProto} {connected : Bool} {env : Env} {db : Db} {s s' : CcShared}
    {h : CcHandler}
  {cc : Cc}

/-- The slot that the search finds holds a call with the `call_uid`. -/
theorem slot_of_searchCallUid {callUid : String} {i : ℕ}
    (found : s.searchCallUid callUid = some i) :
    ∃ cell, s.tbl[i]? = some cell ∧ CcShared.hasUid s.mem callUid cell = true := by
  rw [CcShared.searchCallUid, List.findIdx?_eq_some_iff_getElem] at found
  obtain ⟨inside, same, -⟩ := found
  exact ⟨_, List.getElem?_eq_getElem inside, same⟩

theorem move_of_eventManager {h' : CcHandler} (pc : h.pc = .received)
    (steps : h.eventManager (h.read s) cc = some (s', h')) :
    Move proto connected s h cc s' (some h') := by
  unfold eventManager at steps
  cases kind : cc.t with
  | maxsec =>
      rw [kind] at steps
      dsimp only at steps
      split at steps
      · cases steps
      rename_i m max loaded
      obtain ⟨max_eq, -⟩ := record_of_bind loaded
      split at steps <;> obtain ⟨rfl, rfl⟩ := Option.some.inj steps
      · exact .denied pc kind max_eq
      · exact .counted pc kind max_eq
  | term =>
      rw [kind] at steps
      dsimp only at steps
      split at steps
      · cases steps
      rename_i t term loaded
      obtain ⟨term_eq, record⟩ := record_of_bind loaded
      split at steps
      · rename_i i found
        obtain ⟨cell, cell_eq, same⟩ := slot_of_searchCallUid found
        split at steps
        · rename_i call rtp slot
          obtain ⟨rfl, rfl⟩ := Option.some.inj steps
          obtain rfl : cell = some (call, rtp) := Option.some.inj (cell_eq.symm.trans slot)
          exact .found pc kind term_eq record found slot same
        · cases steps
      · obtain ⟨rfl, rfl⟩ := Option.some.inj steps
        exact .unfound pc kind term_eq
  | balance | rate | cprice =>
      rw [kind] at steps
      obtain ⟨rfl, rfl⟩ := Option.some.inj steps
      exact .ended pc (by simp [kind]) (by simp [kind])
  | unkn | status =>
      rw [kind] at steps
      obtain ⟨rfl, rfl⟩ := Option.some.inj steps
      exact .passed pc (by simp [kind]) (by simp [kind])

theorem move_of_next {h' : Option CcHandler}
    (steps : h.next proto connected env db s = some (s', h')) :
    ∃ cc, s.mem.cc.get? h.cc = some cc ∧ Move proto connected s h cc s' h' := by
  unfold next at steps
  split at steps
  · cases steps
  rename_i cc cc_eq
  refine ⟨cc, cc_eq, ?_⟩
  dsimp only at steps
  split at steps
  case h_1 pc =>
    obtain ⟨next, next_eq, pair_eq⟩ := Option.map_eq_some_iff.mp steps
    cases pair_eq
    exact move_of_eventManager pc next_eq
  case h_2 sim pc =>
    split at steps
    · cases steps
    rename_i m max loaded
    obtain ⟨max_eq, -⟩ := record_of_bind loaded
    cases connected with
    | false =>
        obtain ⟨rfl, rfl⟩ := Option.some.inj steps
        exact .refused pc max_eq (.inr ⟨rfl, rfl⟩)
    | true =>
        simp only [maxsec, if_true] at steps
        rcases rtMaxsec_maxsec env db (ccMaxsecPre cc.cdrServerId max.toCcMax) sim with
          ⟨answer, db', answer_eq, refusal⟩ | ⟨answer, rtp, db', answer_eq, grant⟩
        · rw [answer_eq] at steps
          obtain ⟨rfl, rfl⟩ := Option.some.inj steps
          exact .refused pc max_eq (.inl refusal)
        · rw [answer_eq] at steps
          obtain ⟨rfl, rfl⟩ := Option.some.inj steps
          exact .granted pc max_eq grant
  case h_3 rtp pc =>
    split at steps
    · rename_i tbl taken
      obtain ⟨rfl, rfl⟩ := Option.some.inj steps
      exact .seated pc taken
    · obtain ⟨m, max_eq, pair_eq⟩ := Option.map_eq_some_iff.mp steps
      cases pair_eq
      exact .full pc max_eq
  case h_4 i pc =>
    split at steps
    · rename_i call rtp slot
      obtain ⟨rfl, rfl⟩ := Option.some.inj steps
      cases term_eq : cc.term with
      | none => exact .missed pc (.inl term_eq)
      | some t => exact .attached pc slot term_eq
    · rename_i absent
      obtain ⟨rfl, rfl⟩ := Option.some.inj steps
      exact .missed pc (.inr fun slot => absent slot.1 slot.2)
  case h_5 i pc =>
    obtain ⟨t, term_eq, pair_eq⟩ := Option.map_eq_some_iff.mp steps
    cases pair_eq
    exact .noted pc term_eq
  case h_6 pc =>
    obtain ⟨rfl, rfl⟩ := Option.some.inj steps
    exact .acked pc
  case h_7 pc =>
    split at steps <;> obtain ⟨rfl, rfl⟩ := Option.some.inj steps
    · rename_i status
      exact .closed pc status
    · rename_i status
      exact .kept pc status
  case h_8 pc =>
    split at steps <;> obtain ⟨rfl, rfl⟩ := Option.some.inj steps
    · rename_i kind
      exact .released pc kind
    · rename_i kind
      exact .left pc kind

end CcHandler

/-! ## What a step of the process does -/

namespace CcProcess

/-- The steps of the process, each with its conditions. -/
inductive Moves (s : CcProcess) : CcAction → CcProcess → Prop
  | received {w : ℕ} {thread : CcThread} (input : CcInput) (idle : s.threads[w]? = some thread)
      (free : thread.handler = none) :
      Moves s (.receive w input) (s.receive w thread input.parse)
  | advanced {w : ℕ} {env : Env} {db : Db} {thread : CcThread} {h : CcHandler} {cc : Cc}
      {shared : CcShared} {handler : Option CcHandler} (found : s.threads[w]? = some thread)
      (busy : thread.handler = some h) (cc_eq : s.shared.mem.cc.get? h.cc = some cc)
      (move : h.Move thread.proto thread.connected s.shared cc shared handler) :
      Moves s (.advance w env db)
        { s with shared, threads := s.threads.set w { thread with handler } }
  | judged {i p callMaxsecLimit : ℕ} {now : ℤ} {rtp : Racc}
      (slot : s.shared.tbl[i]? = some (some (p, rtp))) :
      Moves s (.judge i callMaxsecLimit now) (s.judge i p callMaxsecLimit now)
  | passed {i callMaxsecLimit : ℕ} {now : ℤ} : Moves s (.judge i callMaxsecLimit now) s
  | cleared {i p : ℕ} {rtp : Racc} (janitor : s.janitor = some i)
      (slot : s.shared.tbl[i]? = some (some (p, rtp))) : Moves s .clear (s.clear i p)

theorem moves_of_step {s s' : CcProcess} {action : CcAction} (steps : s.step action = some s') :
    s.Moves action s' := by
  cases action with
  | receive w input =>
      simp only [step] at steps
      split at steps
      · rename_i idle
        split at steps
        · obtain rfl := Option.some.inj steps
          exact .received input idle rfl
        · cases steps
      · cases steps
  | advance w env db =>
      simp only [step] at steps
      split at steps
      · rename_i found
        obtain ⟨⟨shared, handler⟩, next_eq, rfl⟩ := Option.map_eq_some_iff.mp steps
        obtain ⟨cc, cc_eq, move⟩ := CcHandler.move_of_next next_eq
        exact .advanced found rfl cc_eq move
      · cases steps
  | judge i callMaxsecLimit now =>
      simp only [step] at steps
      split at steps
      · rename_i slot
        obtain rfl := Option.some.inj steps
        exact .judged slot
      · obtain rfl := Option.some.inj steps
        exact .passed
      · cases steps
  | clear =>
      simp only [step] at steps
      split at steps
      · cases steps
      rename_i janitor
      split at steps
      · rename_i slot
        obtain rfl := Option.some.inj steps
        exact .cleared janitor slot
      · cases steps

/-! ## A table of one slot -/

/-- One step of a handler with the prepaid account. -/
def go (w : ℕ) : CcAction := .advance w (prepaidEnv 1) {}

/-- Two threads of `my_cc` and a table of one slot. -/
def oneSlot : CcProcess := start 1 [(.myCc, true), (.myCc, true)]

/-- Thread 0 grants a call, leaves it in the table and ends the request. -/
def grantCall (callUid : String) : List CcAction :=
  .receive 0 (.myCc 1709546400 ("1,7,maxsec,0,100,200," ++ callUid)) :: List.replicate 6 (go 0)

/-- Thread 1 gets the termination of the first call. -/
def termFirst : CcAction := .receive 1 (.myCc 1709546430 "1,8,term,0,nc,first,30,30")

end CcProcess

end RateEngine
