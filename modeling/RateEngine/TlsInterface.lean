import RateEngine.Lib.ObjectHeap
import RateEngine.NetShutdown

/-!
# The objects of a TLS interface

The thread of an interface opens a listening socket with its own `SSL_CTX`, runs the parallel server
and closes both.  A worker makes an `SSL` from the shared context for the connection that it popped,
and frees it when it closes the connection.  This file follows the contexts, the `SSL` objects and
the descriptors through every interleaving of the acceptor and the workers.
-/

namespace RateEngine

open Slots

/-! ## The interface -/

/-- How far a worker is with its connection. -/
inductive TlsStage where
  | idle
  /-- `wc` is set up. -/
  | fresh
  | made (ssl : ℕ)
  | accepted (ssl : ℕ)
  /-- `tls_recv` has returned a request; the object is in `eng_tmp`. -/
  | received (ssl : ℕ)
  | answered (ssl : ℕ)
  /-- `tls_recv` has returned an error. -/
  | failed
deriving DecidableEq

/-- The object that the worker has to free. -/
def TlsStage.ssl : TlsStage → Option ℕ
  | made ssl | accepted ssl | received ssl | answered ssl => some ssl
  | idle | fresh | failed => none

/-- What `tls_ctx_init` comes to: no context, one that it frees again, or the context. -/
inductive CtxInit where
  | refused
  | freed
  | ready
deriving DecidableEq

/-- Where the thread of the interface is. -/
inductive TlsPhase where
  /-- In `net_open`, after some failed tries. -/
  | opening (tries : ℕ)
  | opened
  | serving
  /-- At `_end`. -/
  | closing
  | ended
deriving DecidableEq

/-- `NET_CONN_REPLY_NUM`. -/
def netConnReplyNum : ℕ := 10

/-- `cc_server_thread_int` with its workers, its objects and the descriptors that are open. -/
structure TlsInterface where
  phase : TlsPhase := .opening 0
  net : NetServer
  stages : List TlsStage := []
  ssls : ObjectHeap Unit := {}
  ctxs : ObjectHeap Unit := {}
  engCtx : Option ℕ := none
  sockfd : ℤ := 0
  fds : List ℤ := []
  /-- The calls of `close` on a number that is no open descriptor of the interface. -/
  stray : ℕ := 0

/-- The steps of the threads, with what the system and the library return. -/
inductive TlsAction where
  /-- A try of `net_open`. -/
  | tryOpen (sd : ℤ) (made : CtxInit)
  | listen (ok : Bool)
  | accept (ret newsockfd : ℤ)
  | push
  | pop (w : ℕ)
  | join
  | sslNew (w : ℕ) (ok : Bool)
  | sslAccept (w : ℕ) (ret : ℤ)
  | sslRead (w : ℕ) (n : ℤ)
  | answer (w : ℕ)
  | close (w : ℕ)
  /-- `net_parallel_server` returns. -/
  | ret
  /-- `net_close` at `_end`. -/
  | netClose
deriving DecidableEq

namespace TlsInterface

/-- The thread before `net_open`. -/
def start (nworkers : ℤ) : TlsInterface where
  net := netParallelServer nworkers

/-- `close`. -/
def closeFd (s : TlsInterface) (fd : ℤ) : TlsInterface :=
  if fd ∈ s.fds then { s with fds := s.fds.erase fd } else { s with stray := s.stray + 1 }

/-- `net_open` after a failed try. -/
def openFailed (s : TlsInterface) (tries : ℕ) : TlsInterface :=
  { s with phase := if tries < netConnReplyNum then .opening (tries + 1) else .closing }

/-- `tls_open`; the system gives a number that is not in use. -/
def tlsOpen (s : TlsInterface) (tries : ℕ) (sd : ℤ) (made : CtxInit) : Option TlsInterface :=
  if sd < 0 then some (s.openFailed tries)
  else if sd ∈ s.fds then none
  else
    let s := { s with sockfd := sd, fds := sd :: s.fds }
    match made with
    | .refused => some ((s.closeFd sd).openFailed tries)
    | .freed =>
        let s := { s with ctxs := (s.ctxs.alloc ()).free s.ctxs.next }
        some ((s.closeFd sd).openFailed tries)
    | .ready =>
        some { s with
          ctxs := s.ctxs.alloc ()
          engCtx := some s.ctxs.next
          phase := .opened }

/-- `tls_accept`, and the acceptor loop up to its push. -/
def tlsAccept (s : TlsInterface) (ret newsockfd : ℤ) : Option TlsInterface :=
  if s.sockfd ≤ 0 ∨ ret < 0 ∨ newsockfd < 0 then
    (netStep s.net (.accept s.sockfd ret newsockfd)).map fun net => { s with net }
  else if newsockfd ∈ s.fds then none
  else
    (netStep s.net (.accept s.sockfd ret newsockfd)).map fun net =>
      { s with net, fds := newsockfd :: s.fds }

/-- `SSL_new` of `tls_recv`. -/
def sslNew (s : TlsInterface) (w : ℕ) (ok : Bool) : TlsInterface :=
  match s.engCtx with
  | none => { s with stages := s.stages.set w .failed }
  | some ctx =>
      let s := { s with ctxs := s.ctxs.use [ctx] }
      if ok then { s with ssls := s.ssls.alloc (), stages := s.stages.set w (.made s.ssls.next) }
      else { s with stages := s.stages.set w .failed }

/-- A call of the library on the object of a worker, which is freed when the call fails. -/
def onSsl (s : TlsInterface) (w ssl : ℕ) (ok : Bool) (next : TlsStage) : TlsInterface :=
  if ok then { s with ssls := s.ssls.use [ssl], stages := s.stages.set w next }
  else { s with ssls := (s.ssls.use [ssl]).free ssl, stages := s.stages.set w .failed }

/-- `tls_close` of a worker. -/
def tlsClose (s : TlsInterface) (w : ℕ) (engTmp : Option ℕ) (fd : ℤ) : Option TlsInterface :=
  (netStep s.net (.close w)).map fun net =>
    let s := { s with
      net
      ssls := engTmp.elim s.ssls fun ssl => (s.ssls.use [ssl]).free ssl
      stages := s.stages.set w .idle }
    s.closeFd fd

/-- The descriptor that a worker serves. -/
def serves (s : TlsInterface) (w : ℕ) : Option ℤ :=
  match (s.net.workers[w]?).map NetWorker.phase with
  | some (.serving fd) => some fd
  | _ => none

/-- A step of the server. -/
def serve (s : TlsInterface) : TlsAction → Option TlsInterface
  | .accept ret newsockfd => s.tlsAccept ret newsockfd
  | .push => (netStep s.net .push).map fun net => { s with net }
  | .join => (netStep s.net .join).map fun net => { s with net }
  | .pop w =>
      (netStep s.net (.pop w)).map fun net =>
        let s := { s with net }
        if (s.serves w).isSome then { s with stages := s.stages.set w .fresh } else s
  | .sslNew w ok =>
      match s.stages[w]? with
      | some .fresh => some (s.sslNew w ok)
      | _ => none
  | .sslAccept w ret =>
      match s.stages[w]? with
      | some (.made ssl) => some (s.onSsl w ssl (0 < ret) (.accepted ssl))
      | _ => none
  | .sslRead w n =>
      match s.stages[w]? with
      | some (.accepted ssl) => some (s.onSsl w ssl (0 < n) (.received ssl))
      | _ => none
  | .answer w =>
      match s.stages[w]? with
      | some (.received ssl) => some (s.onSsl w ssl true (.answered ssl))
      | _ => none
  | .close w =>
      match s.stages[w]?, s.serves w with
      | some (.answered ssl), some fd => s.tlsClose w (some ssl) fd
      | some .failed, some fd => s.tlsClose w none fd
      | _, _ => none
  | .ret =>
      if s.net.acceptor = .joining s.net.workers.length then some { s with phase := .closing }
      else none
  | _ => none

/-- A step of the interface, `none` when it is not enabled. -/
def step (s : TlsInterface) (action : TlsAction) : Option TlsInterface :=
  match s.phase with
  | .opening tries =>
      match action with
      | .tryOpen sd made => s.tlsOpen tries sd made
      | _ => none
  | .opened =>
      match action with
      | .listen ok =>
          if ok then
            some { s with
              phase := .serving
              stages := List.replicate s.net.workers.length .idle }
          else some { s with phase := .closing }
      | _ => none
  | .serving => s.serve action
  | .closing =>
      match action with
      | .netClose =>
          let s := { s with
            ctxs := s.engCtx.elim s.ctxs s.ctxs.free
            engCtx := none
            phase := .ended }
          some (s.closeFd s.sockfd)
      | _ => none
  | .ended => none

/-! ## The invariant -/

end TlsInterface

/-- The descriptor of a worker. -/
def NetWorker.fds (worker : NetWorker) : List ℤ :=
  match worker.phase with
  | .serving fd => [fd]
  | _ => []

/-- The server has started its workers. -/
def NetServer.Started (s : NetServer) : Prop := ∃ nworkers, s = netParallelServer nworkers

/-- The accepted descriptors that are on their way, with the queue. -/
def NetServer.inflight (s : NetServer) (queue : List ℤ) : List ℤ :=
  s.acceptor.pending ++ (queue.filter (0 ≤ ·) ++ s.workers.flatMap NetWorker.fds)

/-! ## Descriptors on their way -/

namespace NetServer

variable {s s' : NetServer} {queue : List ℤ}

/-- The queue of the server, and what it holds. -/
def Queues (s : NetServer) (queue : List ℤ) : Prop :=
  s.q.Holds queue ∧ s.entered = s.left ++ queue

/-- A push moves a descriptor of the acceptor to the queue, or adds a sentinel. -/
theorem inflight_push (consistent : s.Consistent) (queues : s.Queues queue)
    (steps : netStep s .push = some s') :
    s'.workers = s.workers ∧ ∃ queue', s'.Queues queue' ∧
      (s'.inflight queue').Perm (s.inflight queue) := by
  have pushes {fd : ℤ} {next : NetAcceptor} (pushed : s.push fd next = some s') :
      s'.Queues (queue ++ [fd]) ∧ s'.acceptor = next ∧ s'.workers = s.workers := by
    obtain ⟨q, queued, rfl⟩ := NetServer.push_eq pushed
    refine ⟨⟨queues.1.push queued, ?_⟩, rfl, rfl⟩
    rw [queues.2, List.append_assoc]
  simp only [netStep] at steps
  split at steps
  · rename_i fd at_push
    obtain ⟨queues', acceptor, workers⟩ := pushes steps
    refine ⟨workers, _, queues', ?_⟩
    have accepted : fd ∈ s.accepted := by
      have logs := consistent.entered_eq
      rw [at_push, NetAcceptor.pending, NetAcceptor.sentinels, List.replicate_zero,
        List.append_nil] at logs
      rw [← logs]
      exact List.mem_append_right _ List.mem_cons_self
    have nonneg := consistent.accepted_nonneg fd accepted
    rw [inflight, inflight, acceptor, at_push, workers, NetAcceptor.pending, NetAcceptor.pending,
      List.filter_append, List.nil_append, List.append_assoc, ← List.append_assoc [fd]]
    have kept : [fd].filter (0 ≤ ·) = [fd] := by simpa using nonneg
    rw [kept, ← List.append_assoc]
    exact List.Perm.append_right _ List.perm_append_comm
  · rename_i i at_wake
    obtain ⟨queues', acceptor, workers⟩ := pushes steps
    refine ⟨workers, _, queues', ?_⟩
    have dropped : [(-1 : ℤ)].filter (0 ≤ ·) = [] := by decide
    have none_pending : s'.acceptor.pending = [] := by
      rw [acceptor]
      split <;> rfl
    rw [inflight, inflight, none_pending, at_wake, workers, List.filter_append, dropped,
      List.append_nil]
    exact List.Perm.refl _
  · cases steps

/-- A join leaves the descriptors. -/
theorem inflight_join (queues : s.Queues queue) (steps : netStep s .join = some s') :
    s'.workers = s.workers ∧ s'.Queues queue ∧ s'.inflight queue = s.inflight queue := by
  simp only [netStep] at steps
  split at steps <;> [rename_i i at_join; cases steps]
  split at steps <;> [skip; cases steps]
  split at steps <;> [skip; cases steps]
  obtain rfl := Option.some.inj steps
  refine ⟨rfl, queues, ?_⟩
  rw [inflight, inflight, at_join]
  rfl

/-- A turn of the acceptor loop accepts a descriptor, or ends the loop. -/
theorem inflight_accept (queues : s.Queues queue) {sockfd ret newsockfd : ℤ}
    (steps : netStep s (.accept sockfd ret newsockfd) = some s') :
    s'.workers = s.workers ∧ s'.Queues queue ∧ s'.inflight queue =
      if sockfd ≤ 0 ∨ ret < 0 ∨ newsockfd < 0 then s.inflight queue
      else newsockfd :: s.inflight queue := by
  simp only [netStep] at steps
  split at steps <;> [rename_i at_head; cases steps]
  split at steps
  · rename_i stops
    obtain rfl := Option.some.inj steps
    refine ⟨rfl, queues, ?_⟩
    rw [if_pos stops, inflight, inflight, at_head]
    rfl
  · rename_i goes
    obtain rfl := Option.some.inj steps
    refine ⟨rfl, queues, ?_⟩
    rw [if_neg goes, inflight, inflight, at_head]
    rfl

/-- A pop moves the first descriptor of the queue to the worker, or ends it. -/
theorem inflight_pop (queues : s.Queues queue) {w : ℕ} (steps : netStep s (.pop w) = some s') :
    ∃ worker after, s.workers[w]? = some worker ∧ worker.fds = [] ∧
      s'.workers = s.workers.set w after ∧
      ∃ queue', s'.Queues queue' ∧ (s'.inflight queue').Perm (s.inflight queue) := by
  simp only [netStep] at steps
  split at steps <;> [rename_i worker found; cases steps]
  split at steps <;> [rename_i waiting; cases steps]
  obtain ⟨⟨fd, q⟩, popped, rfl⟩ := Option.map_eq_some_iff.mp steps
  obtain ⟨rest, rfl, holds⟩ := queues.1.pop popped
  have idle : worker.fds = [] := by rw [NetWorker.fds, waiting]
  refine ⟨worker, _, found, idle, rfl, rest, ⟨holds, ?_⟩, ?_⟩
  · rw [queues.2, List.append_assoc, List.singleton_append]
  · have grown : (worker.take fd).fds = worker.fds ++ [fd].filter (0 ≤ ·) := by
      rw [idle, NetWorker.take, NetWorker.fds, List.nil_append]
      by_cases negative : fd < 0
      · simp [negative]
      · simp [negative, not_lt.mp negative]
    have split_queue : (fd :: rest).filter (0 ≤ ·) =
        [fd].filter (0 ≤ ·) ++ rest.filter (0 ≤ ·) := by
      rw [← List.filter_append, List.singleton_append]
    rw [inflight, inflight, split_queue]
    refine List.Perm.append_left _ ?_
    refine ((Slots.flatMap_set_perm found grown).append_left _).trans ?_
    rw [← List.append_assoc]
    refine List.perm_append_comm.trans ?_
    rw [List.append_assoc]

/-- A close takes the descriptor of the worker. -/
theorem inflight_close (queues : s.Queues queue) {w : ℕ} (steps : netStep s (.close w) = some s') :
    ∃ worker fd after, s.workers[w]? = some worker ∧ worker.phase = .serving fd ∧
      after.fds = [] ∧ s'.workers = s.workers.set w after ∧ s'.Queues queue ∧
      (s.inflight queue).Perm (fd :: s'.inflight queue) := by
  simp only [netStep] at steps
  split at steps <;> [rename_i worker found; cases steps]
  split at steps <;> [rename_i fd serving; cases steps]
  obtain rfl := Option.some.inj steps
  refine ⟨worker, fd, worker.close fd, found, serving, rfl, rfl, queues, ?_⟩
  have own : worker.fds = [fd] := by rw [NetWorker.fds, serving]
  have found' : (s.workers.set w (worker.close fd))[w]? = some (worker.close fd) :=
    List.getElem?_set_self (List.getElem?_eq_some_iff.mp found).1
  have grown : worker.fds = (worker.close fd).fds ++ [fd] := own
  have shrunk := Slots.flatMap_set_perm found' grown
  have back : s.workers.set w worker = s.workers := by
    obtain ⟨lt, rfl⟩ := List.getElem?_eq_some_iff.mp found
    exact List.set_getElem_self lt
  rw [List.set_set, back] at shrunk
  rw [inflight, inflight]
  have moved := (shrunk.append_left (queue.filter (0 ≤ ·))).append_left s.acceptor.pending
  refine moved.trans ?_
  rw [← List.append_assoc, ← List.append_assoc]
  refine (List.perm_append_singleton _ _).trans ?_
  rw [List.append_assoc]

end NetServer

namespace TlsInterface

/-- The objects: each is freed or held, once in all, and no freed one was used. -/
structure Objects (s : TlsInterface) : Prop where
  ssls : s.ssls.Conserved (held TlsStage.ssl s.stages)
  ssl_faults : s.ssls.faults = 0
  ctxs : s.ctxs.Conserved (unit s.engCtx)
  ctx_faults : s.ctxs.faults = 0

/-- The server runs: the open descriptors are the listening one and those on their way. -/
structure Serving (s : TlsInterface) : Prop where
  consistent : s.net.Consistent
  engCtx : s.engCtx.isSome
  fds : ∃ queue, s.net.Queues queue ∧ s.fds.Perm (s.sockfd :: s.net.inflight queue)
  nodup : s.fds.Nodup
  length : s.stages.length = s.net.workers.length
  idle : ∀ (w : ℕ) (worker : NetWorker), s.net.workers[w]? = some worker →
    worker.fds = [] → s.stages[w]? = some .idle

/-- Where the thread is, with what it has open. -/
def Place (opened : Prop) (s : TlsInterface) : Prop :=
  match s.phase with
  | .opening _ => ¬ opened ∧ s.net.Started ∧ s.stages = [] ∧ s.engCtx = none ∧ s.fds = [] ∧
      s.stray = 0
  | .opened => opened ∧ s.net.Started ∧ s.stages = [] ∧ s.engCtx.isSome ∧ s.fds = [s.sockfd] ∧
      s.stray = 0
  | .serving => opened ∧ s.Serving ∧ s.stray = 0
  | .closing => (∀ stage ∈ s.stages, stage = .idle) ∧ s.stray = 0 ∧
      (opened ∧ s.engCtx.isSome ∧ s.fds = [s.sockfd] ∨ ¬ opened ∧ s.engCtx = none ∧ s.fds = [])
  | .ended => (∀ stage ∈ s.stages, stage = .idle) ∧ s.engCtx = none ∧ s.fds = [] ∧
      (s.stray = 0 ↔ opened)

section Fds

variable {s : TlsInterface} {fd : ℤ}

theorem closeFd_of_mem (member : fd ∈ s.fds) :
    s.closeFd fd = { s with fds := s.fds.erase fd } := if_pos member

theorem closeFd_of_not_mem (absent : fd ∉ s.fds) :
    s.closeFd fd = { s with stray := s.stray + 1 } := if_neg absent

end Fds

section Steps

variable {s s' : TlsInterface} {opened : Prop}

/-- An open descriptor that is not the listening one is not closed by the thread. -/
theorem serving_fds {worker : NetWorker} {fd : ℤ} (serving : worker.phase = .serving fd) :
    worker.fds = [fd] := by
  rw [NetWorker.fds, serving]

theorem Objects.idle (objects : s.Objects) (idle : ∀ stage ∈ s.stages, stage = .idle) {p : ℕ}
    (allocated : p < s.ssls.next) : s.ssls.frees p = 1 := by
  have nothing : held TlsStage.ssl s.stages = 0 :=
    held_eq_zero fun stage member => by rw [idle stage member]; rfl
  have once := objects.ssls p
  rw [nothing, if_pos allocated] at once
  simpa using once

/-- A try of `net_open`. -/
theorem Place.open (place : s.Place opened) (objects : s.Objects) {tries : ℕ}
    (at_open : s.phase = .opening tries) {sd : ℤ} {made : CtxInit}
    (steps : s.tlsOpen tries sd made = some s') :
    s'.Objects ∧ s'.Place (opened ∨ 0 ≤ sd ∧ made = .ready) := by
  rw [Place, at_open] at place
  obtain ⟨unopened, started, stages, no_ctx, no_fds, stray⟩ := place
  have failed (t : TlsInterface) (t_stages : t.stages = []) (t_ctx : t.engCtx = none)
      (t_net : t.net.Started) (t_fds : t.fds = []) (t_stray : t.stray = 0)
      (never : ¬ (opened ∨ 0 ≤ sd ∧ made = .ready)) :
      (t.openFailed tries).Place (opened ∨ 0 ≤ sd ∧ made = .ready) := by
    rw [openFailed, Place]
    by_cases more : tries < netConnReplyNum
    · simp only [if_pos more]
      exact ⟨never, t_net, t_stages, t_ctx, t_fds, t_stray⟩
    · simp only [if_neg more]
      refine ⟨fun stage member => ?_, t_stray, .inr ⟨never, t_ctx, t_fds⟩⟩
      rw [t_stages] at member
      cases member
  rw [tlsOpen] at steps
  split at steps
  · rename_i negative
    obtain rfl := Option.some.inj steps
    refine ⟨⟨objects.ssls, objects.ssl_faults, objects.ctxs, objects.ctx_faults⟩, ?_⟩
    refine failed s stages no_ctx started no_fds stray ?_
    rintro (before | ⟨nonneg, -⟩)
    · exact unopened before
    · omega
  split at steps
  · cases steps
  have erased : (sd :: s.fds).erase sd = [] := by rw [no_fds, List.erase_cons_head]
  cases made with
  | refused =>
      obtain rfl := Option.some.inj steps
      rw [closeFd_of_mem List.mem_cons_self]
      refine ⟨⟨objects.ssls, objects.ssl_faults, objects.ctxs, objects.ctx_faults⟩, ?_⟩
      refine failed _ stages no_ctx started erased stray ?_
      rintro (before | ⟨-, ⟨⟩⟩)
      exact unopened before
  | freed =>
      obtain rfl := Option.some.inj steps
      rw [closeFd_of_mem List.mem_cons_self]
      have conserved := (objects.ctxs.alloc ()).free (p := s.ctxs.next) (by simp)
      rw [add_sub_cancel_right] at conserved
      refine ⟨⟨objects.ssls, objects.ssl_faults, conserved, objects.ctx_faults⟩, ?_⟩
      refine failed _ stages no_ctx started erased stray ?_
      rintro (before | ⟨-, ⟨⟩⟩)
      exact unopened before
  | ready =>
      obtain rfl := Option.some.inj steps
      have conserved := objects.ctxs.alloc ()
      rw [no_ctx, unit_none, zero_add] at conserved
      refine ⟨⟨objects.ssls, objects.ssl_faults, conserved, objects.ctx_faults⟩, ?_⟩
      refine ⟨.inr ⟨by omega, rfl⟩, started, stages, rfl, ?_, stray⟩
      simp only [no_fds]

/-! ## Steps of the server -/

/-- A worker with an object or a connection is no idle one. -/
theorem Serving.stage_busy (serving : s.Serving) {w : ℕ} {stage : TlsStage}
    (found : s.stages[w]? = some stage) (busy : stage ≠ .idle) :
    ∃ worker fd, s.net.workers[w]? = some worker ∧ worker.phase = .serving fd := by
  have lt : w < s.net.workers.length := by
    rw [← serving.length]
    exact (List.getElem?_eq_some_iff.mp found).1
  have worker_found := List.getElem?_eq_getElem lt
  cases phase : s.net.workers[w].phase with
  | serving fd => exact ⟨_, fd, worker_found, phase⟩
  | waiting | ended =>
      have idle := serving.idle w _ worker_found (by rw [NetWorker.fds, phase])
      rw [found] at idle
      exact absurd (Option.some.inj idle) busy

/-- A worker goes on with its object. -/
theorem Serving.set_stage (serving : s.Serving) {w : ℕ} {stage next : TlsStage}
    (found : s.stages[w]? = some stage) (busy : stage ≠ .idle) {ssls ctxs : ObjectHeap Unit} :
    Serving { s with ssls, ctxs, stages := s.stages.set w next } := by
  obtain ⟨worker, fd, worker_found, phase⟩ := serving.stage_busy found busy
  refine ⟨serving.consistent, serving.engCtx, serving.fds, serving.nodup, ?_,
    fun i other other_found idle => ?_⟩
  · rw [List.length_set]
    exact serving.length
  · have apart : w ≠ i := by
      rintro rfl
      obtain rfl := Option.some.inj (worker_found.symm.trans other_found)
      rw [NetWorker.fds, phase] at idle
      cases idle
    rw [List.getElem?_set_ne apart]
    exact serving.idle i other other_found idle

/-- A call of the library on a worker's object. -/
theorem Objects.onSsl (objects : s.Objects) {w ssl : ℕ} {stage next : TlsStage}
    (found : s.stages[w]? = some stage) (own : stage.ssl = some ssl) (kept : next.ssl = some ssl)
    (ok : Bool) : (s.onSsl w ssl ok next).Objects := by
  have owned := held_pos (List.mem_of_getElem? found) own
  have unfreed : ∀ p ∈ [ssl], s.ssls.frees p = 0 := by
    intro p member
    rw [List.mem_singleton.mp member]
    exact objects.ssls.frees_eq_zero owned
  have no_fault := ObjectHeap.faults_use unfreed
  rw [TlsInterface.onSsl]
  cases ok with
  | true =>
      refine ⟨?_, no_fault.trans objects.ssl_faults, objects.ctxs, objects.ctx_faults⟩
      have same : held TlsStage.ssl (s.stages.set w next) = held TlsStage.ssl s.stages := by
        rw [held_set next found, own, kept, sub_self, add_zero]
      rw [if_pos rfl, same]
      exact objects.ssls.use [ssl]
  | false =>
      refine ⟨?_, no_fault.trans objects.ssl_faults, objects.ctxs, objects.ctx_faults⟩
      have less : held TlsStage.ssl (s.stages.set w .failed) =
          held TlsStage.ssl s.stages - unit (some ssl) := by
        rw [held_set _ found, own]
        simp [TlsStage.ssl, sub_eq_add_neg]
      rw [if_neg Bool.false_ne_true, less]
      exact (objects.ssls.use [ssl]).free (objects.ssls.lt_next owned)

theorem Serving.onSsl (serving : s.Serving) {w ssl : ℕ} {stage next : TlsStage}
    (found : s.stages[w]? = some stage) (busy : stage ≠ .idle) (ok : Bool) :
    (s.onSsl w ssl ok next).Serving := by
  rw [TlsInterface.onSsl]
  split
  · exact serving.set_stage found busy
  · exact serving.set_stage found busy

theorem onSsl_frame (w ssl : ℕ) (ok : Bool) (next : TlsStage) :
    (s.onSsl w ssl ok next).phase = s.phase ∧ (s.onSsl w ssl ok next).stray = s.stray := by
  rw [TlsInterface.onSsl]
  split <;> exact ⟨rfl, rfl⟩

/-- `SSL_new` uses the context that the interface holds. -/
theorem Objects.sslNew (objects : s.Objects) (serving : s.Serving) {w : ℕ}
    (found : s.stages[w]? = some .fresh) (ok : Bool) : (s.sslNew w ok).Objects := by
  obtain ⟨ctx, ctx_eq⟩ := Option.isSome_iff_exists.mp serving.engCtx
  have ctx_owned : 1 ≤ unit s.engCtx ctx := by rw [ctx_eq, unit, if_pos rfl]
  have unfreed : ∀ p ∈ [ctx], s.ctxs.frees p = 0 := by
    intro p member
    rw [List.mem_singleton.mp member]
    exact objects.ctxs.frees_eq_zero ctx_owned
  have no_fault := (ObjectHeap.faults_use unfreed).trans objects.ctx_faults
  rw [TlsInterface.sslNew]
  split
  · rename_i none_ctx
    rw [ctx_eq] at none_ctx
    cases none_ctx
  rename_i own own_eq
  obtain rfl : ctx = own := Option.some.inj (ctx_eq.symm.trans own_eq)
  cases ok with
  | true =>
      refine ⟨?_, objects.ssl_faults, objects.ctxs.use [ctx], no_fault⟩
      have more : held TlsStage.ssl (s.stages.set w (.made s.ssls.next)) =
          held TlsStage.ssl s.stages + unit (some s.ssls.next) := by
        rw [held_set _ found]
        simp [TlsStage.ssl]
      rw [if_pos rfl, more]
      exact objects.ssls.alloc ()
  | false =>
      refine ⟨?_, objects.ssl_faults, objects.ctxs.use [ctx], no_fault⟩
      have same : held TlsStage.ssl (s.stages.set w .failed) = held TlsStage.ssl s.stages := by
        rw [held_set _ found]
        simp [TlsStage.ssl]
      rw [if_neg Bool.false_ne_true, same]
      exact objects.ssls

theorem Serving.sslNew (serving : s.Serving) {w : ℕ} (found : s.stages[w]? = some .fresh)
    (ok : Bool) : (s.sslNew w ok).Serving := by
  have busy : TlsStage.fresh ≠ .idle := by decide
  rw [TlsInterface.sslNew]
  split
  · exact serving.set_stage found busy
  · split
    · exact serving.set_stage found busy
    · exact serving.set_stage found busy

theorem sslNew_frame (w : ℕ) (ok : Bool) :
    (s.sslNew w ok).phase = s.phase ∧ (s.sslNew w ok).stray = s.stray := by
  rw [TlsInterface.sslNew]
  split
  · exact ⟨rfl, rfl⟩
  · split <;> exact ⟨rfl, rfl⟩

/-- A worker closes its connection: the object is freed and the descriptor is one of its own. -/
theorem Serving.tlsClose (serving : s.Serving) (objects : s.Objects) {w : ℕ} {stage : TlsStage}
    {engTmp : Option ℕ} {fd : ℤ} (found : s.stages[w]? = some stage) (own : stage.ssl = engTmp)
    (serves : s.serves w = some fd) (steps : s.tlsClose w engTmp fd = some s') :
    s'.Objects ∧ s'.Serving ∧ s'.phase = s.phase ∧ s'.stray = s.stray := by
  obtain ⟨net, closed, rfl⟩ := Option.map_eq_some_iff.mp steps
  obtain ⟨queue, queues, perm⟩ := serving.fds
  obtain ⟨worker, fd', after, worker_found, phase, after_idle, workers, queues', inflight⟩ :=
    NetServer.inflight_close queues closed
  obtain rfl : fd' = fd := by
    rw [TlsInterface.serves, worker_found, Option.map_some, phase] at serves
    exact Option.some.inj serves
  have all := perm.trans (inflight.cons s.sockfd)
  have member : fd' ∈ s.fds := all.mem_iff.mpr (by simp)
  simp only [closeFd, if_pos member]
  have stage_lt := (List.getElem?_eq_some_iff.mp found).1
  refine ⟨⟨?_, ?_, objects.ctxs, objects.ctx_faults⟩, ⟨?_, serving.engCtx, ?_, ?_, ?_, ?_⟩, trivial,
    trivial⟩
  · have less : held TlsStage.ssl (s.stages.set w .idle) =
        held TlsStage.ssl s.stages - unit engTmp := by
      rw [held_set _ found, own]
      simp [TlsStage.ssl, sub_eq_add_neg]
    rw [less]
    cases engTmp with
    | none =>
        rw [unit_none, sub_zero]
        exact objects.ssls
    | some ssl =>
        have owned := held_pos (List.mem_of_getElem? found) own
        exact (objects.ssls.use [ssl]).free (objects.ssls.lt_next owned)
  · cases engTmp with
    | none => exact objects.ssl_faults
    | some ssl =>
        have owned := held_pos (List.mem_of_getElem? found) own
        have unfreed : ∀ p ∈ [ssl], s.ssls.frees p = 0 := by
          intro p p_mem
          rw [List.mem_singleton.mp p_mem]
          exact objects.ssls.frees_eq_zero owned
        exact (ObjectHeap.faults_use unfreed).trans objects.ssl_faults
  · exact serving.consistent.move (netStep_move closed)
  · refine ⟨queue, queues', ?_⟩
    have erased := all.erase fd'
    have nodup : (s.sockfd :: fd' :: net.inflight queue).Nodup := all.nodup_iff.mp serving.nodup
    have apart : s.sockfd ≠ fd' := by
      rintro same
      rw [same] at nodup
      exact (List.nodup_cons.mp nodup).1 List.mem_cons_self
    rwa [List.erase_cons_tail (by simpa using apart), List.erase_cons_head] at erased
  · exact serving.nodup.erase fd'
  · rw [List.length_set, workers, List.length_set]
    exact serving.length
  · intro i other other_found idle
    rw [workers] at other_found
    by_cases same : w = i
    · subst same
      rw [List.getElem?_set_self stage_lt]
    · rw [List.getElem?_set_ne same] at other_found
      rw [List.getElem?_set_ne same]
      exact serving.idle i other other_found idle

/-- A turn of the acceptor loop. -/
theorem Serving.tlsAccept (serving : s.Serving) {ret newsockfd : ℤ}
    (steps : s.tlsAccept ret newsockfd = some s') :
    s'.Serving ∧ ∃ net fds, s' = { s with net, fds } := by
  obtain ⟨queue, queues, perm⟩ := serving.fds
  rw [TlsInterface.tlsAccept] at steps
  split at steps
  · rename_i stops
    obtain ⟨net, moved, rfl⟩ := Option.map_eq_some_iff.mp steps
    obtain ⟨workers, queues', inflight⟩ := NetServer.inflight_accept queues moved
    rw [if_pos stops] at inflight
    refine ⟨⟨serving.consistent.move (netStep_move moved), serving.engCtx, ⟨queue, queues', ?_⟩,
      serving.nodup, ?_, ?_⟩, net, s.fds, rfl⟩
    · rw [inflight]
      exact perm
    · rw [workers]
      exact serving.length
    · rw [workers]
      exact serving.idle
  split at steps
  · cases steps
  rename_i goes unused
  obtain ⟨net, moved, rfl⟩ := Option.map_eq_some_iff.mp steps
  obtain ⟨workers, queues', inflight⟩ := NetServer.inflight_accept queues moved
  rw [if_neg goes] at inflight
  refine ⟨⟨serving.consistent.move (netStep_move moved), serving.engCtx, ⟨queue, queues', ?_⟩,
    List.nodup_cons.mpr ⟨unused, serving.nodup⟩, ?_, ?_⟩, net, _, rfl⟩
  · rw [inflight]
    exact (perm.cons newsockfd).trans (List.Perm.swap _ _ _)
  · rw [workers]
    exact serving.length
  · rw [workers]
    exact serving.idle

/-- The acceptor's thread pushes, or joins a worker. -/
theorem Serving.move (serving : s.Serving) {net : NetServer} (moved : NetMove s.net net)
    (workers : net.workers = s.net.workers)
    (kept : ∀ queue, s.net.Queues queue → ∃ queue', net.Queues queue' ∧
      (net.inflight queue').Perm (s.net.inflight queue)) : Serving { s with net } := by
  obtain ⟨queue, queues, perm⟩ := serving.fds
  obtain ⟨queue', queues', same⟩ := kept queue queues
  refine ⟨serving.consistent.move moved, serving.engCtx, ⟨queue', queues', ?_⟩, serving.nodup,
    ?_, ?_⟩
  · exact perm.trans (same.symm.cons s.sockfd)
  · rw [workers]
    exact serving.length
  · rw [workers]
    exact serving.idle

/-- A worker takes a descriptor. -/
theorem Serving.pop (serving : s.Serving) (objects : s.Objects) {w : ℕ}
    (steps : s.serve (.pop w) = some s') :
    s'.Objects ∧ s'.Serving ∧ s'.phase = s.phase ∧ s'.stray = s.stray := by
  obtain ⟨net, popped, rfl⟩ := Option.map_eq_some_iff.mp steps
  obtain ⟨queue, queues, perm⟩ := serving.fds
  obtain ⟨worker, after, found, was_idle, workers, queue', queues', same⟩ :=
    NetServer.inflight_pop queues popped
  have idle_before := serving.idle w worker found was_idle
  have lt := (List.getElem?_eq_some_iff.mp found).1
  have consistent := serving.consistent.move (netStep_move popped)
  have fds := perm.trans (same.symm.cons s.sockfd)
  have length : s.stages.length = net.workers.length := by
    rw [workers, List.length_set]
    exact serving.length
  have others {i : ℕ} (apart : w ≠ i) {other : NetWorker} (other_found : net.workers[i]? = some other)
      (idle : other.fds = []) : s.stages[i]? = some .idle := by
    rw [workers, List.getElem?_set_ne apart] at other_found
    exact serving.idle i other other_found idle
  dsimp only
  split
  · rename_i taken
    refine ⟨⟨?_, objects.ssl_faults, objects.ctxs, objects.ctx_faults⟩,
      ⟨consistent, serving.engCtx, ⟨queue', queues', fds⟩, serving.nodup, ?_, ?_⟩, rfl, rfl⟩
    · have none_more : held TlsStage.ssl (s.stages.set w .fresh) = held TlsStage.ssl s.stages := by
        rw [held_set _ idle_before]
        simp [TlsStage.ssl]
      rw [none_more]
      exact objects.ssls
    · rw [List.length_set]
      exact length
    · intro i other other_found idle
      by_cases same : w = i
      · subst same
        obtain ⟨fd, serves⟩ := Option.isSome_iff_exists.mp taken
        simp only [TlsInterface.serves, other_found, Option.map_some] at serves
        split at serves
        · rename_i phase
          rw [NetWorker.fds, Option.some.inj phase] at idle
          cases idle
        · cases serves
      · rw [List.getElem?_set_ne same]
        exact others same other_found idle
  · refine ⟨⟨objects.ssls, objects.ssl_faults, objects.ctxs, objects.ctx_faults⟩,
      ⟨consistent, serving.engCtx, ⟨queue', queues', fds⟩, serving.nodup, length,
        fun i other other_found idle => ?_⟩, rfl, rfl⟩
    by_cases same : w = i
    · subst same
      exact idle_before
    · exact others same other_found idle

/-- When the server returns no connection is left. -/
theorem Serving.returned (serving : s.Serving)
    (returned : s.net.acceptor = .joining s.net.workers.length) :
    s.fds = [s.sockfd] ∧ ∀ stage ∈ s.stages, stage = .idle := by
  obtain ⟨queue, queues, perm⟩ := serving.fds
  have ended := serving.consistent.ended_of_returned returned
  have no_fds : ∀ worker ∈ s.net.workers, worker.fds = [] := fun worker member => by
    rw [NetWorker.fds, ended worker member]
  have left := serving.consistent.left_eq returned
  have entered := serving.consistent.entered_eq
  rw [returned, NetAcceptor.pending, NetAcceptor.sentinels, List.append_nil, ← left,
    queues.2] at entered
  have nothing : queue = [] := List.append_cancel_left (entered.trans (List.append_nil _).symm)
  constructor
  · rw [NetServer.inflight, returned, NetAcceptor.pending, nothing,
      List.flatMap_eq_nil_iff.mpr no_fds] at perm
    exact List.perm_singleton.mp perm
  · intro stage member
    obtain ⟨w, found⟩ := List.getElem?_of_mem member
    have lt : w < s.net.workers.length := by
      rw [← serving.length]
      exact (List.getElem?_eq_some_iff.mp found).1
    have idle := serving.idle w _ (List.getElem?_eq_getElem lt) (no_fds _ (List.getElem_mem lt))
    exact Option.some.inj (found.symm.trans idle)

/-- Every step of the running server. -/
theorem Place.serve (place : s.Place opened) (objects : s.Objects) (at_serve : s.phase = .serving)
    {action : TlsAction} (steps : s.serve action = some s') : s'.Objects ∧ s'.Place opened := by
  rw [Place, at_serve] at place
  obtain ⟨was_opened, serving, stray⟩ := place
  have again (t : TlsInterface) (t_objects : t.Objects) (t_serving : t.Serving)
      (t_phase : t.phase = s.phase) (t_stray : t.stray = s.stray) : t.Objects ∧ t.Place opened := by
    refine ⟨t_objects, ?_⟩
    rw [Place, t_phase, at_serve]
    exact ⟨was_opened, t_serving, t_stray.trans stray⟩
  have same_objects {net : NetServer} {fds : List ℤ} : Objects { s with net, fds } :=
    ⟨objects.ssls, objects.ssl_faults, objects.ctxs, objects.ctx_faults⟩
  cases action with
  | accept ret newsockfd =>
      obtain ⟨serving', net, fds, rfl⟩ := serving.tlsAccept steps
      exact again _ same_objects serving' rfl rfl
  | push =>
      obtain ⟨net, moved, rfl⟩ := Option.map_eq_some_iff.mp steps
      refine again _ same_objects (serving.move (netStep_move moved) ?_ fun queue queues => ?_) rfl
        rfl
      · obtain ⟨queue, queues, -⟩ := serving.fds
        exact (NetServer.inflight_push serving.consistent queues moved).1
      · exact (NetServer.inflight_push serving.consistent queues moved).2
  | join =>
      obtain ⟨net, moved, rfl⟩ := Option.map_eq_some_iff.mp steps
      refine again _ same_objects (serving.move (netStep_move moved) ?_ fun queue queues => ?_) rfl
        rfl
      · obtain ⟨queue, queues, -⟩ := serving.fds
        exact (NetServer.inflight_join queues moved).1
      · obtain ⟨-, queues', same⟩ := NetServer.inflight_join queues moved
        exact ⟨queue, queues', List.Perm.of_eq same⟩
  | pop w =>
      obtain ⟨objects', serving', phase, stray'⟩ := serving.pop objects steps
      exact again s' objects' serving' phase stray'
  | sslNew w ok =>
      simp only [TlsInterface.serve] at steps
      split at steps <;> [rename_i found; cases steps]
      obtain rfl := Option.some.inj steps
      obtain ⟨phase, stray'⟩ := sslNew_frame (s := s) w ok
      exact again _ (objects.sslNew serving found ok) (serving.sslNew found ok) phase stray'
  | sslAccept w ret =>
      simp only [TlsInterface.serve] at steps
      split at steps <;> [rename_i ssl found; cases steps]
      obtain rfl := Option.some.inj steps
      obtain ⟨phase, stray'⟩ := onSsl_frame (s := s) w ssl (0 < ret) (.accepted ssl)
      exact again _ (objects.onSsl found rfl rfl _) (serving.onSsl found (by simp) _) phase stray'
  | sslRead w n =>
      simp only [TlsInterface.serve] at steps
      split at steps <;> [rename_i ssl found; cases steps]
      obtain rfl := Option.some.inj steps
      obtain ⟨phase, stray'⟩ := onSsl_frame (s := s) w ssl (0 < n) (.received ssl)
      exact again _ (objects.onSsl found rfl rfl _) (serving.onSsl found (by simp) _) phase stray'
  | answer w =>
      simp only [TlsInterface.serve] at steps
      split at steps <;> [rename_i ssl found; cases steps]
      obtain rfl := Option.some.inj steps
      obtain ⟨phase, stray'⟩ := onSsl_frame (s := s) w ssl true (.answered ssl)
      exact again _ (objects.onSsl found rfl rfl _) (serving.onSsl found (by simp) _) phase stray'
  | close w =>
      simp only [TlsInterface.serve] at steps
      split at steps
      · rename_i ssl fd found serves
        obtain ⟨objects', serving', phase, stray'⟩ := serving.tlsClose objects found rfl serves steps
        exact again s' objects' serving' phase stray'
      · rename_i fd found serves
        obtain ⟨objects', serving', phase, stray'⟩ := serving.tlsClose objects found rfl serves steps
        exact again s' objects' serving' phase stray'
      · cases steps
  | ret =>
      simp only [TlsInterface.serve] at steps
      split at steps <;> [rename_i returned; cases steps]
      obtain rfl := Option.some.inj steps
      obtain ⟨fds, idle⟩ := serving.returned returned
      exact ⟨⟨objects.ssls, objects.ssl_faults, objects.ctxs, objects.ctx_faults⟩, idle, stray,
        .inl ⟨was_opened, serving.engCtx, fds⟩⟩
  | tryOpen sd made => cases steps
  | listen ok => cases steps
  | netClose => cases steps

/-- The action opens the interface. -/
def opens : TlsAction → Prop
  | .tryOpen sd made => 0 ≤ sd ∧ made = .ready
  | _ => False

theorem Place.congr {opened' : Prop} (place : s.Place opened) (same : opened ↔ opened') :
    s.Place opened' := (propext same) ▸ place

/-- `net_listen` starts the server or goes to `_end`. -/
theorem Place.listen (place : s.Place opened) (objects : s.Objects) (at_listen : s.phase = .opened)
    {ok : Bool} (steps : s.step (.listen ok) = some s') : s'.Objects ∧ s'.Place opened := by
  rw [Place, at_listen] at place
  obtain ⟨was_opened, ⟨nworkers, net_eq⟩, stages, ctx, fds, stray⟩ := place
  have nothing : held TlsStage.ssl (List.replicate s.net.workers.length .idle) =
      held TlsStage.ssl s.stages := by
    rw [held_eq_zero fun stage member => by rw [List.eq_of_mem_replicate member]; rfl, stages]
    rfl
  simp only [TlsInterface.step, at_listen] at steps
  split at steps
  · obtain rfl := Option.some.inj steps
    refine ⟨⟨?_, objects.ssl_faults, objects.ctxs, objects.ctx_faults⟩, was_opened, ?_, stray⟩
    · rw [nothing]
      exact objects.ssls
    · have started : ∀ worker ∈ s.net.workers, worker = .started := by
        rw [net_eq]
        exact fun worker member => List.eq_of_mem_replicate member
      refine ⟨?_, ctx, ⟨[], ?_, ?_⟩, ?_, List.length_replicate, fun w worker found _ => ?_⟩
      · rw [net_eq]
        exact .start nworkers
      · rw [net_eq]
        exact ⟨NetJobQ.cleared_holds, rfl⟩
      · have no_fds : s.net.workers.flatMap NetWorker.fds = [] :=
          List.flatMap_eq_nil_iff.mpr fun worker member => by rw [started worker member]; rfl
        have no_pending : s.net.acceptor.pending = [] := by rw [net_eq]; rfl
        rw [NetServer.inflight, no_fds, no_pending]
        exact List.Perm.of_eq fds
      · rw [fds]
        exact List.pairwise_singleton _ _
      · exact List.getElem?_replicate_of_lt (List.getElem?_eq_some_iff.mp found).1
  · obtain rfl := Option.some.inj steps
    refine ⟨⟨objects.ssls, objects.ssl_faults, objects.ctxs, objects.ctx_faults⟩, ?_, stray,
      .inl ⟨was_opened, ctx, fds⟩⟩
    intro stage member
    rw [show s.stages = [] from stages] at member
    cases member

/-- `net_close` at the end: the context is freed, and the descriptor is closed once more when
`net_open` has failed. -/
theorem Place.netClose (place : s.Place opened) (objects : s.Objects)
    (at_close : s.phase = .closing) (steps : s.step .netClose = some s') :
    s'.Objects ∧ s'.Place opened := by
  rw [Place, at_close] at place
  obtain ⟨idle, stray, held_fds⟩ := place
  simp only [TlsInterface.step, at_close] at steps
  obtain rfl := Option.some.inj steps
  rcases held_fds with ⟨was_opened, ctx, fds⟩ | ⟨unopened, no_ctx, no_fds⟩
  · obtain ⟨own, own_eq⟩ := Option.isSome_iff_exists.mp ctx
    have conserved := objects.ctxs
    have owned : 1 ≤ unit s.engCtx own := by rw [own_eq, unit, if_pos rfl]
    have freed := conserved.free (conserved.lt_next owned)
    rw [own_eq, sub_self] at freed
    have member : s.sockfd ∈ s.fds := by
      rw [fds]
      exact List.mem_cons_self
    simp only [closeFd, if_pos member, own_eq, Option.elim_some]
    refine ⟨⟨objects.ssls, objects.ssl_faults, ?_, objects.ctx_faults⟩, idle, rfl, ?_, ?_⟩
    · rw [unit_none]
      exact freed
    · simp only [fds, List.erase_cons_head]
    · exact iff_of_true stray was_opened
  · have absent : s.sockfd ∉ s.fds := by
      rw [no_fds]
      exact List.not_mem_nil
    simp only [closeFd, if_neg absent, no_ctx, Option.elim_none]
    refine ⟨⟨objects.ssls, objects.ssl_faults, ?_, objects.ctx_faults⟩, idle, rfl, no_fds, ?_⟩
    · have conserved := objects.ctxs
      rwa [no_ctx] at conserved
    · exact iff_of_false (Nat.succ_ne_zero _) unopened

/-- Every step keeps the objects and the descriptors in order. -/
theorem Place.step (place : s.Place opened) (objects : s.Objects) {action : TlsAction}
    (steps : s.step action = some s') : s'.Objects ∧ s'.Place (opened ∨ opens action) := by
  have other {t : TlsInterface} (kept : t.Objects ∧ t.Place opened) (unopens : ¬ opens action) :
      t.Objects ∧ t.Place (opened ∨ opens action) :=
    ⟨kept.1, kept.2.congr (or_iff_left unopens).symm⟩
  cases phase : s.phase with
  | opening tries =>
      cases action with
      | tryOpen sd made =>
          simp only [TlsInterface.step, phase] at steps
          exact place.open objects phase steps
      | _ => simp [TlsInterface.step, phase] at steps
  | opened =>
      cases action with
      | listen ok => exact other (place.listen objects phase steps) id
      | _ => simp [TlsInterface.step, phase] at steps
  | serving =>
      have serves : s.serve action = some s' := by
        simpa only [TlsInterface.step, phase] using steps
      refine other (place.serve objects phase serves) fun opening => ?_
      cases action with
      | tryOpen sd made => cases serves
      | _ => exact opening
  | closing =>
      cases action with
      | netClose => exact other (place.netClose objects phase steps) id
      | _ => simp [TlsInterface.step, phase] at steps
  | ended => simp [TlsInterface.step, phase] at steps

/-- Every run keeps the objects and the descriptors in order. -/
theorem Place.run {actions : List TlsAction} :
    ∀ {s : TlsInterface} {opened : Prop}, s.Place opened → s.Objects →
      execAll TlsInterface.step s actions = some s' →
        s'.Objects ∧ s'.Place (opened ∨ ∃ action ∈ actions, opens action) := by
  induction actions with
  | nil =>
      rintro s opened place objects ⟨⟩
      exact ⟨objects, place.congr (by simp)⟩
  | cons action actions induction =>
      intro s opened place objects run
      obtain ⟨next, steps, rest⟩ := Option.bind_eq_some_iff.mp run
      obtain ⟨objects', place'⟩ := place.step objects steps
      obtain ⟨objects'', place''⟩ := induction place' objects' rest
      refine ⟨objects'', place''.congr ?_⟩
      simp only [List.mem_cons, exists_eq_or_imp, or_assoc]

end Steps

end TlsInterface

/-- In every interleaving no freed object is used, and no number is closed that is not open before
the end.  At the end every object has been freed once and every descriptor is closed, and the last
`close` is of an open descriptor exactly when `net_open` has succeeded. -/
theorem tlsInterface_releases (nworkers : ℤ) {actions : List TlsAction} {s : TlsInterface}
    (run : execAll TlsInterface.step (.start nworkers) actions = some s) :
    s.ssls.faults = 0 ∧ s.ctxs.faults = 0 ∧ (s.phase ≠ .ended → s.stray = 0) ∧
      (s.phase = .ended → (∀ p < s.ssls.next, s.ssls.frees p = 1) ∧
        (∀ p < s.ctxs.next, s.ctxs.frees p = 1) ∧ s.fds = [] ∧
          (s.stray = 0 ↔ ∃ action ∈ actions, TlsInterface.opens action)) := by
  have objects : (TlsInterface.start nworkers).Objects := by
    refine ⟨?_, rfl, ?_, rfl⟩
    · exact ObjectHeap.Conserved.empty
    · rw [TlsInterface.start, unit_none]
      exact ObjectHeap.Conserved.empty
  have place : (TlsInterface.start nworkers).Place False :=
    ⟨id, ⟨nworkers, rfl⟩, rfl, rfl, rfl, rfl⟩
  obtain ⟨objects, place⟩ := place.run objects run
  rw [TlsInterface.Place] at place
  refine ⟨objects.ssl_faults, objects.ctx_faults, fun running => ?_, fun ended => ?_⟩
  · cases phase : s.phase with
    | opening tries =>
        rw [phase] at place
        exact place.2.2.2.2.2
    | opened =>
        rw [phase] at place
        exact place.2.2.2.2.2
    | serving =>
        rw [phase] at place
        exact place.2.2
    | closing =>
        rw [phase] at place
        exact place.2.1
    | ended => exact absurd phase running
  rw [ended] at place
  obtain ⟨idle, no_ctx, no_fds, stray⟩ := place
  refine ⟨fun p allocated => objects.idle idle allocated, fun p allocated => ?_, no_fds, ?_⟩
  · have once := objects.ctxs p
    rw [no_ctx, unit_none, if_pos allocated] at once
    simpa using once
  · rw [stray, false_or]

/-- An interface with one worker that answers one request. -/
def tlsOneRequest : List TlsAction :=
  [.tryOpen (-1) .refused, .tryOpen 3 .freed, .tryOpen 3 .ready, .listen true, .accept 0 4, .push,
    .pop 0, .sslNew 0 true, .accept (-7) (-1), .sslAccept 0 1, .push, .sslRead 0 60, .answer 0,
    .close 0, .pop 0, .join, .ret, .netClose]

/-- The interface leaves nothing behind. -/
theorem tlsOneRequest_releases :
    ∃ s, execAll TlsInterface.step (.start 1) tlsOneRequest = some s ∧ s.ssls.frees 0 = 1 ∧
      s.ctxs.frees 1 = 1 ∧ s.stray = 0 := by
  have ends : (execAll TlsInterface.step (.start 1) tlsOneRequest).map
      (fun s => (s.phase, s.ssls.next, s.ctxs.next)) = some (.ended, 1, 2) := by
    decide +kernel
  obtain ⟨s, run, last⟩ := Option.map_eq_some_iff.mp ends
  obtain ⟨phase, rest⟩ := Prod.mk.inj last
  obtain ⟨ssls, ctxs⟩ := Prod.mk.inj rest
  obtain ⟨-, -, -, ended⟩ := tlsInterface_releases 1 run
  obtain ⟨ssl_freed, ctx_freed, -, stray⟩ := ended phase
  refine ⟨s, run, ssl_freed 0 (by omega), ctx_freed 1 (by omega), stray.mpr ?_⟩
  exact ⟨.tryOpen 3 .ready, by decide, by decide, rfl⟩

end RateEngine
