import RateEngine.Lib.GuardedRun
import RateEngine.Lib.Ring
import RateEngine.Lib.Slots

/-!
# The parallel network server

`net_parallel_server` accepts connections and hands their descriptors over a bounded queue to worker
threads.  This file models the queue, the acceptor and the workers as one transition system, and
proves that in every interleaving the workers take the accepted descriptors in order, each once, and
one sentinel each when the server shuts down.
-/

namespace RateEngine

/-! ## The queue -/

/-- `NET_PSRV_QCAP`. -/
def netPsrvQcap : ℕ := 1024

/-- `net_job_q_t`; each of its two operations runs under the lock as one step. -/
structure NetJobQ where
  fds : List ℤ
  head : ℕ
  tail : ℕ
  count : ℤ

/-- The queue that `memset` has cleared. -/
def NetJobQ.cleared : NetJobQ := ⟨List.replicate netPsrvQcap 0, 0, 0, 0⟩

/-- `net_job_push`; `none` while it waits for `not_full`. -/
def netJobPush (q : NetJobQ) (fd : ℤ) : Option NetJobQ :=
  if q.count = netPsrvQcap then none
  else
    some { q with
      fds := q.fds.set q.tail fd
      tail := (q.tail + 1) % netPsrvQcap
      count := q.count + 1 }

/-- `net_job_pop`; `none` while it waits for `not_empty`. -/
def netJobPop (q : NetJobQ) : Option (ℤ × NetJobQ) :=
  if q.count = 0 then none
  else
    some (q.fds.getD q.head 0, { q with
      head := (q.head + 1) % netPsrvQcap
      count := q.count - 1 })

/-- The queue holds the descriptors in this order. -/
structure NetJobQ.Holds (q : NetJobQ) (fds : List ℤ) : Prop where
  ring : RingHolds netPsrvQcap q.fds q.head q.tail fds
  count_eq : q.count = fds.length

theorem NetJobQ.cleared_holds : NetJobQ.cleared.Holds [] where
  ring := RingHolds.nil List.length_replicate (by decide)
  count_eq := rfl

/-- The count of a queue stays between zero and the capacity. -/
theorem NetJobQ.Holds.bounds {q : NetJobQ} {fds : List ℤ} (holds : q.Holds fds) :
    0 ≤ q.count ∧ q.count ≤ netPsrvQcap := by
  have fits := holds.ring.fits
  have count := holds.count_eq
  omega

/-- A push that does not wait appends the descriptor. -/
theorem NetJobQ.Holds.push {q q' : NetJobQ} {fds : List ℤ} {fd : ℤ} (holds : q.Holds fds)
    (pushed : netJobPush q fd = some q') : q'.Holds (fds ++ [fd]) := by
  unfold netJobPush at pushed
  split at pushed
  · cases pushed
  · rename_i room
    obtain rfl := Option.some.inj pushed
    have fits := holds.ring.fits
    have count := holds.count_eq
    refine ⟨holds.ring.push (by omega) fd, ?_⟩
    rw [count, List.length_append, List.length_singleton, Nat.cast_add, Nat.cast_one]

/-- A pop that does not wait takes the first descriptor. -/
theorem NetJobQ.Holds.pop {q q' : NetJobQ} {fds : List ℤ} {fd : ℤ} (holds : q.Holds fds)
    (popped : netJobPop q = some (fd, q')) : ∃ rest, fds = fd :: rest ∧ q'.Holds rest := by
  unfold netJobPop at popped
  split at popped
  · cases popped
  · rename_i filled
    obtain ⟨rfl, rfl⟩ := Prod.mk.inj (Option.some.inj popped)
    cases fds with
    | nil => exact absurd holds.count_eq filled
    | cons first rest =>
        have front : q.fds.getD q.head 0 = first := by
          rw [List.getD_eq_getElem?_getD, holds.ring.front, Option.getD_some]
        refine ⟨rest, by rw [front], holds.ring.pop, ?_⟩
        rw [holds.count_eq, List.length_cons, Nat.cast_add, Nat.cast_one, add_sub_cancel_right]

/-- A push waits only on a full queue. -/
theorem NetJobQ.Holds.exists_push {q : NetJobQ} {fds : List ℤ} (holds : q.Holds fds)
    (room : fds.length < netPsrvQcap) (fd : ℤ) : ∃ q', netJobPush q fd = some q' := by
  have count := holds.count_eq
  exact ⟨_, if_neg (by omega)⟩

/-- A pop waits only on an empty queue. -/
theorem NetJobQ.Holds.exists_pop {q : NetJobQ} {fds : List ℤ} (holds : q.Holds fds)
    (filled : fds ≠ []) : ∃ fd q', netJobPop q = some (fd, q') := by
  have positive := List.length_pos_of_ne_nil filled
  have count := holds.count_eq
  exact ⟨_, _, if_neg (by omega)⟩

/-! ## The server -/

/-- Where a worker thread stands in its loop. -/
inductive NetWorkerPhase where
  /-- About to pop, perhaps waiting for a descriptor. -/
  | waiting
  /-- Between the pop and the close of the descriptor. -/
  | serving (fd : ℤ)
  /-- Behind the loop. -/
  | ended
  deriving DecidableEq

/-- `net_worker_thread`, with the descriptors that it popped and those that it
handled and closed. -/
structure NetWorker where
  phase : NetWorkerPhase
  taken : List ℤ
  handled : List ℤ

/-- A worker whose start-up is done. -/
def NetWorker.started : NetWorker := ⟨.waiting, [], []⟩

/-- The worker has popped a descriptor; a negative one is the sentinel that ends it. -/
def NetWorker.take (worker : NetWorker) (fd : ℤ) : NetWorker :=
  { worker with
    phase := if fd < 0 then .ended else .serving fd
    taken := worker.taken ++ [fd] }

/-- The worker has received, answered and closed a connection. -/
def NetWorker.close (worker : NetWorker) (fd : ℤ) : NetWorker :=
  { worker with phase := .waiting, handled := worker.handled ++ [fd] }

/-- Where the thread of `net_parallel_server` stands. -/
inductive NetAcceptor where
  /-- At the head of the acceptor loop. -/
  | accepting
  /-- About to push an accepted descriptor. -/
  | pushing (fd : ℤ)
  /-- About to push the sentinel of this number. -/
  | waking (i : ℕ)
  /-- About to join the worker of this number; behind the last one the server returns. -/
  | joining (i : ℕ)
  deriving DecidableEq

/-- The threads and the queue, with the descriptors that were accepted, that entered and that left
the queue, in that order. -/
structure NetServer where
  acceptor : NetAcceptor
  q : NetJobQ
  workers : List NetWorker
  accepted : List ℤ
  entered : List ℤ
  left : List ℤ

/-- The number of workers that the server starts. -/
def netWorkers (nworkers : ℤ) : ℕ := if nworkers ≤ 0 then 1 else nworkers.toNat

/-- `net_parallel_server` has started its workers. -/
def netParallelServer (nworkers : ℤ) : NetServer where
  acceptor := .accepting
  q := .cleared
  workers := List.replicate (netWorkers nworkers) .started
  accepted := []
  entered := []
  left := []

/-- The atomic steps of the threads. -/
inductive NetEvent where
  /-- One turn of the acceptor loop up to the push: the listening descriptor, what `accept` returned
  and the descriptor that it left in the connection. -/
  | accept (sockfd ret newsockfd : ℤ)
  /-- The push of the acceptor's thread. -/
  | push
  /-- The pop of a worker. -/
  | pop (worker : ℕ)
  /-- The worker closes the connection that it served. -/
  | close (worker : ℕ)
  /-- The acceptor's thread joins the next worker. -/
  | join

/-- Push one descriptor and go on. -/
def NetServer.push (s : NetServer) (fd : ℤ) (next : NetAcceptor) : Option NetServer :=
  (netJobPush s.q fd).map fun q =>
    { s with acceptor := next, q, entered := s.entered ++ [fd] }

/-- One step of one thread; `none` when the thread waits or is not there. -/
def netStep (s : NetServer) : NetEvent → Option NetServer
  | .accept sockfd ret newsockfd =>
      match s.acceptor with
      | .accepting =>
          if sockfd ≤ 0 ∨ ret < 0 ∨ newsockfd < 0 then some { s with acceptor := .waking 0 }
          else
            some { s with
              acceptor := .pushing newsockfd
              accepted := s.accepted ++ [newsockfd] }
      | _ => none
  | .push =>
      match s.acceptor with
      | .pushing fd => s.push fd .accepting
      | .waking i =>
          s.push (-1) (if i + 1 < s.workers.length then .waking (i + 1) else .joining 0)
      | _ => none
  | .pop w =>
      match s.workers[w]? with
      | some worker =>
          match worker.phase with
          | .waiting =>
              (netJobPop s.q).map fun (fd, q) =>
                { s with
                  q
                  workers := s.workers.set w (worker.take fd)
                  left := s.left ++ [fd] }
          | _ => none
      | none => none
  | .close w =>
      match s.workers[w]? with
      | some worker =>
          match worker.phase with
          | .serving fd => some { s with workers := s.workers.set w (worker.close fd) }
          | _ => none
      | none => none
  | .join =>
      match s.acceptor with
      | .joining i =>
          match s.workers[i]? with
          | some worker =>
              if worker.phase = .ended then some { s with acceptor := .joining (i + 1) } else none
          | none => none
      | _ => none

/-- Every worker has been joined. -/
def NetServer.Returned (s : NetServer) : Prop := s.acceptor = .joining s.workers.length

/-! ## What a step can do -/

/-- The steps of the server with what they change. -/
inductive NetMove : NetServer → NetServer → Prop
  | stop {s : NetServer} (at_head : s.acceptor = .accepting) :
      NetMove s { s with acceptor := .waking 0 }
  | accept {s : NetServer} (at_head : s.acceptor = .accepting) {fd : ℤ} (nonneg : 0 ≤ fd) :
      NetMove s { s with acceptor := .pushing fd, accepted := s.accepted ++ [fd] }
  | push {s s' : NetServer} {fd : ℤ} (at_push : s.acceptor = .pushing fd)
      (pushed : s.push fd .accepting = some s') : NetMove s s'
  | wake {s s' : NetServer} {i : ℕ} (at_wake : s.acceptor = .waking i)
      (pushed : s.push (-1) (if i + 1 < s.workers.length then .waking (i + 1) else .joining 0) =
        some s') : NetMove s s'
  | pop {s : NetServer} {w : ℕ} {worker : NetWorker} (found : s.workers[w]? = some worker)
      (waiting : worker.phase = .waiting) {fd : ℤ} {q : NetJobQ}
      (popped : netJobPop s.q = some (fd, q)) :
      NetMove s { s with
        q
        workers := s.workers.set w (worker.take fd)
        left := s.left ++ [fd] }
  | close {s : NetServer} {w : ℕ} {worker : NetWorker} (found : s.workers[w]? = some worker)
      {fd : ℤ} (serving : worker.phase = .serving fd) :
      NetMove s { s with workers := s.workers.set w (worker.close fd) }
  | join {s : NetServer} {i : ℕ} (at_join : s.acceptor = .joining i) {worker : NetWorker}
      (found : s.workers[i]? = some worker) (ended : worker.phase = .ended) :
      NetMove s { s with acceptor := .joining (i + 1) }

theorem netStep_move {s s' : NetServer} {event : NetEvent} (steps : netStep s event = some s') :
    NetMove s s' := by
  cases event with
  | accept sockfd ret newsockfd =>
      simp only [netStep] at steps
      split at steps
      · rename_i at_head
        split at steps
        · obtain rfl := Option.some.inj steps
          exact .stop at_head
        · rename_i continues
          obtain rfl := Option.some.inj steps
          exact .accept at_head (by omega)
      · cases steps
  | push =>
      simp only [netStep] at steps
      split at steps
      · rename_i at_push
        exact .push at_push steps
      · rename_i at_wake
        exact .wake at_wake steps
      · cases steps
  | pop w =>
      simp only [netStep] at steps
      split at steps
      · rename_i found
        split at steps
        · rename_i waiting
          obtain ⟨⟨fd, q⟩, popped, rfl⟩ := Option.map_eq_some_iff.mp steps
          exact .pop found waiting popped
        · cases steps
      · cases steps
  | close w =>
      simp only [netStep] at steps
      split at steps
      · rename_i found
        split at steps
        · rename_i serving
          obtain rfl := Option.some.inj steps
          exact .close found serving
        · cases steps
      · cases steps
  | join =>
      simp only [netStep] at steps
      split at steps
      · rename_i at_join
        split at steps
        · rename_i found
          split at steps
          · rename_i ended
            obtain rfl := Option.some.inj steps
            exact .join at_join found ended
          · cases steps
        · cases steps
      · cases steps

/-- A push that does not wait lets one descriptor enter. -/
theorem NetServer.push_eq {s s' : NetServer} {fd : ℤ} {next : NetAcceptor}
    (pushed : s.push fd next = some s') :
    ∃ q, netJobPush s.q fd = some q ∧
      s' = { s with acceptor := next, q, entered := s.entered ++ [fd] } := by
  obtain ⟨q, queued, rfl⟩ := Option.map_eq_some_iff.mp pushed
  exact ⟨q, queued, rfl⟩

/-! ## The invariant -/

/-- What a worker took last and has not closed: the descriptor that it serves, or the sentinel. -/
def NetWorkerPhase.unclosed : NetWorkerPhase → List ℤ
  | .waiting => []
  | .serving fd => [fd]
  | .ended => [-1]

/-- A worker handled all that it took, up to the descriptor that it serves or the sentinel. -/
structure NetWorker.Consistent (worker : NetWorker) : Prop where
  taken_eq : worker.taken = worker.handled ++ worker.phase.unclosed
  handled_nonneg : ∀ fd ∈ worker.handled, 0 ≤ fd
  serving_nonneg : ∀ fd, worker.phase = .serving fd → 0 ≤ fd

/-- The descriptor that is accepted and has not entered the queue. -/
def NetAcceptor.pending : NetAcceptor → List ℤ
  | .accepting => []
  | .pushing fd => [fd]
  | .waking _ => []
  | .joining _ => []

/-- The number of sentinels that entered the queue. -/
def NetAcceptor.sentinels (n : ℕ) : NetAcceptor → ℕ
  | .accepting => 0
  | .pushing _ => 0
  | .waking i => i
  | .joining _ => n

/-- The acceptor loop has ended. -/
def NetAcceptor.Stopping : NetAcceptor → Prop
  | .accepting => False
  | .pushing _ => False
  | .waking _ => True
  | .joining _ => True

/-- Nothing is lost between the acceptor, the queue and the workers. -/
structure NetServer.Consistent (s : NetServer) : Prop where
  started : 0 < s.workers.length
  queued : ∃ fds, s.q.Holds fds ∧ s.entered = s.left ++ fds
  entered_eq : s.entered ++ s.acceptor.pending =
    s.accepted ++ List.replicate (s.acceptor.sentinels s.workers.length) (-1)
  accepted_nonneg : ∀ fd ∈ s.accepted, 0 ≤ fd
  taken_perm : (s.workers.flatMap NetWorker.taken).Perm s.left
  workers : ∀ worker ∈ s.workers, worker.Consistent
  waking_lt : ∀ i, s.acceptor = .waking i → i < s.workers.length
  joined : ∀ i, s.acceptor = .joining i →
    ∀ j < i, ∃ worker, s.workers[j]? = some worker ∧ worker.phase = .ended

theorem netWorkers_pos (nworkers : ℤ) : 0 < netWorkers nworkers := by
  unfold netWorkers
  split <;> omega

theorem NetWorker.started_consistent : NetWorker.started.Consistent where
  taken_eq := rfl
  handled_nonneg fd member := by cases member
  serving_nonneg fd serving := by cases serving

theorem NetWorker.Consistent.take {worker : NetWorker} (consistent : worker.Consistent)
    (waiting : worker.phase = .waiting) {fd : ℤ} (known : 0 ≤ fd ∨ fd = -1) :
    (worker.take fd).Consistent where
  taken_eq := by
    have taken : worker.taken = worker.handled := by
      rw [consistent.taken_eq, waiting, NetWorkerPhase.unclosed, List.append_nil]
    simp only [NetWorker.take, taken]
    rcases known with nonneg | rfl
    · rw [if_neg (by omega), NetWorkerPhase.unclosed]
    · rfl
  handled_nonneg := consistent.handled_nonneg
  serving_nonneg served serving := by
    simp only [NetWorker.take] at serving
    split at serving
    · cases serving
    · obtain rfl := NetWorkerPhase.serving.inj serving
      omega

theorem NetWorker.Consistent.close {worker : NetWorker} (consistent : worker.Consistent)
    {fd : ℤ} (serving : worker.phase = .serving fd) : (worker.close fd).Consistent where
  taken_eq := by
    simp only [NetWorker.close, NetWorkerPhase.unclosed, List.append_nil]
    rw [consistent.taken_eq, serving, NetWorkerPhase.unclosed]
  handled_nonneg handled member := by
    rcases List.mem_append.mp member with earlier | last
    · exact consistent.handled_nonneg handled earlier
    · rw [List.mem_singleton.mp last]
      exact consistent.serving_nonneg fd serving
  serving_nonneg served still := by cases still

namespace NetServer.Consistent

variable {s s' : NetServer}

theorem start (nworkers : ℤ) : (netParallelServer nworkers).Consistent where
  started := by
    rw [netParallelServer, List.length_replicate]
    exact netWorkers_pos nworkers
  queued := ⟨[], NetJobQ.cleared_holds, rfl⟩
  entered_eq := rfl
  accepted_nonneg fd member := by cases member
  taken_perm := by
    have nothing : (List.replicate (netWorkers nworkers) NetWorker.started).flatMap
        NetWorker.taken = [] := by
      rw [List.flatMap_eq_nil_iff]
      intro worker member
      rw [List.eq_of_mem_replicate member, NetWorker.started]
    exact List.Perm.of_eq nothing
  workers worker member := by
    rw [List.eq_of_mem_replicate member]
    exact NetWorker.started_consistent
  waking_lt i waking := by cases waking
  joined i joining := by cases joining

/-- What entered the queue was accepted or is a sentinel. -/
theorem known_of_entered (consistent : s.Consistent) {fd : ℤ} (member : fd ∈ s.entered) :
    0 ≤ fd ∨ fd = -1 := by
  have logged : fd ∈ s.entered ++ s.acceptor.pending := List.mem_append_left _ member
  rw [consistent.entered_eq] at logged
  rcases List.mem_append.mp logged with accepted | sentinel
  · exact Or.inl (consistent.accepted_nonneg fd accepted)
  · exact Or.inr (List.eq_of_mem_replicate sentinel)

/-- A push of the acceptor's thread keeps the invariant, given what it does to the logs. -/
theorem push {fd : ℤ} {next : NetAcceptor} (consistent : s.Consistent)
    (pushed : s.push fd next = some s')
    (entered_eq : s.entered ++ fd :: next.pending =
      s.accepted ++ List.replicate (next.sentinels s.workers.length) (-1))
    (waking_lt : ∀ i, next = .waking i → i < s.workers.length)
    (joined : ∀ i, next = .joining i → i = 0) : s'.Consistent := by
  obtain ⟨q, queued, rfl⟩ := NetServer.push_eq pushed
  obtain ⟨fds, holds, entered⟩ := consistent.queued
  exact {
    started := consistent.started
    queued := ⟨fds ++ [fd], holds.push queued, by rw [entered, List.append_assoc]⟩
    entered_eq := by rw [List.append_assoc, List.singleton_append, entered_eq]
    accepted_nonneg := consistent.accepted_nonneg
    taken_perm := consistent.taken_perm
    workers := consistent.workers
    waking_lt := waking_lt
    joined := fun i joining j lt => by
      rw [joined i joining] at lt
      exact absurd lt (Nat.not_lt_zero j) }

/-- A change of one worker keeps the workers that have ended, unless it is one of them. -/
theorem joined_set (consistent : s.Consistent) {w : ℕ} {worker changed : NetWorker}
    (found : s.workers[w]? = some worker) (running : worker.phase ≠ .ended) (i : ℕ)
    (joining : s.acceptor = .joining i) (j : ℕ) (lt : j < i) :
    ∃ worker, (s.workers.set w changed)[j]? = some worker ∧ worker.phase = .ended := by
  obtain ⟨other, other_found, ended⟩ := consistent.joined i joining j lt
  have apart : w ≠ j := by
    rintro rfl
    rw [found] at other_found
    exact running (Option.some.inj other_found ▸ ended)
  exact ⟨other, by rw [List.getElem?_set_ne apart, other_found], ended⟩

theorem workers_set (consistent : s.Consistent) {w : ℕ} {changed : NetWorker}
    (kept : changed.Consistent) : ∀ worker ∈ s.workers.set w changed, worker.Consistent := by
  intro worker member
  rcases List.mem_or_eq_of_mem_set member with unchanged | rfl
  · exact consistent.workers worker unchanged
  · exact kept

/-- A pop moves the first descriptor from the queue to the worker. -/
theorem pop (consistent : s.Consistent) {w : ℕ} {worker : NetWorker}
    (found : s.workers[w]? = some worker) (waiting : worker.phase = .waiting) {fd : ℤ}
    {q : NetJobQ} (popped : netJobPop s.q = some (fd, q)) :
    NetServer.Consistent { s with
      q
      workers := s.workers.set w (worker.take fd)
      left := s.left ++ [fd] } := by
  obtain ⟨fds, holds, entered⟩ := consistent.queued
  obtain ⟨rest, rfl, holds'⟩ := holds.pop popped
  have known : 0 ≤ fd ∨ fd = -1 := by
    refine consistent.known_of_entered ?_
    rw [entered]
    exact List.mem_append_right _ List.mem_cons_self
  have running : worker.phase ≠ .ended := by
    rw [waiting]
    exact NetWorkerPhase.noConfusion
  exact {
    started := by rw [List.length_set]; exact consistent.started
    queued := ⟨rest, holds', by rw [entered, List.append_assoc, List.singleton_append]⟩
    entered_eq := by rw [List.length_set]; exact consistent.entered_eq
    accepted_nonneg := consistent.accepted_nonneg
    taken_perm := (Slots.flatMap_set_perm found rfl).trans
      (consistent.taken_perm.append_right [fd])
    workers := consistent.workers_set
      ((consistent.workers worker (List.mem_of_getElem? found)).take waiting known)
    waking_lt := fun i waking => by rw [List.length_set]; exact consistent.waking_lt i waking
    joined := consistent.joined_set found running }

/-- A worker that closes a connection takes nothing. -/
theorem close (consistent : s.Consistent) {w : ℕ} {worker : NetWorker}
    (found : s.workers[w]? = some worker) {fd : ℤ} (serving : worker.phase = .serving fd) :
    NetServer.Consistent { s with workers := s.workers.set w (worker.close fd) } := by
  have running : worker.phase ≠ .ended := by
    rw [serving]
    exact NetWorkerPhase.noConfusion
  have taken : (worker.close fd).taken = worker.taken ++ [] := (List.append_nil _).symm
  exact {
    started := by rw [List.length_set]; exact consistent.started
    queued := consistent.queued
    entered_eq := by rw [List.length_set]; exact consistent.entered_eq
    accepted_nonneg := consistent.accepted_nonneg
    taken_perm := by
      have grown := Slots.flatMap_set_perm found taken
      rw [List.append_nil] at grown
      exact grown.trans consistent.taken_perm
    workers := consistent.workers_set
      ((consistent.workers worker (List.mem_of_getElem? found)).close serving)
    waking_lt := fun i waking => by rw [List.length_set]; exact consistent.waking_lt i waking
    joined := consistent.joined_set found running }

/-- Every step keeps the invariant. -/
theorem move (consistent : s.Consistent) (moves : NetMove s s') : s'.Consistent := by
  have entered_eq := consistent.entered_eq
  cases moves with
  | stop at_head =>
      rw [at_head] at entered_eq
      exact { consistent with
        entered_eq := entered_eq
        waking_lt := fun i waking => NetAcceptor.waking.inj waking ▸ consistent.started
        joined := fun i joining => by cases joining }
  | @accept at_head fd nonneg =>
      rw [at_head, NetAcceptor.pending, NetAcceptor.sentinels, List.append_nil,
        List.replicate_zero, List.append_nil] at entered_eq
      exact { consistent with
        entered_eq := by
          rw [NetAcceptor.pending, NetAcceptor.sentinels, List.replicate_zero, List.append_nil,
            entered_eq]
        accepted_nonneg := fun other member => by
          rcases List.mem_append.mp member with earlier | last
          · exact consistent.accepted_nonneg other earlier
          · rw [List.mem_singleton.mp last]
            exact nonneg
        waking_lt := fun i waking => by cases waking
        joined := fun i joining => by cases joining }
  | push at_push pushed =>
      rw [at_push] at entered_eq
      exact consistent.push pushed entered_eq (fun i waking => by cases waking)
        (fun i joining => by cases joining)
  | @wake _ i at_wake pushed =>
      have lt := consistent.waking_lt i at_wake
      rw [at_wake, NetAcceptor.pending, NetAcceptor.sentinels, List.append_nil] at entered_eq
      have one_more : s.entered ++ [-1] = s.accepted ++ List.replicate (i + 1) (-1) := by
        rw [entered_eq, List.append_assoc, List.replicate_succ']
      by_cases more : i + 1 < s.workers.length
      · rw [if_pos more] at pushed
        exact consistent.push pushed one_more
          (fun j waking => NetAcceptor.waking.inj waking ▸ more) (fun j joining => by cases joining)
      · rw [if_neg more] at pushed
        have last : i + 1 = s.workers.length := by omega
        rw [last] at one_more
        exact consistent.push pushed one_more (fun j waking => by cases waking)
          (fun j joining => (NetAcceptor.joining.inj joining).symm)
  | pop found waiting popped => exact consistent.pop found waiting popped
  | close found serving => exact consistent.close found serving
  | @join i at_join worker found ended =>
      rw [at_join] at entered_eq
      exact { consistent with
        entered_eq := entered_eq
        waking_lt := fun j waking => by cases waking
        joined := fun j joining k lt => by
          obtain rfl := NetAcceptor.joining.inj joining
          rcases Nat.lt_succ_iff_lt_or_eq.mp lt with earlier | rfl
          · exact consistent.joined i at_join k earlier
          · exact ⟨worker, found, ended⟩ }

/-- Every run keeps the invariant. -/
theorem run {events : List NetEvent} (consistent : s.Consistent)
    (executed : execAll netStep s events = some s') : s'.Consistent := by
  have guarded := GuardedRun.true_iff_execAll.mpr executed
  exact guarded.preserves (fun _ steps kept => kept.move (netStep_move steps)) consistent

end NetServer.Consistent

theorem NetMove.length_workers {s s' : NetServer} (moves : NetMove s s') :
    s'.workers.length = s.workers.length := by
  cases moves with
  | stop => rfl
  | accept => rfl
  | push _ pushed =>
      obtain ⟨q, -, rfl⟩ := NetServer.push_eq pushed
      rfl
  | wake _ pushed =>
      obtain ⟨q, -, rfl⟩ := NetServer.push_eq pushed
      rfl
  | pop => exact List.length_set
  | close => exact List.length_set
  | join => rfl

end RateEngine
