import RateEngine.NetServer

/-!
# Shutdown of the parallel network server

This file counts the sentinels that the workers take and shows that the server always goes on until
every worker is joined.  Together with the order of the queue this gives what becomes of every
accepted connection.
-/

namespace RateEngine

/-! ## Sentinels -/

/-- The worker is behind its loop. -/
def NetWorker.isEnded (worker : NetWorker) : Bool := worker.phase = .ended

/-- A worker took one sentinel if it has ended and none otherwise. -/
theorem NetWorker.Consistent.count_taken {worker : NetWorker} (consistent : worker.Consistent) :
    worker.taken.count (-1) = if worker.isEnded then 1 else 0 := by
  have handled : worker.handled.count (-1) = 0 := by
    rw [List.count_eq_zero]
    intro member
    exact absurd (consistent.handled_nonneg _ member) (by decide)
  rw [consistent.taken_eq, List.count_append, handled, Nat.zero_add, NetWorker.isEnded]
  cases phase : worker.phase with
  | waiting => rfl
  | ended => rfl
  | serving fd =>
      have nonneg := consistent.serving_nonneg fd phase
      have other : fd ≠ -1 := by omega
      simp [NetWorkerPhase.unclosed, other]

/-- The workers took as many sentinels as workers have ended. -/
theorem count_flatMap_taken {workers : List NetWorker}
    (consistent : ∀ worker ∈ workers, worker.Consistent) :
    (workers.flatMap NetWorker.taken).count (-1) = workers.countP NetWorker.isEnded := by
  induction workers with
  | nil => rfl
  | cons worker rest induction =>
      obtain ⟨first, others⟩ := List.forall_mem_cons.mp consistent
      rw [List.flatMap_cons, List.count_append, first.count_taken, induction others,
        List.countP_cons, Nat.add_comm]

namespace NetServer.Consistent

variable {s s' : NetServer} {fds : List ℤ}

/-- The sentinels that entered were taken, one for each ended worker, or are still queued. -/
theorem ended_add (consistent : s.Consistent) (entered : s.entered = s.left ++ fds) :
    s.workers.countP NetWorker.isEnded + fds.count (-1) =
      s.acceptor.sentinels s.workers.length := by
  have accepted : s.accepted.count (-1) = 0 := by
    rw [List.count_eq_zero]
    intro member
    exact absurd (consistent.accepted_nonneg _ member) (by decide)
  have logs := congrArg (List.count (-1)) consistent.entered_eq
  rw [List.count_append, List.count_append, accepted, List.count_replicate_self, entered,
    List.count_append, ← consistent.taken_perm.count_eq, count_flatMap_taken consistent.workers]
    at logs
  have pending : s.acceptor.sentinels s.workers.length = 0 ∨ s.acceptor.pending = [] := by
    cases s.acceptor with
    | accepting => exact Or.inl rfl
    | pushing fd => exact Or.inl rfl
    | waking i => exact Or.inr rfl
    | joining i => exact Or.inr rfl
  rcases pending with none_entered | nothing
  · omega
  · rw [nothing, List.count_nil] at logs
    omega

/-- What has left is a beginning of the accepted descriptors followed by one sentinel for each
worker. -/
theorem left_prefix (consistent : s.Consistent) :
    s.left <+: s.entered ∧
      s.entered <+: s.accepted ++ List.replicate s.workers.length (-1) := by
  obtain ⟨fds, -, entered⟩ := consistent.queued
  have bound : s.acceptor.sentinels s.workers.length ≤ s.workers.length := by
    cases phase : s.acceptor with
    | accepting => exact Nat.zero_le _
    | pushing fd => exact Nat.zero_le _
    | waking i => exact (consistent.waking_lt i phase).le
    | joining i => exact le_rfl
  refine ⟨⟨fds, entered.symm⟩, ⟨s.acceptor.pending ++
    List.replicate (s.workers.length - s.acceptor.sentinels s.workers.length) (-1), ?_⟩⟩
  rw [← List.append_assoc, consistent.entered_eq, List.append_assoc,
    List.replicate_append_replicate,
    Nat.add_sub_cancel' bound]

/-- A sentinel leaves the queue behind every accepted descriptor. -/
theorem accepted_prefix (consistent : s.Consistent) (sentinel : -1 ∈ s.left) :
    s.accepted <+: s.left := by
  obtain ⟨left_entered, entered_all⟩ := consistent.left_prefix
  have left_all := left_entered.trans entered_all
  rcases List.prefix_or_prefix_of_prefix left_all (List.prefix_append _ _) with short | done
  · exact absurd (consistent.accepted_nonneg _ (short.mem sentinel)) (by decide)
  · exact done

/-- Every worker of a server that has returned has ended. -/
theorem ended_of_returned (consistent : s.Consistent) (returned : s.Returned) :
    ∀ worker ∈ s.workers, worker.phase = .ended := by
  intro worker member
  obtain ⟨j, lt, rfl⟩ := List.mem_iff_getElem.mp member
  obtain ⟨joined, found, ended⟩ := consistent.joined _ returned j lt
  rw [List.getElem?_eq_getElem lt] at found
  rw [Option.some.inj found]
  exact ended

theorem countP_of_ended {workers : List NetWorker}
    (ended : ∀ worker ∈ workers, worker.phase = .ended) :
    workers.countP NetWorker.isEnded = workers.length := by
  rw [List.countP_eq_length]
  intro worker member
  exact decide_eq_true (ended worker member)

/-- When the server returns, all that was accepted and all sentinels have been taken. -/
theorem left_eq (consistent : s.Consistent) (returned : s.Returned) :
    s.left = s.accepted ++ List.replicate s.workers.length (-1) := by
  obtain ⟨fds, -, entered⟩ := consistent.queued
  have sentinels := consistent.ended_add entered
  have all : s.entered = s.accepted ++ List.replicate s.workers.length (-1) := by
    have entered_eq := consistent.entered_eq
    rwa [returned, NetAcceptor.pending, NetAcceptor.sentinels, List.append_nil] at entered_eq
  rw [countP_of_ended (consistent.ended_of_returned returned), returned,
    NetAcceptor.sentinels] at sentinels
  have none_queued : fds.count (-1) = 0 := by omega
  rcases List.eq_nil_or_concat fds with rfl | ⟨earlier, last, rfl⟩
  · rw [← all, entered, List.append_nil]
  · -- the last entry of the queue is the last sentinel
    obtain ⟨n, workers⟩ := Nat.exists_eq_succ_of_ne_zero consistent.started.ne'
    rw [List.concat_eq_append] at entered none_queued
    rw [all, workers, List.replicate_succ', ← List.append_assoc, ← List.append_assoc] at entered
    obtain rfl : -1 = last := (List.append_singleton_inj.mp entered).2
    rw [List.count_append, List.count_singleton_self] at none_queued
    omega

/-- The workers have handled what they took, up to what they serve and the sentinels. -/
theorem handled_perm (consistent : s.Consistent) (returned : s.Returned) :
    (s.workers.flatMap NetWorker.handled).Perm s.accepted := by
  have ended := consistent.ended_of_returned returned
  have filtered : (s.workers.flatMap NetWorker.taken).filter (0 ≤ ·) =
      s.workers.flatMap NetWorker.handled := by
    rw [List.filter_flatMap]
    refine List.flatMap_congr fun worker member => ?_
    have kept := consistent.workers worker member
    rw [kept.taken_eq, ended worker member, List.filter_append, List.filter_eq_self.mpr]
    · exact List.append_nil _
    · exact fun fd handled => decide_eq_true (kept.handled_nonneg fd handled)
  have accepted : s.left.filter (0 ≤ ·) = s.accepted := by
    rw [consistent.left_eq returned, List.filter_append, List.filter_eq_self.mpr,
      List.filter_replicate]
    · exact List.append_nil _
    · exact fun fd member => decide_eq_true (consistent.accepted_nonneg fd member)
  rw [← filtered, ← accepted]
  exact consistent.taken_perm.filter _

end NetServer.Consistent

/-! ## Progress -/

section Progress

variable {s s' : NetServer}

/-- A worker that has not ended can go on while the queue is not empty, or closes its connection. -/
theorem exists_worker_step {w : ℕ} {worker : NetWorker} (found : s.workers[w]? = some worker)
    (running : worker.phase ≠ .ended) {fds : List ℤ} (holds : s.q.Holds fds) (filled : fds ≠ []) :
    ∃ event s', netStep s event = some s' := by
  cases phase : worker.phase with
  | waiting =>
      obtain ⟨fd, q, popped⟩ := holds.exists_pop filled
      refine ⟨.pop w, ?_⟩
      simp only [netStep, found, phase, popped, Option.map_some]
      exact ⟨_, rfl⟩
  | serving fd =>
      refine ⟨.close w, ?_⟩
      simp only [netStep, found, phase]
      exact ⟨_, rfl⟩
  | ended => exact absurd phase running

/-- While not all sentinels have been taken some worker has not ended. -/
theorem exists_running (workers : List NetWorker)
    (some_running : workers.countP NetWorker.isEnded < workers.length) :
    ∃ (w : ℕ) (worker : NetWorker), workers[w]? = some worker ∧ worker.phase ≠ .ended := by
  by_contra all_ended
  push Not at all_ended
  refine some_running.ne (NetServer.Consistent.countP_of_ended fun worker member => ?_)
  obtain ⟨w, found⟩ := List.getElem?_of_mem member
  exact all_ended w worker found

/-- The thread that pushes goes on when there is room; else a worker does. -/
theorem exists_push_step (consistent : s.Consistent) (fd : ℤ) (next : NetAcceptor)
    (enabled : ∀ s', s.push fd next = some s' → netStep s .push = some s')
    (awaited : s.acceptor.sentinels s.workers.length < s.workers.length) :
    ∃ event s', netStep s event = some s' := by
  obtain ⟨fds, holds, entered⟩ := consistent.queued
  by_cases room : fds.length < netPsrvQcap
  · obtain ⟨q, pushed⟩ := holds.exists_push room fd
    exact ⟨.push, _, enabled _ (by rw [NetServer.push, pushed, Option.map_some])⟩
  · have filled : fds ≠ [] := by
      rintro rfl
      exact room (by decide)
    have sentinels := consistent.ended_add entered
    obtain ⟨w, worker, found, running⟩ := exists_running s.workers (by omega)
    exact exists_worker_step found running holds filled

/-- Some thread can go on until the server has returned. -/
theorem exists_step (consistent : s.Consistent) (unreturned : ¬ s.Returned) :
    ∃ event s', netStep s event = some s' := by
  cases phase : s.acceptor with
  | accepting => exact ⟨.accept 0 0 0, _, by simp only [netStep, phase]; rfl⟩
  | pushing fd =>
      refine exists_push_step consistent fd .accepting ?_ ?_
      · intro s' pushed
        simp only [netStep, phase, pushed]
      · rw [phase]
        exact consistent.started
  | waking i =>
      refine exists_push_step consistent (-1)
        (if i + 1 < s.workers.length then .waking (i + 1) else .joining 0) ?_ ?_
      · intro s' pushed
        simp only [netStep, phase, pushed]
      · rw [phase]
        exact consistent.waking_lt i phase
  | joining i =>
      have joined := consistent.joined i phase
      have lt : i < s.workers.length := by
        by_contra beyond
        refine unreturned (phase.trans (congrArg NetAcceptor.joining ?_))
        by_contra other
        obtain ⟨worker, found, -⟩ := joined s.workers.length (by omega)
        rw [List.getElem?_eq_none le_rfl] at found
        cases found
      have found : s.workers[i]? = some s.workers[i] := List.getElem?_eq_getElem lt
      by_cases ended : s.workers[i].phase = .ended
      · refine ⟨.join, ?_⟩
        simp only [netStep, phase, found, ended, if_true]
        exact ⟨_, rfl⟩
      · obtain ⟨fds, holds, entered⟩ := consistent.queued
        have filled : fds ≠ [] := by
          rintro rfl
          -- all sentinels have been taken, so this worker has its own
          have sentinels := consistent.ended_add entered
          rw [phase, NetAcceptor.sentinels, List.count_nil, Nat.add_zero,
            List.countP_eq_length] at sentinels
          exact ended (of_decide_eq_true (sentinels _ (List.getElem_mem lt)))
        exact exists_worker_step found ended holds filled

end Progress

/-! ## The end of the shutdown -/

/-- The worker has a connection to close. -/
def NetWorker.isServing (worker : NetWorker) : Bool :=
  match worker.phase with
  | .serving _ => true
  | _ => false

/-- The pushes and joins that are left of the shutdown, a push counted with the pop and the close
that follow it. -/
def NetAcceptor.work (n : ℕ) : NetAcceptor → ℕ
  | .accepting => 0
  | .pushing _ => 0
  | .waking i => 3 * (n - i) + n
  | .joining i => n - i

/-- A bound for the steps that are left of a shutdown. -/
def NetServer.work (s : NetServer) : ℕ :=
  s.acceptor.work s.workers.length + 2 * s.q.count.toNat + s.workers.countP NetWorker.isServing

theorem NetWorker.isServing_take_le (worker : NetWorker) (fd : ℤ) :
    (if (worker.take fd).isServing then 1 else 0) ≤ 1 := by
  split <;> omega

/-- Every step of a shutdown leaves less work, and the shutdown goes on. -/
theorem NetMove.work_lt {s s' : NetServer} (consistent : s.Consistent) (moves : NetMove s s')
    (stopping : s.acceptor.Stopping) : s'.acceptor.Stopping ∧ s'.work < s.work := by
  obtain ⟨fds, holds, -⟩ := consistent.queued
  have count := holds.count_eq
  cases moves with
  | stop at_head =>
      rw [at_head] at stopping
      exact stopping.elim
  | accept at_head =>
      rw [at_head] at stopping
      exact stopping.elim
  | push at_push =>
      rw [at_push] at stopping
      exact stopping.elim
  | @wake _ i at_wake pushed =>
      have lt := consistent.waking_lt i at_wake
      obtain ⟨q, queued, rfl⟩ := NetServer.push_eq pushed
      have grown := (holds.push queued).count_eq
      rw [List.length_append, List.length_singleton] at grown
      have pushes : (if i + 1 < s.workers.length then NetAcceptor.waking (i + 1)
          else .joining 0).Stopping ∧
          (if i + 1 < s.workers.length then NetAcceptor.waking (i + 1)
            else .joining 0).work s.workers.length + 3 = s.acceptor.work s.workers.length := by
        rw [at_wake]
        split
        · exact ⟨trivial, by simp only [NetAcceptor.work]; omega⟩
        · exact ⟨trivial, by simp only [NetAcceptor.work]; omega⟩
      refine ⟨pushes.1, ?_⟩
      have fewer := pushes.2
      simp only [NetServer.work]
      omega
  | @pop w worker found waiting fd q popped =>
      obtain ⟨rest, rfl, holds'⟩ := holds.pop popped
      have shrunk := holds'.count_eq
      rw [List.length_cons] at count
      obtain ⟨lt, is_worker⟩ := List.getElem?_eq_some_iff.mp found
      have one := worker.isServing_take_le fd
      refine ⟨stopping, ?_⟩
      simp only [NetServer.work, List.length_set, List.countP_set lt]
      omega
  | @close w worker found fd serving =>
      obtain ⟨lt, is_worker⟩ := List.getElem?_eq_some_iff.mp found
      have positive : 0 < s.workers.countP NetWorker.isServing := by
        refine List.countP_pos_iff.mpr ⟨worker, List.mem_of_getElem? found, ?_⟩
        rw [NetWorker.isServing, serving]
      have was : (s.workers[w]).isServing = true := by
        rw [is_worker, NetWorker.isServing, serving]
      have closed : (worker.close fd).isServing = false := rfl
      refine ⟨stopping, ?_⟩
      simp only [NetServer.work, List.length_set, List.countP_set lt, was, closed, if_true,
        Bool.false_eq_true, if_false]
      omega
  | @join i at_join worker found ended =>
      obtain ⟨lt, -⟩ := List.getElem?_eq_some_iff.mp found
      refine ⟨trivial, ?_⟩
      simp only [NetServer.work, at_join, NetAcceptor.work]
      omega

/-- A shutdown takes no more steps than its work. -/
theorem length_le_work {s t : NetServer} {later : List NetEvent} (consistent : s.Consistent)
    (stopping : s.acceptor.Stopping) (executed : execAll netStep s later = some t) :
    later.length ≤ s.work := by
  induction later generalizing s with
  | nil => exact Nat.zero_le _
  | cons event later induction =>
      obtain ⟨next, steps, rest⟩ := Option.bind_eq_some_iff.mp executed
      have moves := netStep_move steps
      obtain ⟨still, less⟩ := moves.work_lt consistent stopping
      have bound := induction (consistent.move moves) still rest
      rw [List.length_cons]
      omega

/-- A run keeps the number of workers. -/
theorem length_workers_run {s t : NetServer} {events : List NetEvent}
    (executed : execAll netStep s events = some t) : t.workers.length = s.workers.length := by
  have guarded := GuardedRun.true_iff_execAll.mpr executed
  have kept : ∀ {a b : NetServer} {event : NetEvent}, True → netStep a event = some b →
      a.workers.length = s.workers.length → b.workers.length = s.workers.length :=
    fun _ steps same => (netStep_move steps).length_workers.trans same
  exact guarded.preserves kept rfl

/-! ## Every interleaving -/

/-- In every state that any interleaving reaches, the count is within the capacity; the descriptors
that left the queue are a beginning of those that entered, and these a beginning of the accepted
ones followed by one sentinel for each worker; each worker handled what it took, and the workers
together took what left; a sentinel left only behind every accepted descriptor.  The server goes on
until it has returned, a shutdown is finite, and behind it every accepted descriptor was handled by
one worker and every worker took one sentinel, as its last descriptor. -/
theorem netParallelServer_connections (nworkers : ℤ) {events : List NetEvent} {s : NetServer}
    (run : execAll netStep (netParallelServer nworkers) events = some s) :
    s.workers.length = netWorkers nworkers ∧
    (0 ≤ s.q.count ∧ s.q.count ≤ netPsrvQcap) ∧
    (s.left <+: s.entered ∧
      s.entered <+: s.accepted ++ List.replicate s.workers.length (-1)) ∧
    (s.workers.flatMap NetWorker.taken).Perm s.left ∧
    (∀ worker ∈ s.workers, worker.taken = worker.handled ++ worker.phase.unclosed ∧
      ∀ fd ∈ worker.handled, 0 ≤ fd) ∧
    (-1 ∈ s.left → s.accepted <+: s.left) ∧
    ((∀ event, netStep s event = none) → s.Returned) ∧
    (s.acceptor.Stopping → ∃ bound, ∀ later t, execAll netStep s later = some t →
      later.length ≤ bound) ∧
    (s.Returned → (s.workers.flatMap NetWorker.handled).Perm s.accepted ∧
      s.left = s.accepted ++ List.replicate s.workers.length (-1) ∧
      ∀ worker ∈ s.workers, worker.taken = worker.handled ++ [-1]) := by
  have consistent := (NetServer.Consistent.start nworkers).run run
  have length : s.workers.length = netWorkers nworkers := by
    rw [length_workers_run run, netParallelServer, List.length_replicate]
  obtain ⟨fds, holds, -⟩ := consistent.queued
  refine ⟨length, holds.bounds, consistent.left_prefix, consistent.taken_perm, ?_,
    consistent.accepted_prefix, ?_, ?_, ?_⟩
  · intro worker member
    have kept := consistent.workers worker member
    exact ⟨kept.taken_eq, kept.handled_nonneg⟩
  · intro stuck
    by_contra unreturned
    obtain ⟨event, s', steps⟩ := exists_step consistent unreturned
    rw [stuck event] at steps
    cases steps
  · intro stopping
    exact ⟨s.work, fun later t executed => length_le_work consistent stopping executed⟩
  · intro returned
    refine ⟨consistent.handled_perm returned, consistent.left_eq returned, ?_⟩
    intro worker member
    rw [(consistent.workers worker member).taken_eq,
      consistent.ended_of_returned returned worker member, NetWorkerPhase.unclosed]

/-- Two workers serve two connections and end. -/
theorem netParallelServer_connections_two :
    ∃ s, execAll netStep (netParallelServer 2)
      [.accept 3 0 7, .push, .accept 3 0 8, .pop 1, .push, .pop 0, .accept 3 (-1) 8, .push,
        .close 0, .pop 0, .close 1, .push, .pop 1, .join, .join] = some s ∧
      s.left = [7, 8] ++ [-1, -1] ∧ (s.workers.flatMap NetWorker.handled).Perm [7, 8] := by
  have run : execAll netStep (netParallelServer 2)
      [.accept 3 0 7, .push, .accept 3 0 8, .pop 1, .push, .pop 0, .accept 3 (-1) 8, .push,
        .close 0, .pop 0, .close 1, .push, .pop 1, .join, .join] = some _ := rfl
  obtain ⟨-, -, -, -, -, -, -, -, finished⟩ := netParallelServer_connections 2 run
  obtain ⟨handled, left, -⟩ := finished rfl
  exact ⟨_, run, left, handled⟩

end RateEngine
