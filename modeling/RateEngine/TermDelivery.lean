import RateEngine.CallLinks
import RateEngine.Lib.GuardedRun

/-!
# Where a termination goes

`cc_term_f` searches the slot of its call under one lock and attaches the record again under a
second one.  In between the janitor may clear the slot and another call may take it.  This file
states when a call only ever holds a termination of its own.
-/

namespace RateEngine

namespace CcProcess

/-- A slot with a termination holds a call with the same `call_uid`. -/
def TermOfOwnCall (s : CcProcess) : Prop :=
  ∀ i p, s.shared.At i p → ∀ t, s.shared.mem.termPtr p = some t →
    ∃ max term, s.shared.mem.maxAt p = some max ∧ s.shared.mem.term.get? t = some term ∧
      max.callUid = term.callUid

/-- A handler that attaches its termination again finds the slot free or with the call that its
search found. -/
def AttachesToFoundCall (s : CcProcess) : CcAction → Prop
  | .advance w _ _ => ∀ thread h i call, s.threads[w]? = some thread → thread.handler = some h →
      h.pc = .found i → h.hold = .handed call → ∀ p, s.shared.At i p → p = call
  | _ => True

/-- Terminations are with their calls, and those on their way to one belong to it. -/
structure Delivers (s : CcProcess) : Prop where
  linked : s.Linked
  matched : ∀ p t, s.shared.mem.links.kind p = some .maxsec →
    s.shared.mem.links.termPtr p = some t → s.shared.mem.links.SameUid p t
  found : ∀ thread ∈ s.threads, ∀ h i call, thread.handler = some h → h.pc = .found i →
    h.hold = .handed call → ∀ t, s.shared.mem.links.termPtr h.cc = some t →
      s.shared.mem.links.SameUid call t

theorem delivers_start (slots : ℕ) (threads : List (CcProto × Bool)) :
    (start slots threads).Delivers where
  linked := linked_start slots threads
  matched p t kind := by cases kind
  found thread member h i call busy := by
    obtain ⟨pair, -, rfl⟩ := List.mem_map.mp member
    cases busy

/-- The records of a call do not change when a request arrives. -/
theorem sameUid_receive {mem : CcMem} (linked : mem.WellLinked) (r : CcRequest) {p t : ℕ}
    (same : mem.links.SameUid p t) (allocated : t < mem.term.next) :
    (mem.receive r).links.SameUid p t := by
  obtain ⟨m, uid, max_eq, uid_eq, term_eq⟩ := same
  have kind : mem.links.kind p = some .maxsec :=
    (linked.max_iff p).mp (by rw [max_eq, Option.isSome_some])
  have p_ne : p ≠ mem.cc.next := by
    rintro rfl
    rw [CcMem.kind_eq_none le_rfl] at kind
    cases kind
  have m_ne : m ≠ mem.max.next := (linked.max_lt p m max_eq).ne
  have t_ne : t ≠ mem.term.next := allocated.ne
  rw [CcMem.links_receive]
  refine ⟨m, uid, ?_, ?_, ?_⟩
  · exact (Function.update_of_ne p_ne _ _).trans max_eq
  · cases r.max with
    | none => exact uid_eq
    | some max => exact (Function.update_of_ne m_ne _ _).trans uid_eq
  · cases r.term with
    | none => exact term_eq
    | some term => exact (Function.update_of_ne t_ne _ _).trans term_eq

theorem delivers_receive {s : CcProcess} (delivers : s.Delivers) (w : ℕ) (thread : CcThread)
    (parse : CcParse) : (s.receive w thread parse).Delivers := by
  obtain ⟨linked, matched, found⟩ := delivers
  obtain ⟨links_eq, tbl_eq, -, -⟩ := s.receive_links w thread parse
  have termPtr_eq {p : ℕ} (p_ne : p ≠ s.shared.mem.cc.next) :
      (s.shared.mem.receive parse.objects).links.termPtr p = s.shared.mem.links.termPtr p := by
    rw [CcMem.links_receive]
    exact Function.update_of_ne p_ne _ _
  refine ⟨linked_receive linked w thread parse, ?_, ?_⟩
  · intro p t kind points
    rw [links_eq] at kind points ⊢
    by_cases new : p = s.shared.mem.cc.next
    · -- a new call has no termination yet
      subst new
      rw [CcMem.links_receive] at kind points
      simp only [Function.update_self, Option.some.injEq] at kind points
      have no_term : parse.objects.term = none := by
        simpa [kind] using parse.objects.term_iff
      simp [no_term] at points
    · rw [termPtr_eq new] at points
      rw [CcMem.links_receive] at kind
      have old : s.shared.mem.links.kind p = some .maxsec :=
        (Function.update_of_ne new _ _).symm.trans kind
      exact sameUid_receive linked.mem _ (matched p t old points) (linked.mem.term_lt p t points)
  · intro thread' member h i call busy pc hold t points
    rcases mem_threads_receive member with old | rfl
    · obtain ⟨kind, -⟩ := linked.inTerm thread' old h i busy (.inl pc)
      have h_ne : h.cc ≠ s.shared.mem.cc.next := by
        intro new
        rw [new, CcMem.kind_eq_none le_rfl] at kind
        cases kind
      rw [links_eq, termPtr_eq h_ne] at points
      rw [links_eq]
      exact sameUid_receive linked.mem _ (found thread' old h i call busy pc hold t points)
        (linked.mem.term_lt _ t points)
    · cases busy
      cases pc

theorem delivers_advanced {s : CcProcess} {w : ℕ} {env : Env} {db : Db}
    (attaches : s.AttachesToFoundCall (.advance w env db)) (delivers : s.Delivers)
    {thread : CcThread} {h : CcHandler} {cc : Cc} {shared : CcShared} {handler : Option CcHandler}
    (at_w : s.threads[w]? = some thread) (busy : thread.handler = some h)
    (cc_eq : s.shared.mem.cc.get? h.cc = some cc)
    (move : h.Move thread.proto thread.connected s.shared cc shared handler) :
    Delivers { s with shared, threads := s.threads.set w { thread with handler } } := by
  obtain ⟨linked, matched, found⟩ := delivers
  have member : thread ∈ s.threads := List.mem_of_getElem? at_w
  refine ⟨linked_advanced linked at_w busy cc_eq move, ?_, ?_⟩
  all_goals
    dsimp only
    rcases move.links_cases linked.seated with
      ⟨same, not_found⟩ | ⟨i, call, t, term_eq, at_call, -, attached, search⟩
  · rw [same]
    exact matched
  · rw [attached]
    intro p t' kind points
    simp only [CcMem.Links.attach, Function.update_apply] at points
    split at points
    · rename_i p_eq
      obtain rfl := Option.some.inj points
      rw [p_eq]
      rcases search with ⟨-, same_uid, -⟩ | ⟨pc, -⟩
      · exact same_uid
      · -- the second time the slot still holds the call of the search
        obtain ⟨-, target, hold⟩ := linked.inTerm thread member h i busy (.inl pc)
        obtain rfl := attaches thread h i target at_w busy pc hold call at_call
        exact found thread member h i call busy pc hold t
          (by rw [CcMem.termPtr_of_get? cc_eq, term_eq])
    · exact matched p t' kind points
  · rw [same]
    intro thread' member' h' i' call' busy' pc' hold'
    rcases List.mem_or_eq_of_mem_set member' with old | rfl
    · exact found thread' old h' i' call' busy' pc' hold'
    · exact absurd pc' (not_found h' i' busy')
  · rw [attached]
    intro thread' member' h' i' call' busy' pc' hold' t' points
    have call_kind := linked.seated i call at_call
    have points_of {q : ℕ} (kind : s.shared.mem.links.kind q = some .term)
        (points : Function.update s.shared.mem.links.termPtr call (some t) q = some t') :
        s.shared.mem.links.termPtr q = some t' := by
      have q_ne : q ≠ call := by
        rintro rfl
        rw [call_kind] at kind
        cases kind
      exact (Function.update_of_ne q_ne _ _).symm.trans points
    rcases List.mem_or_eq_of_mem_set member' with old | rfl
    · have kind := (linked.inTerm thread' old h' i' busy' (.inl pc')).1
      exact found thread' old h' i' call' busy' pc' hold' t' (points_of kind points)
    · rcases search with ⟨kind, same_uid, goes⟩ | ⟨pc, goes⟩
      · cases busy'.symm.trans goes
        cases hold'
        have own := points_of (by rw [CcMem.kind_of_get? cc_eq, kind]) points
        rw [CcMem.termPtr_of_get? cc_eq, term_eq, Option.some.injEq] at own
        exact own ▸ same_uid
      · cases busy'.symm.trans goes
        cases pc'

theorem delivers_step {s s' : CcProcess} {action : CcAction}
    (attaches : s.AttachesToFoundCall action) (steps : s.step action = some s')
    (delivers : s.Delivers) : s'.Delivers := by
  have linked' := linked_step steps delivers.linked
  cases moves_of_step steps with
  | received input => exact delivers_receive delivers _ _ _
  | advanced at_w busy cc_eq move => exact delivers_advanced attaches delivers at_w busy cc_eq move
  | @judged i p callMaxsecLimit now rtp slot =>
      obtain ⟨links_eq, -, threads_eq⟩ := s.judge_links i p callMaxsecLimit now
      refine ⟨linked', ?_, ?_⟩
      · rw [links_eq]
        exact delivers.matched
      · rw [links_eq, threads_eq]
        exact delivers.found
  | passed => exact delivers
  | @cleared i p rtp janitor slot =>
      have links_eq : (s.clear i p).shared.mem.links = s.shared.mem.links := by simp [clear]
      refine ⟨linked', ?_, ?_⟩
      · rw [links_eq]
        exact delivers.matched
      · rw [links_eq]
        exact delivers.found

/-- In a run in which the second attachment finds the slot free or with the call of the search, a
slot never holds a termination of another call. -/
theorem termOfOwnCall_of_attachesToFoundCall (slots : ℕ) (threads : List (CcProto × Bool))
    (actions : List CcAction) (s : CcProcess)
    (run : GuardedRun step AttachesToFoundCall (start slots threads) actions s) :
    s.TermOfOwnCall := by
  have delivers : s.Delivers := run.preserves delivers_step (delivers_start slots threads)
  intro i p at_slot t points
  obtain ⟨m, uid, max_eq, max_uid, term_uid⟩ :=
    delivers.matched p t (delivers.linked.seated i p at_slot) points
  obtain ⟨max, get_max, rfl⟩ := Option.map_eq_some_iff.mp max_uid
  obtain ⟨term, get_term, uid_eq⟩ := Option.map_eq_some_iff.mp term_uid
  exact ⟨max, term, Option.bind_eq_some_iff.mpr ⟨m, max_eq, get_max⟩, get_term, uid_eq.symm⟩

/-! ## One slot and two calls -/

/-- The handler attaches to the call of its search, or to no call. -/
def attachesCheck (s : CcProcess) : CcAction → Bool
  | .advance w _ _ =>
      match s.threads[w]? with
      | some { handler := some { pc := .found i, hold := .handed call, .. }, .. } =>
          match s.shared.tbl[i]? with
          | some (some (p, _)) => p = call
          | _ => true
      | _ => true
  | _ => true

theorem attachesToFoundCall_of_check (s : CcProcess) (action : CcAction)
    (checked : s.attachesCheck action = true) : s.AttachesToFoundCall action := by
  cases action with
  | advance w env db =>
      rintro ⟨proto, connected, handler⟩ ⟨cc, pc, hold⟩ i call at_w busy pc_eq hold_eq p ⟨rtp, slot⟩
      dsimp only at busy pc_eq hold_eq
      subst busy pc_eq hold_eq
      simpa [attachesCheck, at_w, slot] using checked
  | _ => trivial

/-- The first call gets its own termination. -/
theorem oneSlot_delivers : ∃ s : CcProcess, s.shared.mem.termPtr 0 = some 0 ∧ s.TermOfOwnCall := by
  let actions := grantCall "first" ++ [termFirst, go 1, go 1]
  have checked : (execAll (fun s action => if s.attachesCheck action then s.step action else none)
      oneSlot actions).map (fun s => s.shared.mem.termPtr 0) = some (some 0) := by decide +kernel
  obtain ⟨s, executed, attached⟩ := Option.map_eq_some_iff.mp checked
  exact ⟨s, attached,
    termOfOwnCall_of_attachesToFoundCall 1 [(.myCc, true), (.myCc, true)] actions s
    (.of_execAll attachesToFoundCall_of_check executed)⟩

/-- Between the search and the second attachment the janitor clears the slot and a second call takes
it: that call holds the termination of the first. -/
theorem oneSlot_crossed :
    ¬ ∀ (slots : ℕ) (threads : List (CcProto × Bool)) (actions : List CcAction) (s : CcProcess),
      execAll step (start slots threads) actions = some s → s.TermOfOwnCall := by
  intro claim
  let actions := grantCall "first" ++ [termFirst, go 1, .judge 0 3600 1709546431, .clear] ++
    grantCall "second" ++ [go 1]
  have crossed : (execAll step oneSlot actions).map (fun s =>
      (s.shared.tbl.map (Option.map Prod.fst), s.shared.mem.termPtr 2,
        (s.shared.mem.maxAt 2).map fun max => max.callUid,
        (s.shared.mem.term.get? 0).map fun term => term.callUid)) =
      some ([some 2], some 0, some "second", some "first") := by decide +kernel
  obtain ⟨s, executed, seen⟩ := Option.map_eq_some_iff.mp crossed
  simp only [Prod.mk.injEq] at seen
  obtain ⟨slot, points, max_uid, term_uid⟩ := seen
  have at_slot : s.shared.At 0 2 := by
    obtain ⟨cell, tbl_eq, call_eq⟩ := List.map_eq_singleton_iff.mp slot
    obtain ⟨⟨p, rtp⟩, rfl, rfl⟩ := Option.map_eq_some_iff.mp call_eq
    exact ⟨rtp, by rw [tbl_eq]; rfl⟩
  obtain ⟨max, term, max_eq, term_eq, same⟩ := claim 1 _ actions s executed 0 2 at_slot 0 points
  rw [max_eq, Option.map_some, Option.some.injEq] at max_uid
  rw [term_eq, Option.map_some, Option.some.injEq] at term_uid
  rw [max_uid, term_uid] at same
  exact absurd same (by decide)

end CcProcess

end RateEngine
