import RateEngine.CallLinks
import RateEngine.Lib.GuardedRun

/-!
# One slot for each call

`cc_server_call_init` takes the first free slot and does not look at the others, while a termination
goes to the first slot of its `call_uid` only.  This file states in which runs no two slots carry
the same `call_uid`, so that the slot the janitor clears is the only one of its call.
-/

namespace RateEngine

open Slots

namespace CcProcess

/-- The slot holds a call with the `call_uid`. -/
def Carries (s : CcProcess) (i : ℕ) (callUid : String) : Prop :=
  ∃ p max, s.shared.At i p ∧ s.shared.mem.maxAt p = some max ∧ max.callUid = callUid

/-- No two slots hold calls with one `call_uid`. -/
def OneSlotEach (s : CcProcess) : Prop :=
  ∀ i j callUid, s.Carries i callUid → s.Carries j callUid → i = j

/-- When the janitor clears a slot, no slot holds a call with the `call_uid` any more. -/
def ClearsCall (s : CcProcess) : CcAction → Prop
  | .clear => ∀ s' i callUid, s.step .clear = some s' → s.janitor = some i → s.Carries i callUid →
      ∀ j, ¬ s'.Carries j callUid
  | _ => True

/-- Each call has one slot in every state of a run, and none after the janitor has cleared it. -/
def OneSlotThroughout (s : CcProcess) : List CcAction → Prop
  | [] => s.OneSlotEach
  | action :: actions => s.OneSlotEach ∧ s.ClearsCall action ∧
      ∀ s', s.step action = some s' → s'.OneSlotThroughout actions

/-- A granted call takes a slot only while no slot holds a call with its `call_uid`. -/
def SeatsNewUid (s : CcProcess) : CcAction → Prop
  | .advance w _ _ => ∀ thread h rtp max, s.threads[w]? = some thread → thread.handler = some h →
      h.pc = .admitted rtp → s.shared.mem.maxAt h.cc = some max → none ∈ s.shared.tbl →
        ∀ j, ¬ s.Carries j max.callUid
  | _ => True

/-! ## What a step does to the slots -/

variable {s s' : CcProcess} {action : CcAction}

/-- The `call_uid` of a call is reached through the pointers. -/
theorem callUid_eq (mem : CcMem) (p : ℕ) :
    (mem.maxAt p).map (fun max => max.callUid) = (mem.links.maxPtr p).bind mem.links.maxUid := by
  rw [CcMem.maxAt, Option.map_bind]
  rfl

theorem carries_iff {i : ℕ} {callUid : String} :
    s.Carries i callUid ↔ ∃ p, s.shared.At i p ∧
      (s.shared.mem.links.maxPtr p).bind s.shared.mem.links.maxUid = some callUid := by
  simp only [Carries, ← callUid_eq, Option.map_eq_some_iff, exists_and_left]

/-- A step leaves the `call_uid` of the granted requests alone. -/
theorem callUid_step (linked : s.Linked) (steps : s.step action = some s') {p : ℕ}
    (kind : s.shared.mem.links.kind p = some .maxsec) :
    (s'.shared.mem.links.maxPtr p).bind s'.shared.mem.links.maxUid =
      (s.shared.mem.links.maxPtr p).bind s.shared.mem.links.maxUid := by
  cases moves_of_step steps with
  | @received w thread input idle free =>
      obtain ⟨links_eq, -, -, -⟩ := s.receive_links w thread input.parse
      have p_ne : p ≠ s.shared.mem.cc.next := by
        rintro rfl
        rw [CcMem.kind_eq_none le_rfl] at kind
        cases kind
      obtain ⟨m, points⟩ := Option.isSome_iff_exists.mp ((linked.mem.max_iff p).mpr kind)
      have m_ne : m ≠ s.shared.mem.max.next := (linked.mem.max_lt p m points).ne
      rw [links_eq, CcMem.links_receive]
      simp only [Function.update_of_ne p_ne, points, Option.bind_some]
      cases input.parse.objects.max with
      | none => rfl
      | some max => exact Function.update_of_ne m_ne _ _
  | advanced found busy cc_eq move =>
      obtain ⟨-, maxPtr_eq, maxUid_eq, -⟩ := move.links_kept linked.seated
      dsimp only
      rw [maxPtr_eq, maxUid_eq]
  | @judged i p callMaxsecLimit now rtp slot => rw [(s.judge_links i p callMaxsecLimit now).1]
  | passed => rfl
  | @cleared i p rtp janitor slot =>
      have links_eq : (s.clear i p).shared.mem.links = s.shared.mem.links := by simp [clear]
      rw [links_eq]

/-- A step leaves no slot that was not there, or it seats a granted call in a free slot. -/
theorem at_step (steps : s.step action = some s') :
    (∀ i p, s'.shared.At i p → s.shared.At i p) ∨
      ∃ w env db thread h rtp k, action = .advance w env db ∧ s.threads[w]? = some thread ∧
        thread.handler = some h ∧ h.pc = .admitted rtp ∧ s.shared.tbl[k]? = some none ∧
        s'.shared.tbl = s.shared.tbl.set k (some (h.cc, rtp)) := by
  cases moves_of_step steps with
  | @received w thread input idle free =>
      obtain ⟨-, tbl_eq, -, -⟩ := s.receive_links w thread input.parse
      refine .inl fun i p at_slot => ?_
      rwa [CcShared.At, tbl_eq] at at_slot
  | @advanced w env db thread h cc shared handler found busy cc_eq move =>
      rcases move.seat_cases with same | ⟨k, rtp, pc, free, taken⟩
      · refine .inl fun i p at_slot => ?_
        rwa [CcShared.At, same] at at_slot
      · exact .inr ⟨w, env, db, thread, h, rtp, k, rfl, found, busy, pc, free, taken⟩
  | @judged i p callMaxsecLimit now rtp slot =>
      refine .inl fun j q at_slot => ?_
      rwa [CcShared.At, (s.judge_links i p callMaxsecLimit now).2.1] at at_slot
  | passed => exact .inl fun _ _ => id
  | cleared janitor slot => exact .inl fun _ _ => at_of_clear

/-- A slot that carries a `call_uid` after a step carried it before, or the step seats its call. -/
theorem carries_step (linked : s.Linked) (steps : s.step action = some s') {i : ℕ}
    {callUid : String} (carries : s'.Carries i callUid) :
    s.Carries i callUid ∨
      ∃ w env db thread h rtp max, action = .advance w env db ∧ s.threads[w]? = some thread ∧
        thread.handler = some h ∧ h.pc = .admitted rtp ∧
        s.shared.mem.maxAt h.cc = some max ∧ max.callUid = callUid ∧ none ∈ s.shared.tbl ∧
        ∀ j, j ≠ i → ∀ other, s'.Carries j other → s.Carries j other := by
  have kept {j p : ℕ} {other : String} (at_slot : s.shared.At j p)
      (uid : (s'.shared.mem.links.maxPtr p).bind s'.shared.mem.links.maxUid = some other) :
      s.Carries j other :=
    carries_iff.mpr ⟨p, at_slot, by rwa [← callUid_step linked steps (linked.seated j p at_slot)]⟩
  obtain ⟨p, at_slot, uid⟩ := carries_iff.mp carries
  rcases at_step steps with old | ⟨w, env, db, thread, h, rtp, k, rfl, found, busy, pc, free, taken⟩
  · exact .inl (kept (old i p at_slot) uid)
  · have other_slot {j q : ℕ} (j_ne : j ≠ k) (at_new : s'.shared.At j q) : s.shared.At j q := by
      rwa [CcShared.At, taken, List.getElem?_set_ne j_ne.symm] at at_new
    by_cases seat : i = k
    · subst seat
      right
      obtain ⟨rtp', slot⟩ := at_slot
      have inside : i < s.shared.tbl.length := (List.getElem?_eq_some_iff.mp free).1
      rw [taken, List.getElem?_set_self inside] at slot
      obtain ⟨rfl, rfl⟩ := Prod.mk.inj (Option.some.inj (Option.some.inj slot))
      have kind := linked.inMaxsec thread (List.mem_of_getElem? found) h busy (.inr ⟨_, pc⟩)
      rw [callUid_step linked steps kind, ← callUid_eq] at uid
      obtain ⟨max, max_eq, max_uid⟩ := Option.map_eq_some_iff.mp uid
      refine ⟨w, env, db, thread, h, rtp, max, rfl, found, busy, pc, max_eq, max_uid,
        List.mem_of_getElem? free, fun j j_ne other new => ?_⟩
      obtain ⟨q, at_new, new_uid⟩ := carries_iff.mp new
      exact kept (other_slot j_ne at_new) new_uid
    · exact .inl (kept (other_slot seat at_slot) uid)

/-! ## One slot in every state -/

/-- A step that seats no second call under a `call_uid` keeps one slot for each. -/
theorem oneSlotEach_step (seats : s.SeatsNewUid action) (steps : s.step action = some s')
    (linked : s.Linked) (one : s.OneSlotEach) : s'.OneSlotEach := by
  intro i j callUid carries_i carries_j
  rcases carries_step linked steps carries_i with
    old_i | ⟨w, env, db, thread, h, rtp, max, rfl, found, busy, pc, max_eq, rfl, free, others⟩
  · rcases carries_step linked steps carries_j with
      old_j | ⟨w, env, db, thread, h, rtp, max, rfl, found, busy, pc, max_eq, rfl, free, -⟩
    · exact one i j callUid old_i old_j
    · exact absurd old_i (seats thread h rtp max found busy pc max_eq free i)
  · by_contra apart
    have old_j := others j (fun same => apart same.symm) max.callUid carries_j
    exact seats thread h rtp max found busy pc max_eq free j old_j

/-- When no two slots of a state carry a `call_uid`, clearing one of them leaves none. -/
theorem clearsCall_of_oneSlotEach (linked : s.Linked) (one : s.OneSlotEach) :
    s.ClearsCall action := by
  cases action with
  | clear =>
      intro s' i callUid steps janitor carries j carries_j
      rcases carries_step linked steps carries_j with old | ⟨_, _, _, _, _, _, _, impossible, _⟩
      · obtain rfl := one i j callUid carries old
        obtain ⟨p, _, ⟨rtp, slot⟩, _⟩ := carries_j
        cases moves_of_step steps with
        | cleared janitor' found =>
            obtain rfl := Option.some.inj (janitor'.symm.trans janitor)
            have inside := (List.getElem?_eq_some_iff.mp found).1
            simp only [clear, List.getElem?_set_self inside] at slot
            cases slot
      · cases impossible
  | _ => trivial

/-- A step after which no two slots carry a `call_uid` has seated no second call under one. -/
theorem seatsNewUid_of_oneSlotEach (linked : s.Linked) (steps : s.step action = some s')
    (one' : s'.OneSlotEach) : s.SeatsNewUid action := by
  cases action with
  | advance w env db =>
      rintro ⟨proto, connected, handler⟩ h rtp max found rfl pc max_eq free j carries
      obtain ⟨tbl, taken⟩ := exists_occupy free (h.cc, rtp)
      obtain ⟨k, slot_free, tbl_eq⟩ := occupy_eq_set taken
      have called := linked.inMaxsec _ (List.mem_of_getElem? found) h rfl (.inr ⟨rtp, pc⟩)
      obtain ⟨cc, cc_eq, -⟩ := Option.map_eq_some_iff.mp called
      have seats : h.next proto connected env db s.shared =
          some ({ mem := s.shared.mem.useCc h.cc, tbl },
            some { h with pc := .served, hold := .seated }) := by
        simp only [CcHandler.next, cc_eq, pc, taken]
      have seated_tbl : s'.shared.tbl = s.shared.tbl.set k (some (h.cc, rtp)) := by
        simp only [step, found, seats, Option.map_some] at steps
        obtain rfl := Option.some.inj steps
        exact tbl_eq
      obtain ⟨p, ⟨rtp', slot⟩, uid⟩ := carries_iff.mp carries
      have apart : k ≠ j := by
        rintro rfl
        rw [slot_free] at slot
        cases slot
      have carries_k : s'.Carries k max.callUid := by
        refine carries_iff.mpr ⟨h.cc, ⟨rtp, ?_⟩, ?_⟩
        · rw [seated_tbl, List.getElem?_set_self (List.getElem?_eq_some_iff.mp slot_free).1]
        · rw [callUid_step linked steps called, ← callUid_eq, max_eq, Option.map_some]
      have carries_j : s'.Carries j max.callUid := by
        refine carries_iff.mpr ⟨p, ⟨rtp', ?_⟩, ?_⟩
        · rw [seated_tbl, List.getElem?_set_ne apart, slot]
        · rw [callUid_step linked steps (linked.seated j p ⟨rtp', slot⟩), uid]
      exact apart (one' k j max.callUid carries_k carries_j)
  | _ => trivial

theorem oneSlotEach_start (slots : ℕ) (threads : List (CcProto × Bool)) :
    (start slots threads).OneSlotEach := by
  rintro i j callUid ⟨p, -, ⟨rtp, slot⟩, -⟩
  simp [start, List.getElem?_replicate] at slot

theorem OneSlotThroughout.head {actions : List CcAction} (all : s.OneSlotThroughout actions) :
    s.OneSlotEach := by
  cases actions with
  | nil => exact all
  | cons action actions => exact all.1

theorem OneSlotThroughout.last {actions : List CcAction} (all : s.OneSlotThroughout actions)
    (executed : execAll step s actions = some s') : s'.OneSlotEach := by
  induction actions generalizing s with
  | nil =>
      obtain rfl := Option.some.inj executed
      exact all
  | cons action actions induction =>
      obtain ⟨next, steps, rest⟩ := Option.bind_eq_some_iff.mp executed
      exact induction (all.2.2 next steps) rest

/-- From a state with one slot for each call, a run has one throughout exactly when no step of it
seats a second call under a `call_uid`. -/
theorem oneSlotThroughout_iff_of_linked {actions : List CcAction} (linked : s.Linked)
    (one : s.OneSlotEach) (executed : execAll step s actions = some s') :
    s.OneSlotThroughout actions ↔ GuardedRun step SeatsNewUid s actions s' := by
  induction actions generalizing s with
  | nil =>
      obtain rfl := Option.some.inj executed
      exact iff_of_true one (.nil s)
  | cons action actions induction =>
      obtain ⟨next, steps, rest⟩ := Option.bind_eq_some_iff.mp executed
      have linked_next := linked_step steps linked
      constructor
      · rintro ⟨-, -, all⟩
        have all_next := all next steps
        have seats := seatsNewUid_of_oneSlotEach linked steps all_next.head
        have one_next := oneSlotEach_step seats steps linked one
        exact .cons seats steps ((induction linked_next one_next rest).mp all_next)
      · rintro (_ | ⟨seats, steps', run⟩)
        obtain rfl := Option.some.inj (steps'.symm.trans steps)
        have one_next := oneSlotEach_step seats steps linked one
        refine ⟨one, clearsCall_of_oneSlotEach linked one, fun other steps_other => ?_⟩
        obtain rfl := Option.some.inj (steps'.symm.trans steps_other)
        exact (induction linked_next one_next rest).mpr run

/-- In a run of the process each call has one slot in every state, and none after the janitor has
cleared it, exactly when no call is ever seated under a `call_uid` that a slot carries. -/
theorem oneSlotThroughout_iff (slots : ℕ) (threads : List (CcProto × Bool))
    (actions : List CcAction) (s : CcProcess)
    (executed : execAll step (start slots threads) actions = some s) :
    OneSlotThroughout (start slots threads) actions ↔
      GuardedRun step SeatsNewUid (start slots threads) actions s :=
  oneSlotThroughout_iff_of_linked (linked_start slots threads) (oneSlotEach_start slots threads)
    executed

/-! ## A retransmitted request -/

/-- Thread 0 serves a request of an account that may have two calls. -/
def grantOfTwo (callUid : String) : List CcAction :=
  .receive 0 (.myCc 1709546400 ("1,7,maxsec,0,100,200," ++ callUid)) ::
    List.replicate 6 (.advance 0 (prepaidEnv 2) {})

/-- A call that is about to take a slot has a `call_uid` that no slot carries. -/
def seatsCheck (s : CcProcess) : CcAction → Bool
  | .advance w _ _ =>
      match s.threads[w]? with
      | some { handler := some { cc, pc := .admitted _, .. }, .. } =>
          (s.shared.mem.maxAt cc).all fun max =>
            s.shared.tbl.all fun cell => !CcShared.hasUid s.shared.mem max.callUid cell
      | _ => true
  | _ => true

theorem seatsNewUid_of_check (s : CcProcess) (action : CcAction)
    (checked : s.seatsCheck action = true) : s.SeatsNewUid action := by
  cases action with
  | advance w env db =>
      rintro ⟨proto, connected, handler⟩ ⟨cc, pc, hold⟩ rtp max found busy pc_eq max_eq - j
        ⟨p, other, ⟨rtp', slot⟩, other_eq, same⟩
      dsimp only at busy pc_eq max_eq
      subst busy pc_eq
      have clear : CcShared.hasUid s.shared.mem max.callUid (some (p, rtp')) = false := by
        simp only [seatsCheck, found, max_eq, Option.all_some, List.all_eq_true] at checked
        simpa using checked _ (List.mem_of_getElem? slot)
      simp [CcShared.hasUid, other_eq, same] at clear
  | _ => trivial

theorem carries_of_hasUid {i : ℕ} {callUid : String} {cell : Option (ℕ × Racc)}
    (slot : s.shared.tbl[i]? = some cell)
    (has : CcShared.hasUid s.shared.mem callUid cell = true) : s.Carries i callUid := by
  obtain ⟨⟨p, rtp⟩, rfl, own⟩ := (Option.any_eq_true _ _).mp has
  obtain ⟨max, max_eq, same⟩ := (Option.any_eq_true _ _).mp own
  exact ⟨p, max, ⟨rtp, slot⟩, max_eq, of_decide_eq_true same⟩

/-- Two calls have one slot each. -/
theorem oneSlotThroughout_two :
    OneSlotThroughout (start 2 [(.myCc, true)]) (grantOfTwo "first" ++ grantOfTwo "second") := by
  let actions := grantOfTwo "first" ++ grantOfTwo "second"
  have checked : (execAll (fun s action => if s.seatsCheck action then s.step action else none)
      (start 2 [(.myCc, true)]) actions).isSome = true := by decide +kernel
  obtain ⟨s, executed⟩ := Option.isSome_iff_exists.mp checked
  have run : GuardedRun step SeatsNewUid (start 2 [(.myCc, true)]) actions s :=
    .of_execAll seatsNewUid_of_check executed
  have ran := GuardedRun.true_iff_execAll.mp (run.mono fun _ => trivial)
  exact (oneSlotThroughout_iff 2 [(.myCc, true)] actions s ran).mpr run

/-- A request that is sent again takes a second slot for its call. -/
theorem retransmitted_maxsec :
    ¬ ∀ (slots : ℕ) (threads : List (CcProto × Bool)) (actions : List CcAction) (s : CcProcess),
      execAll step (start slots threads) actions = some s →
        OneSlotThroughout (start slots threads) actions := by
  intro claim
  let actions := grantOfTwo "first" ++ grantOfTwo "first"
  have seen : (execAll step (start 2 [(.myCc, true)]) actions).map (fun s =>
      s.shared.tbl.map fun cell => CcShared.hasUid s.shared.mem "first" cell) =
      some [true, true] := by decide +kernel
  obtain ⟨s, executed, both⟩ := Option.map_eq_some_iff.mp seen
  have one := (claim 2 [(.myCc, true)] actions s executed).last executed
  have carries (i : ℕ) (inside : i < 2) : s.Carries i "first" := by
    have mapped : (s.shared.tbl.map fun cell => CcShared.hasUid s.shared.mem "first" cell)[i]? =
        some true := by
      rw [both]
      interval_cases i <;> rfl
    rw [List.getElem?_map] at mapped
    obtain ⟨cell, slot, has⟩ := Option.map_eq_some_iff.mp mapped
    exact carries_of_hasUid slot has
  exact absurd (one 0 1 "first" (carries 0 (by decide)) (carries 1 (by decide))) (by decide)

end CcProcess

end RateEngine
