import Mathlib.Algebra.BigOperators.Group.List.Basic

/-!
# Guarded runs

A transition system is a partial step function.  A run is guarded when every step of it meets a
condition on the state before the step and the event.  This file gives the rule by which a property
that one guarded step preserves holds of every state that a guarded run reaches.
-/

variable {σ ε : Type*}

/-- Perform the events in order; `none` when one of them is not enabled. -/
def execAll (step : σ → ε → Option σ) : σ → List ε → Option σ
  | s, [] => some s
  | s, event :: events => (step s event).bind fun t => execAll step t events

/-- A system whose steps lower a measure runs until no event is enabled. -/
theorem exists_execAll_stuck {step : σ → ε → Option σ} {measure : σ → ℕ}
    (lowers : ∀ {a b : σ} {event : ε}, step a event = some b → measure b < measure a) (s : σ) :
    ∃ events t, execAll step s events = some t ∧ ∀ event, step t event = none := by
  induction remaining : measure s using Nat.strongRecOn generalizing s with
  | _ n induction =>
      by_cases stuck : ∀ event, step s event = none
      · exact ⟨[], s, rfl, stuck⟩
      · obtain ⟨event, enabled⟩ := not_forall.mp stuck
        obtain ⟨t, steps⟩ := Option.ne_none_iff_exists'.mp enabled
        obtain ⟨events, u, executed, ended⟩ :=
          induction (measure t) (remaining ▸ lowers steps) t rfl
        exact ⟨event :: events, u, by rw [execAll, steps, Option.bind_some, executed], ended⟩

/-- A total step function that keeps an invariant and lowers a measure until it stops does stop. -/
theorem exists_iterate_stopped {next : σ → σ} {invariant Stopped : σ → Prop} {measure : σ → ℕ}
    (kept : ∀ s, invariant s → invariant (next s))
    (lowers : ∀ s, invariant s → ¬ Stopped s → measure (next s) < measure s) {s : σ}
    (start : invariant s) :
    ∃ k ≤ measure s, Stopped (next^[k] s) ∧ invariant (next^[k] s) := by
  induction remaining : measure s using Nat.strongRecOn generalizing s with
  | _ n induction =>
      by_cases stopped : Stopped s
      · exact ⟨0, Nat.zero_le n, stopped, start⟩
      · have lower := remaining ▸ lowers s start stopped
        obtain ⟨k, k_le, later⟩ := induction (measure (next s)) lower (kept s start) rfl
        exact ⟨k + 1, by omega, later⟩

/-- The runs of which every step is enabled and meets the guard. -/
inductive GuardedRun (step : σ → ε → Option σ) (guard : σ → ε → Prop) : σ → List ε → σ → Prop
  | nil (s : σ) : GuardedRun step guard s [] s
  | cons {s t u : σ} {event : ε} {events : List ε} (meets : guard s event)
      (steps : step s event = some t) (rest : GuardedRun step guard t events u) :
      GuardedRun step guard s (event :: events) u

namespace GuardedRun

variable {step : σ → ε → Option σ} {guard guard' : σ → ε → Prop} {s t u : σ} {events : List ε}

/-- A property that every guarded step preserves holds at the end of every guarded run. -/
theorem preserves {invariant : σ → Prop} (run : GuardedRun step guard s events t)
    (preserved : ∀ {a b : σ} {event : ε}, guard a event → step a event = some b →
      invariant a → invariant b)
    (start : invariant s) : invariant t := by
  induction run with
  | nil => exact start
  | cons meets steps _ ih => exact ih (preserved meets steps start)

/-- A measure that every guarded step moves by the weight of its event moves over a run by the sum
of the weights. -/
theorem measure_eq {M : Type*} [AddCommMonoid M] {invariant : σ → Prop} {measure : σ → M}
    {weight : ε → M} (run : GuardedRun step guard s events t)
    (preserved : ∀ {a b : σ} {event : ε}, guard a event → step a event = some b →
      invariant a → invariant b ∧ measure b = measure a + weight event)
    (start : invariant s) : measure t = measure s + (events.map weight).sum := by
  induction run with
  | nil => simp
  | cons meets steps _ ih =>
    obtain ⟨next, moved⟩ := preserved meets steps start
    rw [ih next, moved, List.map_cons, List.sum_cons, add_assoc]

/-- A run seen by one party: the events of others keep the relation to a reference state, and the
party's own events advance both sides. -/
theorem unwinds {τ : Type*} (relates : σ → τ → Prop) {own : ε → Bool} {follow : τ → ε → τ}
    (run : GuardedRun step guard s events t)
    (silent : ∀ {a b : σ} {r : τ} {event : ε}, own event = false → guard a event →
      step a event = some b → relates a r → relates b r)
    (visible : ∀ {a b : σ} {r : τ} {event : ε}, event ∈ events → own event = true →
      step a event = some b → relates a r → relates b (follow r event))
    {r : τ} (start : relates s r) : relates t ((events.filter own).foldl follow r) := by
  induction run generalizing r with
  | nil => exact start
  | @cons _ _ _ event events meets steps _ ih =>
    have visible_later {a b : σ} {r : τ} {later : ε} (member : later ∈ events)
        (owned : own later = true) (steps : step a later = some b) (related : relates a r) :
        relates b (follow r later) :=
      visible (List.mem_cons_of_mem event member) owned steps related
    cases owned : own event with
    | false =>
      rw [List.filter_cons_of_neg (by simp [owned])]
      exact ih visible_later (silent owned meets steps start)
    | true =>
      rw [List.filter_cons_of_pos owned, List.foldl_cons]
      exact ih visible_later (visible List.mem_cons_self owned steps start)

/-- A run under a guard is a run under every weaker guard. -/
theorem mono (run : GuardedRun step guard s events t)
    (weaker : ∀ {a : σ} {event : ε}, guard a event → guard' a event) :
    GuardedRun step guard' s events t := by
  induction run with
  | nil s => exact nil s
  | cons meets steps _ ih => exact cons (weaker meets) steps ih

/-- Runs compose. -/
theorem append {events' : List ε} (run : GuardedRun step guard s events t)
    (next : GuardedRun step guard t events' u) : GuardedRun step guard s (events ++ events') u := by
  induction run with
  | nil => exact next
  | cons meets steps _ ih => exact cons meets steps (ih next)

/-- An execution that checks the guard before each step is a guarded run. -/
theorem of_execAll {check : σ → ε → Bool} (sound : ∀ a event, check a event = true → guard a event)
    (executed : execAll (fun a event => if check a event then step a event else none) s events =
      some t) : GuardedRun step guard s events t := by
  induction events generalizing s with
  | nil =>
      obtain rfl : s = t := Option.some.inj executed
      exact nil s
  | cons event events ih =>
      obtain ⟨next, checked, rest⟩ := Option.bind_eq_some_iff.mp executed
      dsimp only at checked
      split at checked
      · rename_i meets
        exact cons (sound s event meets) checked (ih rest)
      · cases checked

/-- Without a guard the guarded runs are the successful executions. -/
theorem true_iff_execAll :
    GuardedRun step (fun _ _ => True) s events t ↔ execAll step s events = some t := by
  constructor
  · intro run
    induction run with
    | nil => rfl
    | cons _ steps _ ih => rw [execAll, steps, Option.bind_some, ih]
  · intro executed
    induction events generalizing s with
    | nil =>
        obtain rfl : s = t := Option.some.inj executed
        exact nil s
    | cons event events ih =>
        obtain ⟨next, steps, rest⟩ := Option.bind_eq_some_iff.mp executed
        exact cons trivial steps (ih rest)

end GuardedRun
