import Mathlib.Data.List.Basic

/-!
# What every step of a run does

A run of a total step function takes events in turn.  Two conditions on steps that agree where an
invariant holds hold of the same runs, when the steps that meet one of them keep the invariant.
-/

variable {σ ε : Type*}

/-- Where a list is split at an entry: before the first one or after it. -/
theorem forall_split_cons {α : Type*} {holds : List α → α → Prop} {x : α} {xs : List α} :
    (∀ before y after, x :: xs = before ++ y :: after → holds before y) ↔
      holds [] x ∧ ∀ before y after, xs = before ++ y :: after → holds (x :: before) y := by
  constructor
  · intro all
    refine ⟨all [] x xs rfl, fun before y after split => ?_⟩
    exact all (x :: before) y after (by rw [split, List.cons_append])
  · rintro ⟨first, later⟩ before y after split
    cases before with
    | nil =>
        obtain ⟨rfl, -⟩ := List.cons.inj split
        exact first
    | cons z before =>
        obtain ⟨rfl, rest⟩ := List.cons.inj split
        exact later before y after rest

/-- The condition holds of every event in the state that the events before it lead to. -/
def EachStep (step : σ → ε → σ) (holds : σ → ε → Prop) (s : σ) (events : List ε) : Prop :=
  ∀ before event after, events = before ++ event :: after → holds (before.foldl step s) event

namespace EachStep

variable {step : σ → ε → σ} {holds holds' : σ → ε → Prop} {s : σ} {events : List ε}

theorem nil : EachStep step holds s [] := fun before event after split => by simp at split

theorem cons_iff {event : ε} : EachStep step holds s (event :: events) ↔
    holds s event ∧ EachStep step holds (step s event) events := forall_split_cons

/-- A condition on the events alone. -/
theorem iff_forall_mem {met : ε → Prop} :
    EachStep step (fun _ event => met event) s events ↔ ∀ event ∈ events, met event := by
  constructor
  · intro each event member
    obtain ⟨before, after, split⟩ := List.append_of_mem member
    exact each before event after split
  · rintro all before event after rfl
    exact all event (List.mem_append_right _ List.mem_cons_self)

/-- Conditions that agree where the invariant holds; a step that meets the first one keeps it. -/
theorem congr (invariant : σ → Prop)
    (agree : ∀ {s : σ} {event : ε}, invariant s → (holds s event ↔ holds' s event))
    (kept : ∀ {s : σ} {event : ε}, invariant s → holds s event → invariant (step s event))
    (start : invariant s) : EachStep step holds s events ↔ EachStep step holds' s events := by
  induction events generalizing s with
  | nil => exact iff_of_true nil nil
  | cons event events induction =>
      rw [cons_iff, cons_iff, ← agree start]
      exact and_congr_right fun met => induction (kept start met)

end EachStep
