import Mathlib.Data.List.Basic

/-!
# Machines with outputs

A step takes an event to an output and the next state.  Two machines whose states stay related give
the same outputs in every run.
-/

variable {σ τ ε ο : Type*}

/-- The outputs of a run and its last state. -/
def runOutputs (step : σ → ε → ο × σ) : σ → List ε → List ο × σ
  | s, [] => ([], s)
  | s, event :: events =>
      let first := step s event
      let rest := runOutputs step first.2 events
      (first.1 :: rest.1, rest.2)

/-- Related states give the same output and stay related: so it is with whole runs. -/
theorem runOutputs_simulation {step : σ → ε → ο × σ} {step' : τ → ε → ο × τ}
    {related : σ → τ → Prop}
    (steps : ∀ {s t} event, related s t →
      (step s event).1 = (step' t event).1 ∧ related (step s event).2 (step' t event).2)
    {s : σ} {t : τ} (start : related s t) (events : List ε) :
    (runOutputs step s events).1 = (runOutputs step' t events).1 ∧
      related (runOutputs step s events).2 (runOutputs step' t events).2 := by
  induction events generalizing s t with
  | nil => exact ⟨rfl, start⟩
  | cons event events ih =>
      obtain ⟨output, next⟩ := steps event start
      obtain ⟨outputs, last⟩ := ih next
      exact ⟨by rw [runOutputs, runOutputs, output, outputs], last⟩

/-- What every step gives, whatever state it starts from, holds of each event and its output. -/
theorem forall_zip_runOutputs {step : σ → ε → ο × σ} {holds : ε → ο → Prop}
    (each : ∀ s event, holds event (step s event).1) (s : σ) (events : List ε) :
    ∀ pair ∈ events.zip (runOutputs step s events).1, holds pair.1 pair.2 := by
  induction events generalizing s with
  | nil => simp
  | cons event events ih =>
      intro pair member
      rcases List.mem_cons.mp member with rfl | later
      · exact each s event
      · exact ih _ pair later
