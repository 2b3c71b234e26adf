import Mathlib.Data.List.Basic

/-!
# Event logs

A rule says which event may follow which events.  A log obeys the rule when every event of it is
admitted by the events before it.  A log is built by adding events at its end, so a system obeys a
rule as soon as each event that it adds is admitted by its log.
-/

namespace EventLog

variable {ε : Type*} {admits : List ε → ε → Prop} {log : List ε} {event : ε}

/-- Every event of the log is admitted by the events before it. -/
def Obeys (admits : List ε → ε → Prop) (log : List ε) : Prop :=
  ∀ before event after, log = before ++ event :: after → admits before event

theorem obeys_nil : Obeys admits [] := by
  intro before event after split
  simp at split

/-- A log with one more event obeys the rule when the event is admitted by the log. -/
theorem obeys_concat_iff : Obeys admits (log ++ [event]) ↔ Obeys admits log ∧ admits log event := by
  constructor
  · intro obeys
    refine ⟨fun before earlier after split => ?_, obeys log event [] rfl⟩
    exact obeys before earlier (after ++ [event]) (by rw [split]; simp)
  · rintro ⟨obeys, admitted⟩ before later after split
    rcases List.eq_nil_or_concat after with rfl | ⟨after, last, rfl⟩
    · obtain ⟨rfl, same⟩ := List.append_inj' split rfl
      rw [List.singleton_inj] at same
      exact same ▸ admitted
    · rw [List.concat_eq_append, ← List.cons_append, ← List.append_assoc] at split
      exact obeys before later after (List.append_inj' split rfl).1

/-- A free event changes nothing. -/
theorem obeys_concat_of_free (free : ∀ log, admits log event) :
    Obeys admits (log ++ [event]) ↔ Obeys admits log := by
  rw [obeys_concat_iff]
  exact and_iff_left (free log)

end EventLog
