import Mathlib.Data.List.Basic
import Mathlib.Data.List.Infix

/-!
# Readers of tokens

A reader takes tokens from the front of a list, one after the other, and stops with a reason of its
own.  The tokens of a text are its nonempty fields; they are the fields by position as far as no
field is empty.
-/

universe u

variable {α β γ ε : Type u}

/-- A reader that stops with an `ε`. -/
abbrev TokenReader (α ε : Type u) := StateT (List α) (Except ε)

namespace TokenReader

/-- Read the next token, or stop when there is none. -/
def next (missing : ε) (read : α → Except ε β) : TokenReader α ε β
  | [] => .error missing
  | token :: rest => (read token).map fun b => (b, rest)

variable {tokens rest : List α} {missing : ε} {read : α → Except ε β}

theorem next_eq_ok {b : β} :
    next missing read tokens = .ok (b, rest) ↔ ∃ token, tokens = token :: rest ∧
      read token = .ok b := by
  cases tokens with
  | nil => simp [next]
  | cons token tokens =>
      cases found : read token <;> simp [next, found, Except.map, and_comm]

theorem pure_eq_ok {b c : β} :
    (pure b : TokenReader α ε β) tokens = .ok (c, rest) ↔ b = c ∧ tokens = rest := by
  change (Except.ok (b, tokens) : Except ε _) = .ok (c, rest) ↔ _
  simp

theorem bind_eq_ok {first : TokenReader α ε β} {later : β → TokenReader α ε γ} {c : γ} :
    (first >>= later) tokens = .ok (c, rest) ↔
      ∃ b between, first tokens = .ok (b, between) ∧ later b between = .ok (c, rest) := by
  change (first tokens >>= fun found => later found.1 found.2) = .ok (c, rest) ↔ _
  cases first tokens with
  | error stop => simp [bind, Except.bind]
  | ok found => simp [bind, Except.bind, Prod.ext_iff]

theorem exists_cons_of_succ_le {n : ℕ} (enough : n + 1 ≤ tokens.length) :
    ∃ token rest, tokens = token :: rest ∧ n ≤ rest.length := by
  cases tokens with
  | nil => nomatch enough
  | cons token rest => exact ⟨token, rest, rfl, Nat.le_of_succ_le_succ enough⟩

/-! ## Stops -/

/-- Every stop of a reader has the property. -/
def StopsWith (reason : ε → Prop) (reader : TokenReader α ε β) : Prop :=
  ∀ tokens stop, reader tokens = .error stop → reason stop

namespace StopsWith

variable {reason : ε → Prop}

theorem next (none : reason missing) (some : ∀ token stop, read token = .error stop → reason stop) :
    StopsWith reason (next missing read) := by
  intro tokens stop stopped
  cases tokens with
  | nil =>
      obtain rfl : missing = stop := Except.error.inj stopped
      exact none
  | cons token tokens =>
      rw [TokenReader.next] at stopped
      cases found : read token with
      | error stop' =>
          rw [found] at stopped
          exact Except.error.inj stopped ▸ some token stop' found
      | ok b =>
          rw [found] at stopped
          nomatch stopped

theorem pure (b : β) : StopsWith reason (pure b : TokenReader α ε β) :=
  fun _ _ stopped => nomatch stopped

theorem bind {first : TokenReader α ε β} {later : β → TokenReader α ε γ}
    (first_stops : StopsWith reason first) (later_stops : ∀ b, StopsWith reason (later b)) :
    StopsWith reason (first >>= later) := by
  intro tokens stop stopped
  change (first tokens >>= fun found => later found.1 found.2) = .error stop at stopped
  cases found : first tokens with
  | error stop' =>
      rw [found] at stopped
      exact Except.error.inj stopped ▸ first_stops tokens stop' found
  | ok between =>
      rw [found] at stopped
      exact later_stops between.1 between.2 stop stopped

end StopsWith

/-! ## Fields by position -/

/-- The first kept entries are the first entries exactly when those are all kept. -/
theorem take_filter_prefix_iff {keep : α → Bool} {fields : List α} {n : ℕ}
    (enough : n ≤ (fields.filter keep).length) :
    (fields.filter keep).take n <+: fields ↔ ∀ field ∈ fields.take n, keep field = true := by
  have short : n ≤ fields.length := enough.trans (List.length_filter_le _ _)
  rw [List.prefix_iff_eq_take, List.length_take_of_le enough]
  constructor
  · intro same field member
    rw [← same] at member
    exact List.of_mem_filter (List.mem_of_mem_take member)
  · intro kept
    conv_lhs => rw [← List.take_append_drop n fields]
    rw [List.filter_append, List.filter_eq_self.mpr kept]
    exact List.take_left' (List.length_take_of_le short)

end TokenReader
