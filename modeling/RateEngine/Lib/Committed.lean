import Mathlib.Order.Defs.Unbundled

/-!
# Runs of committed statements

A run over a state may raise an error, and then it keeps what it did before: every statement is
committed by itself.  A run meets a specification when it moves along a relation, whether it ends
with an error or not, and establishes a postcondition when it ends without one.  Where it matters
what an error leaves, a run ensures a condition for each end.  This file gives the steps of such
runs and the rules for them, one for each way to put runs together.
-/

/-- A run: the value or the error that it ends with, and the state that it leaves. -/
def Committed (ε σ α : Type) : Type := σ → Except ε α × σ

namespace Committed

variable {ε σ α β : Type}

/-- Go on with the value of a run, unless it has raised an error. -/
def andThen (m : Committed ε σ α) (f : α → Committed ε σ β) : Committed ε σ β := fun s =>
  match m s with
  | (.ok a, t) => f a t
  | (.error e, t) => (.error e, t)

instance : Monad (Committed ε σ) where
  pure a := fun s => (.ok a, s)
  bind := andThen

/-- Raise an error. -/
def raise (e : ε) : Committed ε σ α := fun s => (.error e, s)

/-- A statement: it fails and does nothing, or gives a value and a new state. -/
def statement (error : ε) (f : σ → Option (α × σ)) : Committed ε σ α := fun s =>
  match f s with
  | some (a, t) => (.ok a, t)
  | none => (.error error, s)

/-- A query reads the state. -/
def query (f : σ → α) : Committed ε σ α := fun s => (.ok (f s), s)

/-- Raise an error unless there is a value. -/
def ofExcept : Except ε α → Committed ε σ α
  | .ok a => pure a
  | .error e => raise e

theorem bind_apply (m : Committed ε σ α) (f : α → Committed ε σ β) (s : σ) :
    (m >>= f) s =
      match m s with
      | (.ok a, t) => f a t
      | (.error e, t) => (.error e, t) := rfl

theorem query_bind_apply (f : σ → α) (g : α → Committed ε σ β) (s : σ) :
    (query f >>= g) s = g (f s) s := rfl

theorem bind_of_ok {m : Committed ε σ α} {f : α → Committed ε σ β} {s t : σ} {a : α}
    (run : m s = (.ok a, t)) : (m >>= f) s = f a t := by
  rw [bind_apply, run]

theorem statement_eq_ok {error : ε} {f : σ → Option (α × σ)} {s t : σ} {a : α} :
    statement error f s = (.ok a, t) ↔ f s = some (a, t) := by
  unfold statement
  rcases f s with - | ⟨b, u⟩ <;> simp

/-! ## Specifications -/

/-- From a state the run moves along the relation, and without an error it ends in the
postcondition. -/
structure Meets (R : σ → σ → Prop) (post : α → σ → Prop) (m : Committed ε σ α) (s : σ) : Prop where
  moves : R s (m s).2
  ends : ∀ {a t}, m s = (.ok a, t) → post a t

variable {R : σ → σ → Prop} {post : α → σ → Prop} {s : σ}

theorem Meets.weaken {post' : α → σ → Prop} {m : Committed ε σ α} (meets : Meets R post m s)
    (weaker : ∀ {a t}, R s t → post a t → post' a t) : Meets R post' m s where
  moves := meets.moves
  ends {a t} ended := by
    have moved := meets.moves
    rw [ended] at moved
    exact weaker moved (meets.ends ended)

theorem meets_query_bind (f : σ → α) {g : α → Committed ε σ β} {post : β → σ → Prop}
    (later : Meets R post (g (f s)) s) : Meets R post (query f >>= g) s :=
  ⟨later.moves, later.ends⟩

section Preorder

variable [IsPreorder σ R]

theorem meets_pure {a : α} (holds : post a s) : Meets R post (pure a : Committed ε σ α) s where
  moves := refl_of R s
  ends ended := by
    obtain ⟨⟨⟩, rfl⟩ := Prod.mk.inj ended
    exact holds

theorem meets_raise (e : ε) : Meets R post (raise e : Committed ε σ α) s where
  moves := refl_of R s
  ends ended := nomatch ended

theorem meets_ofExcept {x : Except ε α} (holds : ∀ {a}, x = .ok a → post a s) :
    Meets R post (ofExcept x : Committed ε σ α) s := by
  cases x with
  | ok a => exact meets_pure (holds rfl)
  | error e => exact meets_raise e

theorem meets_statement {error : ε} {f : σ → Option (α × σ)}
    (done : ∀ {a t}, f s = some (a, t) → R s t ∧ post a t) :
    Meets R post (statement error f) s where
  moves := by
    unfold statement
    rcases result : f s with - | ⟨a, t⟩
    · exact refl_of R s
    · exact (done result).1
  ends ended := (done (statement_eq_ok.mp ended)).2

theorem meets_bind {m : Committed ε σ α}
    {f : α → Committed ε σ β} {post' : β → σ → Prop} (first : Meets R post m s)
    (later : ∀ {a t}, R s t → post a t → Meets R post' (f a) t) : Meets R post' (m >>= f) s := by
  have moved := first.moves
  rcases run : m s with ⟨e | a, t⟩
  · rw [run] at moved
    exact ⟨by rw [bind_apply, run]; exact moved, by rw [bind_apply, run]; nofun⟩
  · rw [run] at moved
    have rest := later moved (first.ends run)
    exact ⟨by rw [bind_apply, run]; exact trans_of R moved rest.moves,
      by rw [bind_apply, run]; exact rest.ends⟩

/-- A loop whose body takes the invariant from the elements before to the elements so far. -/
theorem meets_foldlM {body : β → α → Committed ε σ β} {xs : List α} (inv : List α → β → σ → Prop)
    (step : ∀ {front x back b t}, xs = front ++ x :: back → inv front b t →
      Meets R (inv (front ++ [x])) (body b x) t)
    {b : β} (start : inv [] b s) : Meets R (inv xs) (xs.foldlM body b) s := by
  suffices rest : ∀ back front b s, xs = front ++ back → inv front b s →
      Meets R (inv xs) (back.foldlM body b) s from rest xs [] b s rfl start
  intro back
  induction back with
  | nil =>
      intro front b s split holds
      rw [List.append_nil] at split
      exact meets_pure (split ▸ holds)
  | cons x back induction =>
      intro front b s split holds
      rw [List.foldlM_cons]
      refine meets_bind (step split holds) fun _ later => ?_
      exact induction (front ++ [x]) _ _ (by rw [split]; simp) later

/-- The same for a loop without a value. -/
theorem meets_forM {body : α → Committed ε σ PUnit} {xs : List α} (inv : List α → σ → Prop)
    (step : ∀ {front x back t}, xs = front ++ x :: back → inv front t →
      Meets R (fun _ => inv (front ++ [x])) (body x) t)
    (start : inv [] s) : Meets R (fun _ => inv xs) (xs.forM body) s := by
  suffices rest : ∀ back front s, xs = front ++ back → inv front s →
      Meets R (fun _ => inv xs) (back.forM body) s from rest xs [] s rfl start
  intro back
  induction back with
  | nil =>
      intro front s split holds
      rw [List.append_nil] at split
      exact meets_pure (split ▸ holds)
  | cons x back induction =>
      intro front s split holds
      change Meets R (fun _ => inv xs) (body x >>= fun _ => back.forM body) s
      refine meets_bind (step split holds) fun _ later => ?_
      exact induction (front ++ [x]) _ (by rw [split]; simp) later

end Preorder

/-! ## Runs that change nothing -/

/-- The run changes nothing, neither in the state nor in a state that it moves to. -/
def Settled (R : σ → σ → Prop) (m : Committed ε σ PUnit) (s : σ) : Prop :=
  ∀ t, R s t → m t = (.ok ⟨⟩, t)

theorem Settled.of_moves [IsTrans σ R] {m : Committed ε σ PUnit} {t : σ} (settled : Settled R m s)
    (moved : R s t) : Settled R m t := fun u later => settled u (trans_of R moved later)

/-- The runs of the elements before stay settled, and the last one is. -/
theorem Settled.append_singleton [IsTrans σ R] {body : α → Committed ε σ PUnit} {front : List α}
    {x : α} {t : σ} (settled : ∀ y ∈ front, Settled R (body y) s) (moved : R s t)
    (last : Settled R (body x) t) : ∀ y ∈ front ++ [x], Settled R (body y) t := by
  intro y member
  rcases List.mem_append.mp member with old | new
  · exact (settled y old).of_moves moved
  · exact List.mem_singleton.mp new ▸ last

/-- A loop is settled when its body is, for each element. -/
theorem settled_forM {body : α → Committed ε σ PUnit} {xs : List α}
    (each : ∀ x ∈ xs, Settled R (body x) s) : Settled R (xs.forM body) s := by
  induction xs with
  | nil => exact fun t _ => rfl
  | cons x xs induction =>
      rw [List.forall_mem_cons] at each
      intro t moved
      change (body x >>= fun _ => xs.forM body) t = _
      rw [bind_of_ok (each.1 t moved)]
      exact induction each.2 t moved

/-! ## Runs without an error -/

/-- From a state the run ends without an error, in the postcondition. -/
def Ends (post : α → σ → Prop) (m : Committed ε σ α) (s : σ) : Prop :=
  ∃ a t, m s = (.ok a, t) ∧ post a t

theorem ends_pure {a : α} (holds : post a s) : Ends post (pure a : Committed ε σ α) s :=
  ⟨a, s, rfl, holds⟩

theorem ends_query_bind (f : σ → α) {g : α → Committed ε σ β} {post : β → σ → Prop}
    (later : Ends post (g (f s)) s) : Ends post (query f >>= g) s := later

theorem ends_statement {error : ε} {f : σ → Option (α × σ)} {a : α} {t : σ}
    (done : f s = some (a, t)) (holds : post a t) : Ends post (statement error f) s :=
  ⟨a, t, statement_eq_ok.mpr done, holds⟩

theorem ends_bind {m : Committed ε σ α} {f : α → Committed ε σ β} {post' : β → σ → Prop}
    (first : Ends post m s) (later : ∀ {a t}, post a t → Ends post' (f a) t) :
    Ends post' (m >>= f) s := by
  obtain ⟨a, t, run, holds⟩ := first
  obtain ⟨b, u, run', holds'⟩ := later holds
  exact ⟨b, u, (bind_of_ok run).trans run', holds'⟩

/-- A loop whose body keeps the invariant. -/
theorem ends_forM {body : α → Committed ε σ PUnit} {xs : List α} {inv : σ → Prop}
    (step : ∀ {x t}, x ∈ xs → inv t → Ends (fun _ => inv) (body x) t) (start : inv s) :
    Ends (fun _ => inv) (xs.forM body) s := by
  induction xs generalizing s with
  | nil => exact ends_pure start
  | cons x xs induction =>
      change Ends _ (body x >>= fun _ => xs.forM body) s
      refine ends_bind (step List.mem_cons_self start) fun holds => ?_
      exact induction (fun member => step (List.mem_cons_of_mem x member)) holds

/-! ## Both ends -/

/-- The value that a query finds, or else that of a run. -/
def findOr (find : σ → Option α) (m : Committed ε σ α) : Committed ε σ α := do
  match ← query find with
  | some a => return a
  | none => m

/-- From a state the run ends without an error in the postcondition, or with one in the other
condition. -/
def Ensures (post : α → σ → Prop) (stop : σ → Prop) (m : Committed ε σ α) (s : σ) : Prop :=
  match m s with
  | (.ok a, t) => post a t
  | (.error _, t) => stop t

section Ensures

variable {stop : σ → Prop} {m : Committed ε σ α} {a : α} {t : σ} {e : ε}

theorem Ensures.of_ok (ensures : Ensures post stop m s) (ended : m s = (.ok a, t)) : post a t := by
  rwa [Ensures, ended] at ensures

theorem Ensures.of_error (ensures : Ensures post stop m s) (stopped : m s = (.error e, t)) :
    stop t := by
  rwa [Ensures, stopped] at ensures

theorem ensures_of_run (ends : ∀ a t, m s = (.ok a, t) → post a t)
    (stops : ∀ e t, m s = (.error e, t) → stop t) : Ensures post stop m s := by
  rcases run : m s with ⟨e | a, t⟩
  · rw [Ensures, run]
    exact stops e t run
  · rw [Ensures, run]
    exact ends a t run

theorem Ensures.weaken {post' : α → σ → Prop} {stop' : σ → Prop} (ensures : Ensures post stop m s)
    (ends : ∀ a t, post a t → post' a t) (stops : ∀ t, stop t → stop' t) :
    Ensures post' stop' m s :=
  ensures_of_run (fun a t ended => ends a t (ensures.of_ok ended)) fun _ t stopped =>
    stops t (ensures.of_error stopped)

theorem Meets.ensures (meets : Meets R post m s) :
    Ensures (fun a t => R s t ∧ post a t) (R s) m s := by
  have moved := meets.moves
  refine ensures_of_run (fun a t ended => ?_) fun e t stopped => ?_
  · rw [ended] at moved
    exact ⟨moved, meets.ends ended⟩
  · rw [stopped] at moved
    exact moved

theorem ensures_pure (holds : post a s) : Ensures post stop (pure a : Committed ε σ α) s := holds

theorem ensures_ofExcept {x : Except ε α} (ends : ∀ a, x = .ok a → post a s) (stops : stop s) :
    Ensures post stop (ofExcept x) s := by
  cases x with
  | ok a => exact ends a rfl
  | error e => exact stops

theorem ensures_statement {error : ε} {f : σ → Option (α × σ)}
    (done : ∀ a t, f s = some (a, t) → post a t) (refused : f s = none → stop s) :
    Ensures post stop (statement error f) s := by
  unfold Ensures statement
  rcases result : f s with - | ⟨a, t⟩
  · exact refused result
  · exact done a t result

theorem ensures_findOr {find : σ → Option α} (known : ∀ a, find s = some a → post a s)
    (created : find s = none → Ensures post stop m s) : Ensures post stop (findOr find m) s := by
  have run : findOr find m s =
      (match find s with
        | some a => pure a
        | none => m : Committed ε σ α) s := rfl
  rw [Ensures, run]
  cases found : find s with
  | some a => exact known a found
  | none => exact created found

theorem ensures_bind {f : α → Committed ε σ β} {post' : β → σ → Prop}
    (first : Ensures post stop m s) (later : ∀ {a t}, post a t → Ensures post' stop (f a) t) :
    Ensures post' stop (m >>= f) s := by
  rcases run : m s with ⟨e | a, t⟩
  · rw [Ensures, bind_apply, run]
    exact first.of_error run
  · rw [Ensures, bind_of_ok run]
    exact later (first.of_ok run)

/-- A loop whose body takes the invariant from the elements before to the elements so far, or stops
in the other condition. -/
theorem ensures_foldlM {body : β → α → Committed ε σ β} {xs : List α}
    (inv : List α → β → σ → Prop)
    (step : ∀ {front x back b t}, xs = front ++ x :: back → inv front b t →
      Ensures (inv (front ++ [x])) stop (body b x) t)
    {b : β} (start : inv [] b s) : Ensures (inv xs) stop (xs.foldlM body b) s := by
  suffices rest : ∀ back front b s, xs = front ++ back → inv front b s →
      Ensures (inv xs) stop (back.foldlM body b) s from rest xs [] b s rfl start
  intro back
  induction back with
  | nil =>
      intro front b s split holds
      rw [List.append_nil] at split
      exact ensures_pure (split ▸ holds)
  | cons x back induction =>
      intro front b s split holds
      rw [List.foldlM_cons]
      refine ensures_bind (step split holds) fun later => ?_
      exact induction (front ++ [x]) _ _ (by rw [split]; simp) later

end Ensures

/-! ## Runs on a part of the state -/

section Zoom

variable {τ : Type} {get : τ → σ} {set : σ → τ → τ} {m : Committed ε σ α} {t : τ}

/-- Run on a part of the state. -/
def zoom (get : τ → σ) (set : σ → τ → τ) (m : Committed ε σ α) : Committed ε τ α := fun t =>
  ((m (get t)).1, set (m (get t)).2 t)

theorem ensures_zoom {stop : σ → Prop} {post' : α → τ → Prop} {stop' : τ → Prop}
    (ensures : Ensures post stop m (get t)) (ends : ∀ a s, post a s → post' a (set s t))
    (stops : ∀ s, stop s → stop' (set s t)) : Ensures post' stop' (zoom get set m) t := by
  unfold Ensures zoom
  rcases run : m (get t) with ⟨e | a, s⟩
  · exact stops s (ensures.of_error run)
  · exact ends a s (ensures.of_ok run)

end Zoom

end Committed
