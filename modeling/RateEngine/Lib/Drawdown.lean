import Mathlib.Algebra.BigOperators.Group.List.Basic
import Mathlib.Algebra.Ring.Int.Defs
import Mathlib.Order.Defs.LinearOrder

/-!
# Drawing from a pool

Requests draw from a pool of some size, each no more than it asks and no more than is left.  What
the pool has given may be booked in two ways: by what was asked, or by what the grants were charged.
The two books grant the same to every later request while they agree until the pool is empty; they
stay so when a grant is charged exactly, and the grant that empties a full pool at least.
-/

namespace Drawdown

/-- What a request gets from what is left. -/
def grant (left asked : ℤ) : ℤ := max 0 (min asked left)

/-- Two books of a pool that grant the same: they agree until the pool is empty. -/
def Agree (size booked charged : ℤ) : Prop :=
  booked < size ∧ charged = booked ∨ size ≤ booked ∧ size ≤ charged

/-- A grant of less than the pool is charged exactly, and one of the whole pool at least. -/
def ExactUpTo (size : ℤ) (charge : ℤ → ℤ) : Prop :=
  ∀ got, 0 < got → got ≤ size → got ≤ charge got ∧ (got < size → charge got = got)

variable {size booked charged : ℤ}

theorem agree_zero (size : ℤ) : Agree size 0 0 := by
  unfold Agree
  omega

theorem Agree.grant_eq (agree : Agree size booked charged) {more : ℤ} (nonneg : 0 ≤ more)
    (asked : ℤ) : grant (size - (charged + more)) asked = grant (size - (booked + more)) asked := by
  unfold Agree at agree
  unfold grant
  omega

/-- What a grant is charged. -/
def fee (charge : ℤ → ℤ) (got : ℤ) : ℤ := if 0 < got then charge got else 0

/-- The books agree after a request that both of them grant. -/
theorem Agree.request (agree : Agree size booked charged) (booked_nonneg : 0 ≤ booked) {asked : ℤ}
    (asked_nonneg : 0 ≤ asked) {charge : ℤ → ℤ} (exact_charge : ExactUpTo size charge) :
    Agree size (booked + asked) (charged + fee charge (grant (size - booked) asked)) := by
  have got_le : grant (size - booked) asked ≤ asked := by
    unfold grant
    omega
  rw [fee]
  by_cases positive : 0 < grant (size - booked) asked
  · rw [if_pos positive]
    have within : grant (size - booked) asked ≤ size - booked := by
      unfold grant at positive ⊢
      omega
    have emptied : grant (size - booked) asked < asked →
        grant (size - booked) asked = size - booked := by
      unfold grant
      omega
    obtain ⟨at_least, exactly⟩ := exact_charge _ positive (by omega)
    revert at_least exactly
    generalize charge (grant (size - booked) asked) = cost
    generalize grant (size - booked) asked = got at *
    intro at_least exactly
    unfold Agree at agree ⊢
    by_cases short : got < size
    · have := exactly short
      omega
    · omega
  · rw [if_neg positive]
    unfold grant at positive
    unfold Agree at agree ⊢
    omega

/-! ## Requests in a row -/

/-- Draw requests in turn; `used` is what they got. -/
def draw (size : ℤ) : ℤ → List ℤ → List ℤ
  | _, [] => []
  | used, asked :: rest =>
      grant (size - used) asked :: draw size (used + grant (size - used) asked) rest

/-- Grant requests in turn; `booked` is what they asked. -/
def clamp (size : ℤ) : ℤ → List ℤ → List ℤ
  | _, [] => []
  | booked, asked :: rest => grant (size - booked) asked :: clamp size (booked + asked) rest

theorem agree_self (size used : ℤ) : Agree size used used := by
  unfold Agree
  omega

/-- The books agree after a request that gets what is left. -/
theorem Agree.drawn (agree : Agree size booked charged) {asked : ℤ} (asked_nonneg : 0 ≤ asked) :
    Agree size (booked + asked) (charged + grant (size - charged) asked) := by
  unfold Agree grant at *
  omega

/-- Booking what is asked grants what booking the grants does. -/
theorem Agree.clamp_eq_draw (agree : Agree size booked charged) {requests : List ℤ}
    (nonneg : ∀ asked ∈ requests, 0 ≤ asked) :
    clamp size booked requests = draw size charged requests := by
  induction requests generalizing booked charged with
  | nil => rfl
  | cons asked rest induction =>
      rw [List.forall_mem_cons] at nonneg
      have same : grant (size - charged) asked = grant (size - booked) asked := by
        simpa using agree.grant_eq (Int.le_refl 0) asked
      rw [clamp, draw, ← same, induction (agree.drawn nonneg.1) nonneg.2]

theorem grant_nonneg (left asked : ℤ) : 0 ≤ grant left asked := by
  unfold grant
  omega

theorem grant_le {asked : ℤ} (asked_nonneg : 0 ≤ asked) (left : ℤ) : grant left asked ≤ asked := by
  unfold grant
  omega

/-- Requests get no more than is left. -/
theorem sum_draw_le (size used : ℤ) (requests : List ℤ) :
    (draw size used requests).sum ≤ max 0 (size - used) := by
  induction requests generalizing used with
  | nil =>
      rw [draw, List.sum_nil]
      omega
  | cons asked rest induction =>
      rw [draw, List.sum_cons]
      have later := induction (used + grant (size - used) asked)
      unfold grant at *
      omega

/-- After more was asked than the pool has nothing is granted. -/
theorem grant_of_exceeded {left asked : ℤ} (exceeded : left ≤ 0) : grant left asked = 0 := by
  unfold grant
  omega

section Run

variable {Request : Type*} (size) (asked : Request → ℤ) (charge : Request → ℤ → ℤ)

/-- The charge of requests that are granted in order. -/
def spend : ℤ → List Request → ℤ
  | _, [] => 0
  | booked, request :: rest =>
      fee (charge request) (grant (size - booked) (asked request)) +
        spend (booked + asked request) rest

variable {size}

/-- The books agree after any number of requests. -/
theorem Agree.run (agree : Agree size booked charged) (booked_nonneg : 0 ≤ booked)
    (requests : List Request) (asked_nonneg : ∀ request ∈ requests, 0 ≤ asked request)
    (exact_charge : ∀ request ∈ requests, ExactUpTo size (charge request)) :
    Agree size (booked + (requests.map asked).sum)
      (charged + spend size asked charge booked requests) := by
  induction requests generalizing booked charged with
  | nil => simpa [spend] using agree
  | cons request rest induction =>
      rw [List.forall_mem_cons] at asked_nonneg exact_charge
      have first := agree.request booked_nonneg asked_nonneg.1 exact_charge.1
      have later := induction first (Int.add_nonneg booked_nonneg asked_nonneg.1) asked_nonneg.2
        exact_charge.2
      rw [List.map_cons, List.sum_cons, spend, ← Int.add_assoc, ← Int.add_assoc]
      exact later

end Run

/-- When the next request gets the same from both books whatever it asks, the grant before it was
charged exactly, or at least when it emptied the pool. -/
theorem charge_of_grant_eq {got charge : ℤ} (positive : 0 < got) (within : got ≤ size)
    (same : ∀ asked, 0 ≤ asked → grant (size - got) asked = grant (size - charge) asked) :
    got ≤ charge ∧ (got < size → charge = got) := by
  have large := same (max size (size - charge)) (by omega)
  unfold grant at large
  omega

end Drawdown
