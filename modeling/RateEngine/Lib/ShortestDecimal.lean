import Mathlib.Data.Int.Log
import Mathlib.Data.Rat.Floor
import Mathlib.Tactic.Linarith
import Mathlib.Tactic.Positivity

/-!
# Binary floats and their shortest decimals

A binary float of a precision is nearest to a decimal, and the decimal that a float is written as is
the shortest one that is read as it.  A decimal of few enough digits is the shortest of its float:
on the grid of its digits no other decimal is as near.
-/

namespace BinaryFloat

/-! ## Rounding -/

/-- The nearest integer; of two, the even one. -/
def nearestInt (q : ℚ) : ℤ :=
  if 2 * Int.fract q < 1 then ⌊q⌋
  else if 1 < 2 * Int.fract q then ⌊q⌋ + 1
  else 2 * ((⌊q⌋ + 1) / 2)

theorem abs_sub_nearestInt_le (q : ℚ) : |q - nearestInt q| ≤ 1 / 2 := by
  have split : (⌊q⌋ : ℚ) + Int.fract q = q := Int.floor_add_fract q
  have nonneg : 0 ≤ Int.fract q := Int.fract_nonneg q
  have below : Int.fract q < 1 := Int.fract_lt_one q
  unfold nearestInt
  split
  · rw [abs_le]
    constructor <;> linarith
  · split
    · rw [abs_le]
      push_cast
      constructor <;> linarith
    · have half : Int.fract q = 1 / 2 := by linarith
      rw [abs_le]
      have even : 2 * ((⌊q⌋ + 1) / 2) = ⌊q⌋ ∨ 2 * ((⌊q⌋ + 1) / 2) = ⌊q⌋ + 1 := by omega
      rcases even with down | up
      · rw [down]
        constructor <;> linarith
      · rw [up]
        push_cast
        constructor <;> linarith

theorem nearestInt_eq {q : ℚ} {n : ℤ} (near : |q - n| < 1 / 2) : nearestInt q = n := by
  have error := abs_sub_nearestInt_le q
  have close : |((nearestInt q - n : ℤ) : ℚ)| < 1 := by
    calc |((nearestInt q - n : ℤ) : ℚ)| = |(q - n) - (q - nearestInt q)| := by push_cast; ring_nf
      _ ≤ |q - n| + |q - nearestInt q| := abs_sub _ _
      _ < 1 := by linarith
  have zero : |nearestInt q - n| < 1 := by exact_mod_cast close
  have := Int.abs_lt_one_iff.mp zero
  omega

/-- The nearest multiple of a step. -/
def onGrid (step q : ℚ) : ℚ := nearestInt (q / step) * step

theorem abs_sub_onGrid_le {step : ℚ} (positive : 0 < step) (q : ℚ) :
    |q - onGrid step q| ≤ step / 2 := by
  have scaled : q - onGrid step q = (q / step - nearestInt (q / step)) * step := by
    rw [onGrid, sub_mul, div_mul_cancel₀ q positive.ne']
  rw [scaled, abs_mul, abs_of_pos positive]
  have error := abs_sub_nearestInt_le (q / step)
  nlinarith

/-- A multiple of the step that is near enough. -/
theorem onGrid_eq {step q : ℚ} (positive : 0 < step) {n : ℤ} (near : |q - n * step| < step / 2) :
    onGrid step q = n * step := by
  have scaled : |q / step - n| < 1 / 2 := by
    have split : q / step - n = (q - n * step) / step := by
      rw [sub_div, mul_div_cancel_right₀ _ positive.ne']
    rw [split, abs_div, abs_of_pos positive, div_lt_iff₀ positive]
    linarith
  rw [onGrid, nearestInt_eq scaled]

/-- A number above a multiple of the step does not come below it. -/
theorem le_abs_onGrid {step q : ℚ} (positive : 0 < step) {n : ℤ} (above : n * step ≤ |q|) :
    n * step ≤ |onGrid step q| := by
  have error := abs_sub_onGrid_le positive q
  by_contra below
  have size : |onGrid step q| = |(nearestInt (q / step) : ℚ)| * step := by
    rw [onGrid, abs_mul, abs_of_pos positive]
  have fewer : |nearestInt (q / step)| < n := by
    rw [not_le, size, mul_lt_mul_iff_left₀ positive] at below
    exact_mod_cast below
  have fewer : |(nearestInt (q / step) : ℚ)| ≤ n - 1 := by
    exact_mod_cast Int.le_sub_one_of_lt fewer
  have bound : |q| ≤ |onGrid step q| + |q - onGrid step q| := by
    calc |q| = |onGrid step q + (q - onGrid step q)| := by rw [add_sub_cancel]
      _ ≤ |onGrid step q| + |q - onGrid step q| := abs_add_le _ _
  rw [size] at bound
  nlinarith

@[simp]
theorem onGrid_zero (step : ℚ) : onGrid step 0 = 0 := by
  rw [onGrid, zero_div, nearestInt_eq (n := 0) (by norm_num), Int.cast_zero, zero_mul]

/-! ## Floats -/

variable (precision : ℕ) (least : ℤ)

/-- The weight of the last binary place of the float nearest to a number. -/
def place (q : ℚ) : ℤ := max (Int.log 2 |q| + 1 - precision) least

/-- The float nearest to a number, without a largest one. -/
def nearest (q : ℚ) : ℚ := onGrid (2 ^ place precision least q) q

/-- The least normal float. -/
def leastNormal : ℚ := 2 ^ (least + precision - 1)

@[simp]
theorem nearest_zero : nearest precision least 0 = 0 := onGrid_zero _

theorem abs_sub_nearest_le (q : ℚ) :
    |q - nearest precision least q| ≤ max |q| (leastNormal precision least) / 2 ^ precision := by
  rcases eq_or_ne q 0 with rfl | nonzero
  · rw [nearest_zero, sub_zero, abs_zero]
    exact div_nonneg (le_max_left _ _) (by positivity)
  refine (abs_sub_onGrid_le (zpow_pos two_pos _) q).trans ?_
  rw [le_div_iff₀ (by positivity)]
  have half : (2 : ℚ) ^ place precision least q / 2 * 2 ^ precision =
      2 ^ (place precision least q + precision - 1) := by
    rw [zpow_sub₀ two_ne_zero, zpow_add₀ two_ne_zero, zpow_natCast, zpow_one]
    ring
  rw [half]
  rcases le_total (Int.log 2 |q| + 1 - precision) least with small | normal
  · rw [place, max_eq_right small]
    exact le_max_right _ _
  · refine le_trans ?_ (le_max_left _ _)
    have exponent : Int.log 2 |q| + 1 - precision + precision - 1 = Int.log 2 |q| := by ring
    rw [place, max_eq_left normal, exponent]
    exact_mod_cast Int.zpow_log_le_self one_lt_two (abs_pos.mpr nonzero)

variable {precision least}

theorem leastNormal_pos : 0 < leastNormal precision least := zpow_pos two_pos _

/-- What is read as a normal float is near to it. -/
theorem abs_sub_nearest_le_of_normal (precise : 1 ≤ precision) {q : ℚ}
    (normal : leastNormal precision least ≤ |nearest precision least q|) :
    |q - nearest precision least q| ≤ |nearest precision least q| * (2 / 2 ^ precision) := by
  have error := abs_sub_nearest_le precision least q
  set x := nearest precision least q
  have fine : (2 : ℚ) ≤ 2 ^ precision := by
    calc (2 : ℚ) = 2 ^ 1 := (pow_one 2).symm
      _ ≤ 2 ^ precision := pow_le_pow_right₀ one_le_two precise
  have positive : (0 : ℚ) < 2 ^ precision := by positivity
  rw [le_div_iff₀ positive] at error
  rw [← mul_div_assoc, le_div_iff₀ positive]
  rcases max_cases |q| (leastNormal precision least) with ⟨large, -⟩ | ⟨small, -⟩
  · rw [large] at error
    have bound : |q| ≤ |x| + |q - x| := by
      calc |q| = |x + (q - x)| := by rw [add_sub_cancel]
        _ ≤ |x| + |q - x| := abs_add_le _ _
    have nonneg := abs_nonneg (q - x)
    nlinarith
  · rw [small] at error
    have nonneg := abs_nonneg x
    linarith

/-- A number of normal size is read as a normal float. -/
theorem leastNormal_le_abs_nearest (precise : 1 ≤ precision) {q : ℚ}
    (large : leastNormal precision least ≤ |q|) :
    leastNormal precision least ≤ |nearest precision least q| := by
  have top (last : ℤ) :
      ((2 ^ (precision - 1) : ℤ) : ℚ) * 2 ^ last = 2 ^ (last + precision - 1) := by
    rw [Int.cast_pow, Int.cast_ofNat, ← zpow_natCast, ← zpow_add₀ two_ne_zero, Nat.cast_sub precise]
    congr 1
    push_cast
    ring
  have above : ((2 ^ (precision - 1) : ℤ) : ℚ) * 2 ^ place precision least q ≤ |q| := by
    rw [top, place]
    rcases max_cases (Int.log 2 |q| + 1 - precision) least with ⟨normal, -⟩ | ⟨small, -⟩
    · have exponent : Int.log 2 |q| + 1 - precision + precision - 1 = Int.log 2 |q| := by ring
      rw [normal, exponent]
      exact_mod_cast Int.zpow_log_le_self one_lt_two (leastNormal_pos.trans_le large)
    · rw [small]
      exact large
  refine le_trans ?_ (le_abs_onGrid (zpow_pos two_pos _) above)
  rw [top]
  exact zpow_le_zpow_right₀ one_le_two (by rw [place]; omega)

/-- A number that is below a power of two by half a place is read as a float below it. -/
theorem abs_nearest_lt {q : ℚ} {top : ℤ} (wide : least + precision ≤ top)
    (below : |q| < 2 ^ top - 2 ^ (top - precision - 1)) :
    |nearest precision least q| < 2 ^ top := by
  rcases eq_or_ne q 0 with rfl | nonzero
  · rw [nearest_zero, abs_zero]
    exact zpow_pos two_pos _
  have half_pos : (0 : ℚ) < 2 ^ (top - precision - 1) := zpow_pos two_pos _
  have log_lt : Int.log 2 |q| < top := by
    refine (Int.lt_zpow_iff_log_lt one_lt_two (abs_pos.mpr nonzero)).mp ?_
    push_cast
    linarith
  have last : place precision least q ≤ top - precision := by
    rw [place]
    omega
  have error : |q - nearest precision least q| ≤ 2 ^ (top - precision - 1) := by
    refine (abs_sub_onGrid_le (zpow_pos two_pos _) q).trans ?_
    rw [zpow_sub_one₀ two_ne_zero, ← div_eq_mul_inv]
    exact div_le_div_of_nonneg_right (zpow_le_zpow_right₀ one_le_two last) two_pos.le
  set x := nearest precision least q
  calc |x| = |q - (q - x)| := by rw [sub_sub_cancel]
    _ ≤ |q| + |q - x| := abs_sub _ _
    _ < 2 ^ top := by linarith

/-! ## Decimals -/

/-- A decimal of at most so many digits. -/
def Decimal (digits : ℕ) (q : ℚ) : Prop := ∃ m e : ℤ, |m| < 10 ^ digits ∧ q = m * (10 : ℚ) ^ e

/-- The weight of the last of so many digits of a number. -/
def decimalStep (digits : ℕ) (x : ℚ) : ℚ := 10 ^ (Int.log 10 |x| + 1 - digits)

/-- The decimals of so many digits next to a number, the nearest one first. -/
def neighbours (digits : ℕ) (x : ℚ) : List ℚ :=
  [onGrid (decimalStep digits x) x, ⌊x / decimalStep digits x⌋ * decimalStep digits x,
    ⌈x / decimalStep digits x⌉ * decimalStep digits x]

section Grid

variable {digits : ℕ} {x : ℚ}

theorem decimalStep_pos : 0 < decimalStep digits x := zpow_pos (by norm_num) _

theorem abs_lt_decimalStep (digits : ℕ) (x : ℚ) : |x| < 10 ^ digits * decimalStep digits x := by
  have below : |x| < ((10 : ℕ) : ℚ) ^ (Int.log 10 |x| + 1) :=
    Int.lt_zpow_succ_log_self (by norm_num) |x|
  rw [decimalStep, ← zpow_natCast, ← zpow_add₀ (by norm_num)]
  have exponent : (digits : ℤ) + (Int.log 10 |x| + 1 - digits) = Int.log 10 |x| + 1 := by ring
  rw [exponent]
  exact_mod_cast below

/-- What is near a float is within half a step of it. -/
theorem near_of_abs_sub_le (fine : 4 * (10 : ℚ) ^ digits ≤ 2 ^ precision) {q : ℚ}
    (near : |q - x| ≤ |x| * (2 / 2 ^ precision)) : |q - x| < decimalStep digits x / 2 := by
  have below := abs_lt_decimalStep digits x
  have positive : (0 : ℚ) < 2 ^ precision := by positivity
  have step_pos : 0 < decimalStep digits x := decimalStep_pos
  refine near.trans_lt ?_
  rw [← mul_div_assoc, div_lt_iff₀ positive]
  nlinarith

/-- Decimals of few digits near a float are on the grid of its digits. -/
theorem Decimal.exists_mul_step (fine : 4 * (10 : ℚ) ^ digits ≤ 2 ^ precision) (nonzero : x ≠ 0)
    {d : ℚ} (decimal : Decimal digits d) (near : |d - x| ≤ |x| * (2 / 2 ^ precision)) :
    ∃ b : ℤ, d = b * decimalStep digits x := by
  obtain ⟨m, e, few, rfl⟩ := decimal
  rcases le_or_gt (Int.log 10 |x| + 1 - digits) e with above | below
  · obtain ⟨k, shift⟩ := Int.le.dest above
    refine ⟨m * 10 ^ k, ?_⟩
    rw [decimalStep, ← shift, zpow_add₀ (by norm_num), zpow_natCast]
    push_cast
    ring
  · -- a decimal below the grid is smaller than every float of the size, and too far from it
    exfalso
    have size : 0 < |x| := abs_pos.mpr nonzero
    have few : |(m : ℚ)| ≤ 10 ^ digits - 1 := by
      have integral : |m| ≤ 10 ^ digits - 1 := by omega
      exact_mod_cast integral
    have lower : (10 : ℚ) ^ digits * 10 ^ e ≤ |x| := by
      have power : ((10 : ℕ) : ℚ) ^ Int.log 10 |x| ≤ |x| :=
        Int.zpow_log_le_self (by norm_num) size
      refine le_trans ?_ (by exact_mod_cast power)
      rw [← zpow_natCast, ← zpow_add₀ (by norm_num)]
      exact zpow_le_zpow_right₀ (by norm_num) (by omega)
    have weight : (0 : ℚ) < 10 ^ e := zpow_pos (by norm_num) _
    have small : |(m : ℚ) * 10 ^ e| ≤ (10 ^ digits - 1) * 10 ^ e := by
      rw [abs_mul, abs_of_pos weight]
      exact mul_le_mul_of_nonneg_right few weight.le
    have apart : |x| - |(m : ℚ) * 10 ^ e| ≤ |m * 10 ^ e - x| := by
      rw [abs_sub_comm]
      exact abs_sub_abs_le_abs_sub _ _
    have positive : (0 : ℚ) < 2 ^ precision := by positivity
    rw [← mul_div_assoc, le_div_iff₀ positive] at near
    have tens : (1 : ℚ) ≤ 10 ^ digits := one_le_pow₀ (by norm_num)
    have gap : |x| ≤ (10 : ℚ) ^ digits * (|x| - |(m : ℚ) * 10 ^ e|) := by nlinarith
    nlinarith

/-- Two multiples of the step near one float are equal. -/
theorem eq_of_near_of_mul_step {a b : ℤ}
    (near : |a * decimalStep digits x - x| < decimalStep digits x / 2)
    (near' : |b * decimalStep digits x - x| < decimalStep digits x / 2) : a = b := by
  have step_pos : 0 < decimalStep digits x := decimalStep_pos
  have close : |(a - b : ℚ)| * decimalStep digits x < decimalStep digits x := by
    calc |(a - b : ℚ)| * decimalStep digits x
        = |(a * decimalStep digits x - x) - (b * decimalStep digits x - x)| := by
          rw [← abs_of_pos step_pos, ← abs_mul, abs_of_pos step_pos]
          ring_nf
      _ ≤ |a * decimalStep digits x - x| + |b * decimalStep digits x - x| := abs_sub _ _
      _ < decimalStep digits x := by linarith
  have zero : |((a - b : ℤ) : ℚ)| < 1 := by
    push_cast
    nlinarith
  have := Int.abs_lt_one_iff.mp (by exact_mod_cast zero : |a - b| < 1)
  omega

/-- Neighbours of fewer digits are on the grid. -/
theorem exists_mul_step_of_mem_neighbours {k : ℕ} (fewer : k ≤ digits) {q : ℚ}
    (member : q ∈ neighbours k x) : ∃ a : ℤ, q = a * decimalStep digits x := by
  obtain ⟨j, rfl⟩ := Nat.exists_eq_add_of_le fewer
  have step : decimalStep k x = (10 ^ j : ℤ) * decimalStep (k + j) x := by
    rw [decimalStep, decimalStep]
    push_cast
    rw [← zpow_natCast, ← zpow_add₀ (by norm_num)]
    congr 1
    ring
  have on_grid (n : ℤ) : ∃ a : ℤ, n * decimalStep k x = a * decimalStep (k + j) x :=
    ⟨n * 10 ^ j, by rw [step]; push_cast; ring⟩
  simp only [neighbours, List.mem_cons, List.not_mem_nil, or_false] at member
  rcases member with rfl | rfl | rfl
  · exact on_grid _
  · exact on_grid _
  · exact on_grid _

end Grid

variable (precision least)

/-- The shortest decimal that is read as a float; of two, the nearer one. -/
def shortest (digits : ℕ) (x : ℚ) : ℚ :=
  (((List.range digits).flatMap fun k => neighbours (k + 1) x).find? fun q =>
    nearest precision least q = x).getD x

variable {precision least}

/-- A decimal of few digits and of normal size is the shortest one of its float. -/
theorem shortest_nearest {digits written : ℕ} (one : 1 ≤ digits) (enough : digits ≤ written)
    (fine : 4 * (10 : ℚ) ^ digits ≤ 2 ^ precision) {d : ℚ} (decimal : Decimal digits d)
    (large : leastNormal precision least ≤ |d|) :
    shortest precision least written (nearest precision least d) = d := by
  have precise : 1 ≤ precision := by
    by_contra none
    have zero : precision = 0 := by omega
    have tens : (1 : ℚ) ≤ 10 ^ digits := one_le_pow₀ (by norm_num)
    rw [zero] at fine
    linarith
  have normal : leastNormal precision least ≤ |nearest precision least d| :=
    leastNormal_le_abs_nearest precise large
  have near := abs_sub_nearest_le_of_normal precise normal
  set x := nearest precision least d with x_eq
  have nonzero : x ≠ 0 := abs_pos.mp (leastNormal_pos.trans_le normal)
  obtain ⟨b, d_eq⟩ := decimal.exists_mul_step fine nonzero near
  have d_near : |b * decimalStep digits x - x| < decimalStep digits x / 2 :=
    d_eq ▸ near_of_abs_sub_le fine near
  -- the decimals of so few digits that are read as the float are the given one
  have only {k : ℕ} (fewer : k ≤ digits) {q : ℚ} (member : q ∈ neighbours k x)
      (read : nearest precision least q = x) : q = d := by
    obtain ⟨a, rfl⟩ := exists_mul_step_of_mem_neighbours fewer member
    have q_near := abs_sub_nearest_le_of_normal precise (read.symm ▸ normal)
    rw [read] at q_near
    rw [d_eq, eq_of_near_of_mul_step (near_of_abs_sub_le fine q_near) d_near]
  have own : d ∈ neighbours digits x := by
    have nearest_eq : onGrid (decimalStep digits x) x = b * decimalStep digits x :=
      onGrid_eq decimalStep_pos (by rw [abs_sub_comm]; exact d_near)
    rw [neighbours, nearest_eq, ← d_eq]
    exact List.mem_cons_self
  obtain ⟨rest, split⟩ := Nat.exists_eq_add_of_le enough
  have there : (((List.range digits).flatMap fun k => neighbours (k + 1) x).find? fun q =>
      nearest precision least q = x).isSome := by
    rw [List.find?_isSome]
    refine ⟨d, List.mem_flatMap.mpr ⟨digits - 1, List.mem_range.mpr (by omega), ?_⟩, by simp [x_eq]⟩
    rwa [Nat.sub_add_cancel one]
  obtain ⟨q, found⟩ := Option.isSome_iff_exists.mp there
  have q_eq : q = d := by
    obtain ⟨k, k_mem, member⟩ := List.mem_flatMap.mp (List.mem_of_find?_eq_some found)
    exact only (List.mem_range.mp k_mem) member (by simpa using List.find?_some found)
  rw [shortest, split, List.range_add, List.flatMap_append, List.find?_append, found, q_eq]
  rfl

@[simp]
theorem shortest_zero (written : ℕ) : shortest precision least written 0 = 0 := by
  have all_zero (k : ℕ) {q : ℚ} (member : q ∈ neighbours k 0) : q = 0 := by
    simpa [neighbours] using member
  rw [shortest]
  cases found : ((List.range written).flatMap fun k => neighbours (k + 1) 0).find? fun q =>
      nearest precision least q = 0 with
  | none => rfl
  | some q =>
      obtain ⟨k, -, member⟩ := List.mem_flatMap.mp (List.mem_of_find?_eq_some found)
      exact all_zero _ member

/-- A number below half of the least float is read as zero. -/
theorem nearest_eq_zero {q : ℚ} (tiny : |q| < 2 ^ least / 2) : nearest precision least q = 0 := by
  rcases eq_or_ne q 0 with rfl | nonzero
  · exact nearest_zero precision least
  have below : Int.log 2 |q| < least := by
    refine (Int.lt_zpow_iff_log_lt one_lt_two (abs_pos.mpr nonzero)).mp ?_
    have positive : (0 : ℚ) < 2 ^ least := zpow_pos two_pos _
    push_cast
    linarith
  have last : place precision least q = least := max_eq_right (by omega)
  have onto_zero : onGrid (2 ^ least) q = ((0 : ℤ) : ℚ) * 2 ^ least :=
    onGrid_eq (zpow_pos two_pos _) (by simpa using tiny)
  rw [nearest, last, onto_zero, Int.cast_zero, zero_mul]

end BinaryFloat
