import Mathlib.Algebra.Order.Floor.Ring
import Mathlib.Data.Rat.Floor
import Mathlib.Tactic

/-!
# Block tariffs

A block tariff sells seconds in whole units.  Its blocks are used in order: each block has a unit
length, a unit fee, and either a bound on the number of units it sells or none.  This file defines
the price of a span of seconds and the span a sum of money reaches, and proves that the two are
adjoint on tariffs with positive fees and an unbounded block.
-/

namespace BlockTariff

/-! ## Whole units -/

/-- The whole units of length `size` that cover `span`. -/
def ceilDiv (span size : ℤ) : ℤ := ⌈(span : ℚ) / size⌉

section CeilDiv

variable {span size : ℤ}

theorem ceilDiv_le_iff (size_pos : 0 < size) {units : ℤ} :
    ceilDiv span size ≤ units ↔ span ≤ units * size := by
  have size_cast : (0 : ℚ) < size := by exact_mod_cast size_pos
  rw [ceilDiv, Int.ceil_le, div_le_iff₀ size_cast]
  exact_mod_cast Iff.rfl

theorem lt_ceilDiv_iff (size_pos : 0 < size) {units : ℤ} :
    units < ceilDiv span size ↔ units * size < span := by
  rw [← not_le, ceilDiv_le_iff size_pos, not_le]

theorem le_ceilDiv_mul (size_pos : 0 < size) : span ≤ ceilDiv span size * size :=
  (ceilDiv_le_iff size_pos).mp le_rfl

theorem ceilDiv_eq_iff (size_pos : 0 < size) {units : ℤ} :
    ceilDiv span size = units ↔ (units - 1) * size < span ∧ span ≤ units * size := by
  rw [← lt_ceilDiv_iff size_pos, ← ceilDiv_le_iff size_pos]
  omega

theorem ceilDiv_pos_iff (size_pos : 0 < size) : 0 < ceilDiv span size ↔ 0 < span := by
  rw [lt_ceilDiv_iff size_pos, zero_mul]

theorem ceilDiv_mul_self (size_pos : 0 < size) (units : ℤ) :
    ceilDiv (units * size) size = units := by
  rw [ceilDiv_eq_iff size_pos]
  exact ⟨by linarith [sub_mul units 1 size], le_rfl⟩

theorem ceilDiv_neg (size_pos : 0 < size) (excess : ℤ) :
    ceilDiv (-excess) size = -(excess / size) := by
  rw [ceilDiv_eq_iff size_pos]
  have split : size * (excess / size) + excess % size = excess :=
    Int.mul_ediv_add_emod excess size
  have rest_nonneg : 0 ≤ excess % size := Int.emod_nonneg excess size_pos.ne'
  have rest_lt : excess % size < size := Int.emod_lt_of_pos excess size_pos
  constructor <;> nlinarith

end CeilDiv

/-! ## Blocks and prices -/

/-- One block of a tariff: units of `size` seconds at `fee`, at most `count` of them. -/
structure Block (K : Type*) [Zero K] [LE K] where
  /-- Seconds in one unit. -/
  size : ℤ
  /-- Price of one unit. -/
  fee : K
  /-- Units the block sells, or `none` when it is unbounded. -/
  count : Option ℤ
  size_pos : 0 < size
  fee_nonneg : 0 ≤ fee
  count_pos : ∀ units ∈ count, 0 < units

namespace Block

variable {K : Type*} [Zero K] [LE K]

/-- The part of `span` that is sold by the block. -/
def covered (block : Block K) (span : ℤ) : ℤ :=
  match block.count with
  | none => span
  | some units => min span (units * block.size)

/-- The units the block charges for a call with `span` seconds left. -/
def charged (block : Block K) (span : ℤ) : ℤ := ceilDiv (block.covered span) block.size

theorem covered_pos (block : Block K) {span : ℤ} (span_pos : 0 < span) :
    0 < block.covered span := by
  unfold covered
  split
  · exact span_pos
  · rename_i units count_eq
    exact lt_min span_pos (mul_pos (block.count_pos units count_eq) block.size_pos)

end Block

section Price

variable {K : Type*} [CommRing K] [LinearOrder K]

/-- The price of `span` seconds: each block charges whole units while seconds remain. -/
def price : List (Block K) → ℤ → K
  | [], _ => 0
  | block :: rest, span =>
      if span ≤ 0 then 0
      else block.charged span * block.fee + price rest (span - block.covered span)

theorem price_of_nonpos (blocks : List (Block K)) {span : ℤ} (span_le : span ≤ 0) :
    price blocks span = 0 := by
  cases blocks with
  | nil => rfl
  | cons block rest => simp [price, span_le]

variable [IsStrictOrderedRing K]

theorem Block.charged_mul_fee_nonneg (block : Block K) {span : ℤ} (span_pos : 0 < span) :
    0 ≤ (block.charged span : K) * block.fee := by
  have charged_pos : 0 < block.charged span :=
    (ceilDiv_pos_iff block.size_pos).mpr (block.covered_pos span_pos)
  exact mul_nonneg (by exact_mod_cast charged_pos.le) block.fee_nonneg

theorem price_nonneg (blocks : List (Block K)) (span : ℤ) : 0 ≤ price blocks span := by
  induction blocks generalizing span with
  | nil => exact le_rfl
  | cons block rest ih =>
      by_cases span_le : span ≤ 0
      · simp [price, span_le]
      · simp only [price, span_le, if_false]
        exact add_nonneg (block.charged_mul_fee_nonneg (not_le.mp span_le)) (ih _)

end Price

/-! ## The span that a sum of money reaches -/

section Reach

variable {K : Type*} [Field K] [LinearOrder K]

/-- The seconds that `money` pays for, block by block, up to the first unit it cannot pay. -/
def reach [FloorRing K] : List (Block K) → K → ℤ
  | [], _ => 0
  | block :: rest, money =>
      match block.count with
      | none => ⌊money / block.fee⌋ * block.size
      | some units =>
          if units ≤ ⌊money / block.fee⌋ then
            units * block.size + reach rest (money - units * block.fee)
          else ⌊money / block.fee⌋ * block.size

/-- Some block of the tariff sells without bound. -/
def Unbounded (blocks : List (Block K)) : Prop := ∃ block ∈ blocks, block.count = none

theorem Unbounded.tail {block : Block K} {rest : List (Block K)}
    (unbounded : Unbounded (block :: rest)) (bounded : block.count ≠ none) : Unbounded rest := by
  obtain ⟨found, member, found_none⟩ := unbounded
  rcases List.mem_cons.mp member with rfl | member
  · exact (bounded found_none).elim
  · exact ⟨found, member, found_none⟩

variable [FloorRing K] [IsStrictOrderedRing K]

theorem le_floor_div_iff {fee money : K} (fee_pos : 0 < fee) {units : ℤ} :
    units ≤ ⌊money / fee⌋ ↔ (units : K) * fee ≤ money := by
  rw [Int.le_floor, le_div_iff₀ fee_pos]

theorem floor_div_nonneg {fee money : K} (fee_pos : 0 < fee) (money_nonneg : 0 ≤ money) :
    0 ≤ ⌊money / fee⌋ :=
  Int.floor_nonneg.mpr (div_nonneg money_nonneg fee_pos.le)

theorem reach_nonneg (blocks : List (Block K)) (fees_pos : ∀ block ∈ blocks, 0 < block.fee)
    {money : K} (money_nonneg : 0 ≤ money) : 0 ≤ reach blocks money := by
  induction blocks generalizing money with
  | nil => exact le_rfl
  | cons block rest ih =>
      have fee_pos : 0 < block.fee := fees_pos block List.mem_cons_self
      have partial_nonneg : 0 ≤ ⌊money / block.fee⌋ * block.size :=
        mul_nonneg (floor_div_nonneg fee_pos money_nonneg) block.size_pos.le
      unfold reach
      split
      · exact partial_nonneg
      · rename_i units count_eq
        split
        · rename_i affordable
          have paid : (units : K) * block.fee ≤ money := (le_floor_div_iff fee_pos).mp affordable
          have full_nonneg : 0 ≤ units * block.size :=
            mul_nonneg (block.count_pos units count_eq).le block.size_pos.le
          have rest_nonneg : 0 ≤ reach rest (money - units * block.fee) :=
            ih (fun other member => fees_pos other (List.mem_cons_of_mem _ member))
              (sub_nonneg.mpr paid)
          omega
        · exact partial_nonneg

/-- Money pays for a span exactly when the span is within its reach. -/
theorem price_le_iff (blocks : List (Block K)) (fees_pos : ∀ block ∈ blocks, 0 < block.fee)
    (unbounded : Unbounded blocks) {money : K} (money_nonneg : 0 ≤ money) (span : ℤ) :
    price blocks span ≤ money ↔ span ≤ reach blocks money := by
  induction blocks generalizing money span with
  | nil => simp [Unbounded] at unbounded
  | cons block rest ih =>
      by_cases exhausted : span ≤ 0
      · have reach_nonneg := reach_nonneg (block :: rest) fees_pos money_nonneg
        rw [price_of_nonpos _ exhausted]
        exact ⟨fun _ => exhausted.trans reach_nonneg, fun _ => money_nonneg⟩
      have fee_pos : 0 < block.fee := fees_pos block List.mem_cons_self
      have within :
          (ceilDiv span block.size : K) * block.fee ≤ money ↔
            span ≤ ⌊money / block.fee⌋ * block.size := by
        rw [← le_floor_div_iff fee_pos, ceilDiv_le_iff block.size_pos]
      cases count_eq : block.count with
      | none =>
        simp only [price, exhausted, if_false, reach, Block.charged, Block.covered, count_eq]
        rw [sub_self, price_of_nonpos _ le_rfl, add_zero]
        exact within
      | some units =>
        simp only [price, exhausted, if_false, reach, Block.charged, Block.covered, count_eq]
        have units_pos : 0 < units := block.count_pos units count_eq
        have rest_unbounded : Unbounded rest := unbounded.tail (by simp [count_eq])
        by_cases inside : span ≤ units * block.size
        · have rest_free : price rest (span - min span (units * block.size)) = 0 :=
            price_of_nonpos _ (by rw [min_eq_left inside, sub_self])
          rw [rest_free, min_eq_left inside, add_zero, within]
          split
          · rename_i affordable
            have rest_nonneg : 0 ≤ reach rest (money - units * block.fee) :=
              reach_nonneg rest
                (fun other member => fees_pos other (List.mem_cons_of_mem _ member))
                (sub_nonneg.mpr ((le_floor_div_iff fee_pos).mp affordable))
            have scaled : units * block.size ≤ ⌊money / block.fee⌋ * block.size :=
              mul_le_mul_of_nonneg_right affordable block.size_pos.le
            exact ⟨fun _ => by omega, fun _ => by omega⟩
          · exact Iff.rfl
        · rw [min_eq_right (not_le.mp inside).le, ceilDiv_mul_self block.size_pos]
          split
          · rename_i affordable
            rw [← le_sub_iff_add_le', ih
              (fun other member => fees_pos other (List.mem_cons_of_mem _ member)) rest_unbounded
              (sub_nonneg.mpr ((le_floor_div_iff fee_pos).mp affordable)), sub_le_iff_le_add']
          · rename_i unaffordable
            have dear : money < (units : K) * block.fee := by
              rwa [le_floor_div_iff fee_pos, not_le] at unaffordable
            have rest_price_nonneg := price_nonneg rest (span - units * block.size)
            have short : ⌊money / block.fee⌋ * block.size ≤ units * block.size :=
              mul_le_mul_of_nonneg_right (not_le.mp unaffordable).le block.size_pos.le
            constructor
            · intro paid
              linarith
            · intro reached
              omega

end Reach

end BlockTariff
