import Mathlib.Tactic

/-!
# Decimal dates

A date written with a fixed number of digits for each field sorts as text like it sorts as a date.
This file defines fixed-width decimals, the text `year-month-day` and the text `hour:minute:second`,
and proves that the text of a date determines it and reads back, and that the lexicographic order of
either text is the order of what it stands for.
-/

namespace IsoDate

/-! ## Fixed-width decimals -/

/-- The last `width` decimal digits of a number. -/
def digits : ℕ → ℕ → List Char
  | 0, _ => []
  | width + 1, n => digits width (n / 10) ++ [Nat.digitChar (n % 10)]

/-- The number that a list of digits stands for. -/
def value (text : List Char) : ℕ := text.foldl (fun n c => 10 * n + (c.toNat - '0'.toNat)) 0

@[simp]
theorem length_digits (width n : ℕ) : (digits width n).length = width := by
  induction width generalizing n with
  | zero => rfl
  | succ width ih => simp [digits, ih]

theorem digitChar_facts : ∀ d < 10, (Nat.digitChar d).isDigit = true ∧
    (Nat.digitChar d).toNat - '0'.toNat = d ∧
    ∀ e < 10, Nat.digitChar d < Nat.digitChar e ↔ d < e := by
  decide

theorem isDigit_of_mem_digits {width n : ℕ} {c : Char} (member : c ∈ digits width n) :
    c.isDigit = true := by
  induction width generalizing n with
  | zero => cases member
  | succ width ih =>
      rcases List.mem_append.mp member with earlier | last
      · exact ih earlier
      · obtain rfl := List.mem_singleton.mp last
        exact (digitChar_facts (n % 10) (Nat.mod_lt n (by decide))).1

theorem value_digits {width n : ℕ} (fits : n < 10 ^ width) : value (digits width n) = n := by
  induction width generalizing n with
  | zero =>
      obtain rfl : n = 0 := by simpa using fits
      rfl
  | succ width ih =>
      have head : value (digits width (n / 10)) = n / 10 :=
        ih (Nat.div_lt_of_lt_mul (by rw [mul_comm, ← pow_succ]; exact fits))
      have last := (digitChar_facts (n % 10) (Nat.mod_lt n (by decide))).2.1
      rw [value] at head
      rw [value, digits, List.foldl_append, head, List.foldl_cons, List.foldl_nil, last]
      exact Nat.div_add_mod n 10

theorem digits_injective {width n m : ℕ} (n_fits : n < 10 ^ width) (m_fits : m < 10 ^ width)
    (same : digits width n = digits width m) : n = m := by
  rw [← value_digits n_fits, ← value_digits m_fits, same]

/-- Lists compare block by block. -/
theorem append_lt_append_iff {α : Type*} [LT α] {front front' back back' : List α}
    (same : front.length = front'.length) :
    front ++ back < front' ++ back' ↔ front < front' ∨ front = front' ∧ back < back' := by
  induction front generalizing front' with
  | nil =>
      obtain rfl : front' = [] := List.eq_nil_of_length_eq_zero same.symm
      simp
  | cons c front ih =>
      obtain ⟨c', front', rfl⟩ := List.exists_cons_of_length_eq_add_one same.symm
      rw [List.cons_append, List.cons_append, List.cons_lt_cons_iff, List.cons_lt_cons_iff,
        ih (Nat.succ.inj same), List.cons.injEq]
      tauto

/-- Decimals of one width sort like their numbers. -/
theorem digits_lt_iff {width n m : ℕ} (n_fits : n < 10 ^ width) (m_fits : m < 10 ^ width) :
    digits width n < digits width m ↔ n < m := by
  induction width generalizing n m with
  | zero =>
      obtain rfl : n = 0 := by simpa using n_fits
      obtain rfl : m = 0 := by simpa using m_fits
      simp [digits]
  | succ width ih =>
      have div_fits {k : ℕ} (fits : k < 10 ^ (width + 1)) : k / 10 < 10 ^ width :=
        Nat.div_lt_of_lt_mul (by rw [mul_comm, ← pow_succ]; exact fits)
      have last := (digitChar_facts (n % 10) (Nat.mod_lt n (by decide))).2.2 (m % 10)
        (Nat.mod_lt m (by decide))
      have head : digits width (n / 10) = digits width (m / 10) ↔ n / 10 = m / 10 :=
        ⟨digits_injective (div_fits n_fits) (div_fits m_fits), fun same => by rw [same]⟩
      rw [digits, digits, append_lt_append_iff (by simp), ih (div_fits n_fits) (div_fits m_fits),
        head, List.cons_lt_cons_iff, last]
      simp only [List.not_lt_nil, and_false, or_false]
      omega

/-- A number with exactly `width` digits is written with them. -/
theorem toDigits_eq_digits {width n : ℕ} (low : 10 ^ width ≤ n) (high : n < 10 ^ (width + 1)) :
    Nat.toDigits 10 n = digits (width + 1) n := by
  induction width generalizing n with
  | zero =>
      have lt : n < 10 := by simpa using high
      rw [Nat.toDigits_of_lt_base lt]
      simp [digits, Nat.mod_eq_of_lt lt]
  | succ width ih =>
      have head_low : 10 ^ width ≤ n / 10 :=
        (Nat.le_div_iff_mul_le (by decide)).mpr (by rw [← pow_succ]; exact low)
      have head_high : n / 10 < 10 ^ (width + 1) :=
        Nat.div_lt_of_lt_mul (by rw [mul_comm, ← pow_succ]; exact high)
      have head_pos : 0 < n / 10 := Nat.lt_of_lt_of_le (by positivity) head_low
      have last_lt : n % 10 < 10 := Nat.mod_lt n (by decide)
      have split := Nat.toDigits_append_toDigits (b := 10) (by decide) head_pos last_lt
      rw [Nat.div_add_mod] at split
      rw [← split, ih head_low head_high, Nat.toDigits_of_lt_base last_lt]
      rfl

/-! ## Dates -/

/-- The text of a date. -/
def text (year mon day : ℕ) : List Char :=
  digits 4 year ++ ('-' :: (digits 2 mon ++ ('-' :: digits 2 day)))

/-- The fields fit the digits of the text. -/
structure Fits (year mon day : ℕ) : Prop where
  year_lt : year < 10000
  mon_lt : mon < 100
  day_lt : day < 100

/-- A field sorts before what follows it. -/
theorem digits_append_lt_iff {width n m : ℕ} (separator : Char) (back back' : List Char)
    (n_fits : n < 10 ^ width) (m_fits : m < 10 ^ width) :
    digits width n ++ separator :: back < digits width m ++ separator :: back' ↔
      n < m ∨ n = m ∧ back < back' := by
  have field : digits width n = digits width m ↔ n = m :=
    ⟨digits_injective n_fits m_fits, fun same => by rw [same]⟩
  have same : ¬ separator < separator := Nat.lt_irrefl _
  rw [append_lt_append_iff (by simp), List.cons_lt_cons_iff, digits_lt_iff n_fits m_fits, field]
  simp only [same, false_or, true_and]

section Text

variable {year mon day year' mon' day' : ℕ}

theorem text_lt_iff (fits : Fits year mon day) (fits' : Fits year' mon' day') :
    text year mon day < text year' mon' day' ↔
      year < year' ∨ year = year' ∧ (mon < mon' ∨ mon = mon' ∧ day < day') := by
  rw [text, text, digits_append_lt_iff _ _ _ fits.year_lt fits'.year_lt,
    digits_append_lt_iff _ _ _ fits.mon_lt fits'.mon_lt, digits_lt_iff fits.day_lt fits'.day_lt]

theorem text_injective (fits : Fits year mon day) (fits' : Fits year' mon' day')
    (same : text year mon day = text year' mon' day') : (year, mon, day) = (year', mon', day') := by
  have lower := (text_lt_iff fits fits').not.mp (by rw [same]; exact List.lt_irrefl _)
  have upper := (text_lt_iff fits' fits).not.mp (by rw [same]; exact List.lt_irrefl _)
  simp only [Prod.mk.injEq]
  omega

end Text

/-- The text of a time of day. -/
def clock (hour min sec : ℕ) : List Char :=
  digits 2 hour ++ (':' :: (digits 2 min ++ (':' :: digits 2 sec)))

/-- Times of day sort as text like they sort as times. -/
theorem clock_lt_iff {hour min sec hour' min' sec' : ℕ} (hour_lt : hour < 100) (min_lt : min < 100)
    (sec_lt : sec < 100) (hour_lt' : hour' < 100) (min_lt' : min' < 100) (sec_lt' : sec' < 100) :
    clock hour min sec < clock hour' min' sec' ↔
      hour < hour' ∨ hour = hour' ∧ (min < min' ∨ min = min' ∧ sec < sec') := by
  rw [clock, clock, digits_append_lt_iff _ _ _ hour_lt hour_lt',
    digits_append_lt_iff _ _ _ min_lt min_lt', digits_lt_iff sec_lt sec_lt']

/-- Read a text of three numbers. -/
def parse (source : List Char) : Option (ℕ × ℕ × ℕ) :=
  match source.splitOn '-' with
  | [year, mon, day] =>
      if (year ++ mon ++ day).all Char.isDigit ∧ year ≠ [] ∧ mon ≠ [] ∧ day ≠ [] then
        some (value year, value mon, value day)
      else none
  | _ => none

/-- The text of a date reads back as the date. -/
theorem parse_text {year mon day : ℕ} (fits : Fits year mon day) :
    parse (text year mon day) = some (year, mon, day) := by
  have plain {width n : ℕ} : '-' ∉ digits width n :=
    fun member => absurd (isDigit_of_mem_digits member) (by decide)
  have split : (text year mon day).splitOn '-' = [digits 4 year, digits 2 mon, digits 2 day] := by
    have joined : text year mon day =
        ['-'].intercalate [digits 4 year, digits 2 mon, digits 2 day] := by
      simp [text, List.intercalate]
    rw [joined, List.splitOn_intercalate]
    · simp [plain]
    · simp
  have nonempty {width n : ℕ} (pos : 0 < width) : digits width n ≠ [] :=
    List.ne_nil_of_length_pos (by simpa using pos)
  have all_digits : (digits 4 year ++ digits 2 mon ++ digits 2 day).all Char.isDigit = true := by
    simp only [List.all_append, Bool.and_eq_true, List.all_eq_true]
    exact ⟨⟨fun _ => isDigit_of_mem_digits, fun _ => isDigit_of_mem_digits⟩,
      fun _ => isDigit_of_mem_digits⟩
  have year_eq : value (digits 4 year) = year := value_digits fits.year_lt
  have mon_eq : value (digits 2 mon) = mon := value_digits fits.mon_lt
  have day_eq : value (digits 2 day) = day := value_digits fits.day_lt
  simp only [parse, split, all_digits, nonempty (by decide : 0 < 4), nonempty (by decide : 0 < 2),
    ne_eq, not_false_eq_true, and_self, if_true, year_eq, mon_eq, day_eq]

end IsoDate
