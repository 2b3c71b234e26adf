import RateEngine.BalancePeriod

/-!
# Billing windows

`pcard_manager` gives a credit card a window around the date of the call: from the billing day of
one month to the billing day of the next.  The day is put into the text of the month whether the
month has it or not, and the windows are compared as text.  This file proves that they still follow
each other over the calendar, and says which card of a list is picked.
-/

namespace RateEngine

/-! ## Months in a row -/

/-- The number of a month; the next month has the next number. -/
def monthNumber (month : ℕ × ℕ) : ℕ := 12 * month.1 + month.2

theorem monthNumber_nextMonth (month : ℕ × ℕ) :
    monthNumber (nextMonth month) = monthNumber month + 1 := by
  obtain ⟨year, mon⟩ := month
  rw [nextMonth, monthNumber, monthNumber]
  split
  · rename_i last
    subst last
    ring
  · ring

section Months

variable {month month' : ℕ × ℕ}

theorem monthNumber_lt_iff (low : 1 ≤ month.2) (high : month.2 ≤ 12) (low' : 1 ≤ month'.2)
    (high' : month'.2 ≤ 12) : monthNumber month < monthNumber month' ↔
      month.1 < month'.1 ∨ month.1 = month'.1 ∧ month.2 < month'.2 := by
  rw [monthNumber, monthNumber]
  omega

theorem monthNumber_injective (low : 1 ≤ month.2) (high : month.2 ≤ 12) (low' : 1 ≤ month'.2)
    (high' : month'.2 ≤ 12) (same : monthNumber month = monthNumber month') : month = month' := by
  rw [monthNumber, monthNumber] at same
  refine Prod.ext ?_ ?_ <;> omega

/-- The window of a date before the billing day starts in the month before. -/
theorem monthNumber_windowMonth (bday : ℕ) {year mon day : ℕ} (year_pos : 1 ≤ year)
    (low : 1 ≤ mon) : monthNumber (windowMonth bday (year, mon, day)) =
      if bday ≤ day then monthNumber (year, mon) else monthNumber (year, mon) - 1 := by
  rw [windowMonth]
  split
  · rfl
  · rw [prevMonth, monthNumber, monthNumber]
    split
    · simp only
      omega
    · simp only
      omega

end Months

/-! ## Dates against windows -/

/-- A date whose window has years of four digits: not in December 9999 from the billing day on, and
not in January 1000 before it. -/
structure Tm.HasWindow (bday : ℕ) (tm : Tm) : Prop extends tm.IsValid where
  not_last : tm.year = 9999 → tm.mon = 12 → tm.mday < bday
  not_first : tm.year = 1000 → tm.mon = 1 → bday ≤ tm.mday

namespace Tm.IsValid

variable {tm : Tm} (valid : tm.IsValid) {bday : ℕ}
include valid

/-- The number of the month in which the window of a date starts. -/
theorem windowNumber : monthNumber (windowMonth bday tm.castDate) =
    if bday ≤ tm.mday.toNat then monthNumber (tm.year.toNat, tm.mon.toNat)
    else monthNumber (tm.year.toNat, tm.mon.toNat) - 1 := by
  have year_ge := valid.year_ge
  exact monthNumber_windowMonth bday (by omega) valid.date.1

/-- A date is before the billing day of a month when its window starts before the month. -/
theorem date_lt_iff {month : ℕ × ℕ} (low : 1 ≤ month.2) (high : month.2 ≤ 12)
    (year_lt : month.1 < 10000) (bday_lt : bday < 100) {text : String}
    (text_eq : text.toList = IsoDate.text month.1 month.2 bday) :
    tm.date < text ↔ monthNumber (windowMonth bday tm.castDate) < monthNumber month := by
  obtain ⟨mon_ge, mon_le, day_ge, -⟩ := valid.date
  have year_ge := valid.year_ge
  rw [String.lt_iff, valid.date_toList, text_eq, IsoDate.text_lt_iff valid.fits
    ⟨year_lt, by omega, bday_lt⟩, valid.windowNumber, monthNumber, monthNumber]
  split <;> omega

/-- Later dates have later windows. -/
theorem windowNumber_mono {tm' : Tm} (valid' : tm'.IsValid)
    (before : DateLt tm.castDate tm'.castDate) :
    monthNumber (windowMonth bday tm.castDate) ≤ monthNumber (windowMonth bday tm'.castDate) := by
  obtain ⟨mon_ge, mon_le, -, -⟩ := valid.date
  obtain ⟨mon_ge', mon_le', -, -⟩ := valid'.date
  rw [valid.windowNumber, valid'.windowNumber, monthNumber, monthNumber]
  rw [castDate, castDate, DateLt] at before
  split <;> split <;> omega

end Tm.IsValid

namespace Tm.HasWindow

variable {bday : ℕ} {tm tm' : Tm} (has : tm.HasWindow bday) (has' : tm'.HasWindow bday)
include has

/-- The months of the window have years of four digits. -/
theorem years : 1000 ≤ (windowMonth bday tm.castDate).1 ∧
    (windowMonth bday tm.castDate).1 < 10000 ∧
      (nextMonth (windowMonth bday tm.castDate)).1 < 10000 := by
  obtain ⟨mon_ge, mon_le, day_ge, -⟩ := has.date
  have year_ge := has.year_ge
  have year_lt := has.year_lt
  have not_last := has.not_last
  have not_first := has.not_first
  rw [castDate, windowMonth]
  split
  · rw [nextMonth]
    split <;> simp only <;> omega
  · rw [prevMonth]
    split
    · simp only [nextMonth, if_true]
      omega
    · rw [nextMonth]
      split <;> simp only <;> omega

theorem next_low : 1 ≤ (nextMonth (windowMonth bday tm.castDate)).2 ∧
    (nextMonth (windowMonth bday tm.castDate)).2 ≤ 12 := by
  obtain ⟨low, high⟩ := windowMonth_low has.toIsValid.isCallDate bday
  obtain ⟨next_low, next_high, -, -⟩ := nextMonth_bounds low high
  exact ⟨next_low, next_high⟩

variable (bday_lt : bday < 100)
include bday_lt

theorem texts : (tm.window bday).1.toList =
        IsoDate.text (windowMonth bday tm.castDate).1 (windowMonth bday tm.castDate).2 bday ∧
      (tm.window bday).2.toList =
        IsoDate.text (nextMonth (windowMonth bday tm.castDate)).1
          (nextMonth (windowMonth bday tm.castDate)).2 bday :=
  ⟨has.toIsValid.window_start_toList bday_lt has.years.1 has.years.2.1,
    has.toIsValid.window_stop_toList bday_lt (has.years.1.trans (le_nextMonth _)) has.years.2.2⟩

/-- A date is before the window when its own window starts before it. -/
theorem lt_start_iff (valid : tm'.IsValid) : tm'.date < (tm.window bday).1 ↔
    monthNumber (windowMonth bday tm'.castDate) < monthNumber (windowMonth bday tm.castDate) := by
  obtain ⟨low, high⟩ := windowMonth_low has.toIsValid.isCallDate bday
  exact valid.date_lt_iff low high has.years.2.1 bday_lt (has.texts bday_lt).1

/-- A date is before the end of the window when its own window starts no later. -/
theorem lt_stop_iff (valid : tm'.IsValid) : tm'.date < (tm.window bday).2 ↔
    monthNumber (windowMonth bday tm'.castDate) ≤ monthNumber (windowMonth bday tm.castDate) := by
  obtain ⟨low, high⟩ := has.next_low
  rw [valid.date_lt_iff low high has.years.2.2 bday_lt (has.texts bday_lt).2,
    monthNumber_nextMonth, Nat.lt_succ_iff]

/-- The window holds its date. -/
theorem contains : (tm.window bday).1 ≤ tm.date ∧ tm.date < (tm.window bday).2 := by
  rw [← String.not_lt, has.lt_start_iff bday_lt has.toIsValid,
    has.lt_stop_iff bday_lt has.toIsValid]
  exact ⟨lt_irrefl _, le_rfl⟩

/-- Windows that start in one month are one window. -/
theorem window_eq (has' : tm'.HasWindow bday)
    (same : windowMonth bday tm.castDate = windowMonth bday tm'.castDate) :
    tm.window bday = tm'.window bday := by
  obtain ⟨start_text, stop_text⟩ := has.texts bday_lt
  obtain ⟨start_text', stop_text'⟩ := has'.texts bday_lt
  rw [same] at start_text stop_text
  exact Prod.ext (String.toList_inj.mp (start_text.trans start_text'.symm))
    (String.toList_inj.mp (stop_text.trans stop_text'.symm))

/-- The windows of two dates are one, or the first ends before the second starts. -/
theorem apart (has' : tm'.HasWindow bday) (before : DateLt tm.castDate tm'.castDate) :
    tm.window bday = tm'.window bday ∨ (tm.window bday).2 ≤ (tm'.window bday).1 := by
  obtain ⟨low, high⟩ := windowMonth_low has.toIsValid.isCallDate bday
  obtain ⟨low', high'⟩ := windowMonth_low has'.toIsValid.isCallDate bday
  rcases (has.toIsValid.windowNumber_mono has'.toIsValid before).eq_or_lt with same | later
  · exact .inl (has.window_eq bday_lt has' (monthNumber_injective low high low' high' same))
  · right
    obtain ⟨next_low, next_high⟩ := has.next_low
    rw [← Nat.succ_le_iff, ← Nat.add_one, ← monthNumber_nextMonth, ← not_lt,
      monthNumber_lt_iff low' high' next_low next_high] at later
    rw [← String.not_lt, String.lt_iff, (has.texts bday_lt).2, (has'.texts bday_lt).1,
      IsoDate.text_lt_iff ⟨has'.years.2.1, by omega, bday_lt⟩ ⟨has.years.2.2, by omega, bday_lt⟩]
    omega

end Tm.HasWindow

/-! ## The next window -/

/-- The first date that is not before a text. -/
structure Tm.FirstFrom (text : String) (tm : Tm) : Prop where
  valid : tm.IsValid
  not_before : text ≤ tm.date
  before : ∀ earlier : Tm, earlier.IsValid → DateLt earlier.castDate tm.castDate →
    earlier.date < text

theorem Tm.FirstFrom.castDate_eq {text : String} {tm tm' : Tm} (first : tm.FirstFrom text)
    (first' : tm'.FirstFrom text) : tm.castDate = tm'.castDate := by
  by_contra different
  have ordered : DateLt tm.castDate tm'.castDate ∨ DateLt tm'.castDate tm.castDate := by
    rw [castDate, castDate] at different ⊢
    simp only [Prod.mk.injEq] at different
    simp only [DateLt]
    omega
  rcases ordered with lower | upper
  · exact String.not_lt.mpr first.not_before (first'.before tm first.valid lower)
  · exact String.not_lt.mpr first'.not_before (first.before tm' first'.valid upper)

/-- The first date with the window that starts in a month: the billing day, or the first of the next
month when there is none. -/
def windowFirst (bday : ℕ) (month : ℕ × ℕ) : Tm :=
  let date :=
    if bday ≤ monthDays month.1 month.2 then (month.1, month.2, bday)
    else ((nextMonth month).1, (nextMonth month).2, 1)
  { year := date.1, mon := date.2.1, mday := date.2.2, hour := 0, min := 0, sec := 0, wday := 0 }

section First

variable {bday : ℕ} {month : ℕ × ℕ}

theorem castDate_windowFirst : (windowFirst bday month).castDate =
    if bday ≤ monthDays month.1 month.2 then (month.1, month.2, bday)
    else ((nextMonth month).1, (nextMonth month).2, 1) := by
  simp only [windowFirst, Tm.castDate, Int.toNat_natCast]

variable (bday_pos : 1 ≤ bday) (bday_le : bday ≤ 31) (low : 1 ≤ month.2) (high : month.2 ≤ 12)
include bday_pos bday_le low high

theorem windowFirst_isValid (year_ge : 1000 ≤ month.1) (year_lt : month.1 < 10000) :
    (windowFirst bday month).IsValid := by
  obtain ⟨year, mon⟩ := month
  simp only at low high year_ge year_lt
  by_cases fits : bday ≤ monthDays year mon
  · have date : IsDate year mon bday := isDate_iff.mpr ⟨low, high, bday_pos, fits⟩
    rw [windowFirst, if_pos fits]
    constructor <;> simp only [Int.toNat_natCast] <;> first | exact date | omega
  · -- A month without the day is not December, so the year stays.
    have last : mon ≠ 12 := by
      rintro rfl
      have days : monthDays year 12 = 31 := rfl
      omega
    have days := (monthDays_bounds year (by omega : 1 ≤ mon + 1) (by omega)).1
    have date : IsDate year (mon + 1) 1 := isDate_iff.mpr ⟨by omega, by omega, le_rfl, by omega⟩
    rw [windowFirst, if_neg fits, nextMonth, if_neg last]
    constructor <;> simp only [Int.toNat_natCast] <;> first | exact date | omega

theorem windowMonth_windowFirst : windowMonth bday (windowFirst bday month).castDate = month := by
  obtain ⟨year, mon⟩ := month
  simp only at low high
  rw [castDate_windowFirst]
  by_cases fits : bday ≤ monthDays year mon
  · rw [if_pos fits, windowMonth, if_pos le_rfl]
  · have days := (monthDays_bounds year low high).1
    rw [if_neg fits, windowMonth, if_neg (by omega), nextMonth]
    by_cases last : mon = 12
    · rw [if_pos last, prevMonth, if_pos rfl, last, Nat.add_sub_cancel]
    · rw [if_neg last, prevMonth, if_neg (by omega), Nat.add_sub_cancel]

/-- No date before it is past the billing day of the month. -/
theorem windowFirst_firstFrom (year_ge : 1000 ≤ month.1) (year_lt : month.1 < 10000) {text : String}
    (text_eq : text.toList = IsoDate.text month.1 month.2 bday) :
    (windowFirst bday month).FirstFrom text := by
  have bday_lt : bday < 100 := by omega
  have valid := windowFirst_isValid bday_pos bday_le low high year_ge year_lt
  have month_eq := windowMonth_windowFirst bday_pos bday_le low high
  refine ⟨valid, ?_, fun earlier earlier_valid before => ?_⟩
  · rw [← String.not_lt, valid.date_lt_iff low high year_lt bday_lt text_eq, month_eq]
    exact lt_irrefl _
  · rw [earlier_valid.date_lt_iff low high year_lt bday_lt text_eq, earlier_valid.windowNumber]
    obtain ⟨mon_ge, mon_le, day_ge, day_le⟩ := isDate_iff.mp earlier_valid.date
    rw [castDate_windowFirst] at before
    by_cases fits : bday ≤ monthDays month.1 month.2
    · rw [if_pos fits, Tm.castDate, DateLt] at before
      rw [monthNumber, monthNumber]
      split <;> omega
    · rw [if_neg fits, Tm.castDate, DateLt] at before
      have next := monthNumber_nextMonth month
      by_cases same : (earlier.year.toNat, earlier.mon.toNat) = month
      · have within : earlier.mday.toNat ≤ monthDays month.1 month.2 := by
          rw [← same]
          exact day_le
        rw [if_neg (by omega), same, monthNumber]
        omega
      · have different : monthNumber (earlier.year.toNat, earlier.mon.toNat) ≠ monthNumber month :=
          fun eq => same (monthNumber_injective mon_ge mon_le low high eq)
        have earlier_lt : monthNumber (earlier.year.toNat, earlier.mon.toNat) <
            monthNumber (nextMonth month) := by
          rw [monthNumber, monthNumber]
          have next_pos := (nextMonth_bounds low high).1
          omega
        split <;> omega

end First

/-- The first date after a window has the window that starts where the first one ends. -/
theorem Tm.HasWindow.follows {bday : ℕ} {tm : Tm} (has : tm.HasWindow bday) (bday_pos : 1 ≤ bday)
    (bday_le : bday ≤ 31) : (∃ next, Tm.FirstFrom (tm.window bday).2 next) ∧
      ∀ next, Tm.FirstFrom (tm.window bday).2 next → (next.window bday).1 = (tm.window bday).2 := by
  have bday_lt : bday < 100 := by omega
  obtain ⟨low, high⟩ := has.next_low
  obtain ⟨start_ge, -, stop_lt⟩ := has.years
  have stop_text := (has.texts bday_lt).2
  have stop_ge : 1000 ≤ (nextMonth (windowMonth bday tm.castDate)).1 :=
    start_ge.trans (le_nextMonth _)
  have first := windowFirst_firstFrom bday_pos bday_le low high stop_ge stop_lt stop_text
  refine ⟨⟨_, first⟩, fun next next_first => ?_⟩
  have month_eq := windowMonth_windowFirst bday_pos bday_le low high
  rw [← next_first.castDate_eq first] at month_eq
  have start_text := next_first.valid.window_start_toList bday_lt
  rw [month_eq, ← stop_text] at start_text
  exact String.toList_inj.mp (start_text stop_ge stop_lt)

/-! ## The card of a date -/

namespace Pcard

/-- The period that a card has for `pcard_manager`: a credit card starts with the window or later
and ends with it unless it has an end of its own, a debit card needs both dates. -/
def effectivePeriod (window : String × String) (card : Pcard) : Option (String × String) :=
  match card.type with
  | .creditCard =>
      some (if card.start < window.1 then window.1 else card.start,
        if card.stop = "" then window.2 else card.stop)
  | .debitCard => if card.start = "" ∨ card.stop = "" then none else some (card.start, card.stop)
  | .unkn => none

/-- The effective period contains a date. -/
def Contains (window : String × String) (current : String) (card : Pcard) : Prop :=
  ∃ period ∈ card.effectivePeriod window, period.1 ≤ current ∧ current < period.2

instance (window : String × String) (current : String) (card : Pcard) :
    Decidable (card.Contains window current) :=
  inferInstanceAs (Decidable (∃ period ∈ card.effectivePeriod window, _))

/-- The card with its effective period. -/
def withPeriod (window : String × String) (card : Pcard) : Pcard :=
  match card.effectivePeriod window with
  | none => card
  | some period => { card with start := period.1, stop := period.2 }

theorem withWindow_eq (window : String × String) (card : Pcard) : card.withWindow window =
    { card with
      start := if card.start < window.1 then window.1 else card.start
      stop := if card.stop = "" then window.2 else card.stop } := by
  rw [withWindow]
  by_cases open_end : card.stop = ""
  · rw [if_pos open_end, if_pos open_end]
    split <;> rfl
  · rw [if_neg open_end, if_neg open_end]
    split <;> rfl

end Pcard

/-- One round of the loop. -/
theorem selectPcard_cons {window : String × String} {current : String} {card : Pcard}
    (rest : List Pcard) (continues : card.id ≠ 0) :
    selectPcard window current (card :: rest) =
      if card.Contains window current then some (card.withPeriod window)
      else selectPcard window current rest := by
  rw [selectPcard, if_neg continues]
  obtain ⟨id, amount, start, stop, status, type, callNumber⟩ := card
  cases type with
  | creditCard =>
      simp [Pcard.Contains, Pcard.withPeriod, Pcard.effectivePeriod,
        Pcard.withWindow_eq, Pcard.covers]
  | debitCard =>
      by_cases undated : start = "" ∨ stop = ""
      · simp [Pcard.Contains, Pcard.effectivePeriod, undated, undated.symm]
      · have dated : ¬ (stop = "" ∨ start = "") := fun absent => undated absent.symm
        simp [Pcard.Contains, Pcard.withPeriod, Pcard.effectivePeriod, Pcard.covers, undated, dated]
  | unkn => simp [Pcard.Contains, Pcard.effectivePeriod]

/-- The loop picks the first card before the row of zeros whose period contains the date. -/
theorem selectPcard_eq_find (window : String × String) (current : String) (cards : List Pcard) :
    selectPcard window current cards =
      ((cards.takeWhile fun card => card.id ≠ 0).find? fun card =>
        card.Contains window current).map (Pcard.withPeriod window) := by
  induction cards with
  | nil => rfl
  | cons card rest induction =>
      by_cases ended : card.id = 0
      · simp [selectPcard, ended]
      · rw [selectPcard_cons rest ended, List.takeWhile_cons_of_pos (by simpa using ended),
          List.find?_cons]
        by_cases inside : card.Contains window current
        · simp [inside]
        · simp [inside, induction]

/-- A credit card without dates has the window. -/
theorem effectivePeriod_undated (window : String × String) {card : Pcard}
    (credit : card.type = .creditCard) (no_start : card.start = "") (no_stop : card.stop = "") :
    card.effectivePeriod window = some window := by
  simp only [Pcard.effectivePeriod, credit, no_start, no_stop, if_true, Option.some.injEq]
  split
  · rfl
  · rename_i not_before
    have empty : window.1 = "" := String.le_antisymm (String.not_lt.mp not_before) (by
      rw [← String.not_lt, String.lt_iff]
      exact List.not_lt_nil _)
    rw [← empty]

/-! ## The windows of a billing day -/

/-- The windows of a billing day lie side by side along the calendar, and the card of a date is the
first one whose period contains it. -/
structure BillingWindows (bday : ℕ) : Prop where
  given : ∀ (tm : Tm) (card : Pcard), card.type = .creditCard → card.start = "" → card.stop = "" →
    card.effectivePeriod (tm.window bday) = some (tm.window bday)
  contains : ∀ tm : Tm, tm.HasWindow bday →
    (tm.window bday).1 ≤ tm.date ∧ tm.date < (tm.window bday).2
  apart : ∀ tm tm' : Tm, tm.HasWindow bday → tm'.HasWindow bday → DateLt tm.castDate tm'.castDate →
    tm.window bday = tm'.window bday ∨ (tm.window bday).2 ≤ (tm'.window bday).1
  follows : ∀ tm : Tm, tm.HasWindow bday →
    (∃ next, Tm.FirstFrom (tm.window bday).2 next) ∧
      ∀ next, Tm.FirstFrom (tm.window bday).2 next → (next.window bday).1 = (tm.window bday).2
  selected : ∀ (tm : Tm) (cards : List Pcard) (card : Pcard),
    selectPcard (tm.window bday) tm.date cards = some card ↔
      ∃ before own after, cards.takeWhile (fun card => card.id ≠ 0) = before ++ own :: after ∧
        (∀ earlier ∈ before, ¬ earlier.Contains (tm.window bday) tm.date) ∧
          own.Contains (tm.window bday) tm.date ∧ own.withPeriod (tm.window bday) = card
  unselected : ∀ (tm : Tm) (cards : List Pcard),
    selectPcard (tm.window bday) tm.date cards = none ↔
      ∀ card ∈ cards.takeWhile fun card => card.id ≠ 0, ¬ card.Contains (tm.window bday) tm.date

end RateEngine
