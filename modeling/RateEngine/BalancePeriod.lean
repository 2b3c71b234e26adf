import RateEngine.Prerating
import RateEngine.TimeCondParity

/-!
# The period of a balance in both rating engines

A balance is kept under the dates of a period.  The classic engine takes them from the card that
`pcard_manager` picks and writes the billing window with `sprintf`, the batch engine takes them from
the card that its query ranks first and computes the window with date arithmetic.  This file says
when both write the same period.
-/

namespace RateEngine

/-! ## Date arithmetic of the batch engine -/

/-- The days of a month. -/
def monthDays (year mon : ℕ) : ℕ := (daysinmonth {} year mon).toNat

/-- The month after a month. -/
def nextMonth : ℕ × ℕ → ℕ × ℕ
  | (year, mon) => if mon = 12 then (year + 1, 1) else (year, mon + 1)

/-- `- INTERVAL 1 MONTH` on the first of a month. -/
def prevMonth : ℕ × ℕ → ℕ × ℕ
  | (year, mon) => if mon = 1 then (year - 1, 12) else (year, mon - 1)

/-- The day after a date. -/
def nextDay : ℕ × ℕ × ℕ → ℕ × ℕ × ℕ
  | (year, mon, day) =>
      if day < monthDays year mon then (year, mon, day + 1)
      else ((nextMonth (year, mon)).1, (nextMonth (year, mon)).2, 1)

/-- `+ INTERVAL 1 MONTH`: the same day, or the last one of a shorter month. -/
def addMonth : ℕ × ℕ × ℕ → ℕ × ℕ × ℕ
  | (year, mon, day) =>
      let next := nextMonth (year, mon)
      (next.1, next.2, min day (monthDays next.1 next.2))

/-- The month in which the billing window of a date starts. -/
def windowMonth (bday : ℕ) : ℕ × ℕ × ℕ → ℕ × ℕ
  | (year, mon, day) => if bday ≤ day then (year, mon) else prevMonth (year, mon)

/-- `win_start` of `rt_duckdb_balance`: the first of the month and `to_days(bday-1)`. -/
def winStart (bday : ℕ) (date : ℕ × ℕ × ℕ) : ℕ × ℕ × ℕ :=
  nextDay^[bday - 1] ((windowMonth bday date).1, (windowMonth bday date).2, 1)

/-- `CAST(date AS VARCHAR)`. -/
def dateText : ℕ × ℕ × ℕ → String
  | (year, mon, day) => String.ofList (IsoDate.text year mon day)

/-- `<` on dates. -/
def DateLt : ℕ × ℕ × ℕ → ℕ × ℕ × ℕ → Prop
  | (year, mon, day), (year', mon', day') =>
      year < year' ∨ year = year' ∧ (mon < mon' ∨ mon = mon' ∧ day < day')

instance (date date' : ℕ × ℕ × ℕ) : Decidable (DateLt date date') :=
  inferInstanceAs (Decidable (_ ∨ _))

/-! ## Days and months -/

section Months

variable {year mon : ℕ}

theorem monthDays_bounds (year : ℕ) (low : 1 ≤ mon) (high : mon ≤ 12) :
    28 ≤ monthDays year mon ∧ monthDays year mon ≤ 31 := by
  have bounds := daysinmonth_bounds year low high
  rw [monthDays]
  omega

theorem isDate_iff {day : ℕ} : IsDate year mon day ↔
    1 ≤ mon ∧ mon ≤ 12 ∧ 1 ≤ day ∧ day ≤ monthDays year mon := by
  rw [IsDate, monthDays]
  refine and_congr_right fun low => and_congr_right fun high => and_congr_right fun _ => ?_
  have ge := (monthDays_bounds year low high).1
  rw [monthDays] at ge
  omega

theorem nextMonth_bounds {month : ℕ × ℕ} (low : 1 ≤ month.2) (high : month.2 ≤ 12) :
    1 ≤ (nextMonth month).2 ∧ (nextMonth month).2 ≤ 12 ∧ (nextMonth month).1 ≤ month.1 + 1 ∧
      nextMonth month ≠ month := by
  obtain ⟨year, mon⟩ := month
  rw [nextMonth]
  split
  · simp
  · simp
    omega

theorem le_nextMonth (month : ℕ × ℕ) : month.1 ≤ (nextMonth month).1 := by
  rw [nextMonth]
  split
  · exact Nat.le_succ _
  · exact le_rfl

/-- Days that stay within the month. -/
theorem nextDay_iterate {day : ℕ} (steps : ℕ) (within : day + steps ≤ monthDays year mon) :
    nextDay^[steps] (year, mon, day) = (year, mon, day + steps) := by
  induction steps generalizing day with
  | zero => rfl
  | succ steps induction =>
      have inside : day < monthDays year mon := by omega
      rw [Function.iterate_succ_apply, nextDay, if_pos inside, induction (by omega)]
      simp only [Prod.mk.injEq, true_and]
      omega

end Months

section Window

variable {bday : ℕ} {date : ℕ × ℕ × ℕ}

/-- The start of the window when its month has the billing day. -/
theorem winStart_of_fits (bday_pos : 1 ≤ bday)
    (fits : bday ≤ monthDays (windowMonth bday date).1 (windowMonth bday date).2) :
    winStart bday date = ((windowMonth bday date).1, (windowMonth bday date).2, bday) := by
  rw [winStart, nextDay_iterate (bday - 1) (by omega)]
  simp only [Prod.mk.injEq, true_and]
  omega

/-- A billing day past the end of the month falls in the next one. -/
theorem winStart_of_overflow (bday_le : bday ≤ 31) (low : 1 ≤ (windowMonth bday date).2)
    (high : (windowMonth bday date).2 ≤ 12)
    (overflow : monthDays (windowMonth bday date).1 (windowMonth bday date).2 < bday) :
    winStart bday date =
      ((nextMonth (windowMonth bday date)).1, (nextMonth (windowMonth bday date)).2,
        bday - monthDays (windowMonth bday date).1 (windowMonth bday date).2) := by
  rw [winStart]
  revert low high overflow
  rcases windowMonth bday date with ⟨year, mon⟩
  intro low high overflow
  obtain ⟨next_low, next_high, -, -⟩ := nextMonth_bounds low high
  simp only at low high overflow
  obtain ⟨days_ge, -⟩ := monthDays_bounds year low high
  obtain ⟨next_days_ge, -⟩ := monthDays_bounds (nextMonth (year, mon)).1 next_low next_high
  have steps : bday - 1 =
      (bday - 1 - monthDays year mon) + (1 + (monthDays year mon - 1)) := by omega
  have to_last : nextDay^[monthDays year mon - 1] (year, mon, 1) =
      (year, mon, monthDays year mon) := by
    rw [nextDay_iterate _ (by omega)]
    simp only [Prod.mk.injEq, true_and]
    omega
  have crossed : nextDay (year, mon, monthDays year mon) =
      ((nextMonth (year, mon)).1, (nextMonth (year, mon)).2, 1) := by
    rw [nextDay, if_neg (lt_irrefl _)]
  rw [steps, Function.iterate_add_apply, Function.iterate_add_apply, to_last,
    Function.iterate_one, crossed, nextDay_iterate _ (by omega)]
  simp only [Prod.mk.injEq, true_and]
  omega

end Window

/-! ## The window of `pcard_manager` as text -/

/-- A date of the calendar. -/
def Tm.IsCallDate (tm : Tm) : Prop := 1 ≤ tm.year ∧ IsDate tm.year.toNat tm.mon.toNat tm.mday.toNat

/-- The window goes from the billing day of its month to that of the next. -/
theorem Tm.IsCallDate.window_eq {tm : Tm} (date : tm.IsCallDate) (bday : ℕ) : tm.window bday =
    (dateString (windowMonth bday tm.castDate).1 (windowMonth bday tm.castDate).2 bday,
      dateString (nextMonth (windowMonth bday tm.castDate)).1
        (nextMonth (windowMonth bday tm.castDate)).2 bday) := by
  obtain ⟨year_ge, mon_ge, mon_le, day_ge, -⟩ := date
  obtain ⟨year, year_eq⟩ := Int.eq_ofNat_of_zero_le (by omega : 0 ≤ tm.year)
  obtain ⟨mon, mon_eq⟩ := Int.eq_ofNat_of_zero_le (by omega : 0 ≤ tm.mon)
  obtain ⟨mday, mday_eq⟩ := Int.eq_ofNat_of_zero_le (by omega : 0 ≤ tm.mday)
  have date_eq : tm.castDate = (year, mon, mday) := by
    simp [castDate, year_eq, mon_eq, mday_eq]
  rw [date_eq, window, year_eq, mon_eq, mday_eq, windowMonth]
  by_cases started : bday ≤ mday
  · rw [if_pos started, if_pos (by exact_mod_cast started), nextMonth]
    by_cases last : mon = 12
    · rw [if_pos last, if_neg (by omega)]
      rfl
    · rw [if_neg last, if_pos (by omega)]
      rfl
  · rw [if_neg started, if_neg (by exact_mod_cast started), prevMonth]
    by_cases january : mon = 1
    · have before : (year : ℤ) - 1 = (year - 1 : ℕ) := by omega
      have after : year - 1 + 1 = year := by omega
      rw [if_pos january, if_pos (by omega), nextMonth, if_pos rfl, before, after, january]
      rfl
    · have before : (mon : ℤ) - 1 = (mon - 1 : ℕ) := by omega
      have after : mon - 1 + 1 = mon := by omega
      rw [if_neg january, if_neg (by omega), nextMonth, if_neg (by omega), before, after]

/-- `sprintf` of a date with a year of four digits. -/
theorem dateString_eq_text {month : ℕ × ℕ} {bday : ℕ} (year_ge : 1000 ≤ month.1)
    (year_lt : month.1 < 10000) (high : month.2 ≤ 12) (bday_lt : bday < 100) :
    (dateString month.1 month.2 bday).toList = IsoDate.text month.1 month.2 bday := by
  rw [dateString_toList] <;> first | rfl | omega

theorem windowMonth_low {tm : Tm} (date : tm.IsCallDate) (bday : ℕ) :
    1 ≤ (windowMonth bday tm.castDate).2 ∧ (windowMonth bday tm.castDate).2 ≤ 12 := by
  obtain ⟨-, mon_ge, mon_le, -, -⟩ := date
  rw [Tm.castDate, windowMonth]
  split
  · exact ⟨mon_ge, mon_le⟩
  · rw [prevMonth]
    split
    · simp only
      omega
    · simp only
      omega

namespace Tm.IsValid

variable {tm : Tm} (valid : tm.IsValid) {bday : ℕ} (bday_lt : bday < 100)
include valid

theorem isCallDate : tm.IsCallDate :=
  ⟨le_trans (by decide) valid.year_ge, valid.date⟩

include bday_lt

/-- The text of the start is the month of the window with the billing day. -/
theorem window_start_toList (start_ge : 1000 ≤ (windowMonth bday tm.castDate).1)
    (start_lt : (windowMonth bday tm.castDate).1 < 10000) :
    (tm.window bday).1.toList =
      IsoDate.text (windowMonth bday tm.castDate).1 (windowMonth bday tm.castDate).2 bday := by
  rw [valid.isCallDate.window_eq]
  exact dateString_eq_text start_ge start_lt (windowMonth_low valid.isCallDate bday).2 bday_lt

/-- The text of the end is the next month with the billing day. -/
theorem window_stop_toList (stop_ge : 1000 ≤ (nextMonth (windowMonth bday tm.castDate)).1)
    (stop_lt : (nextMonth (windowMonth bday tm.castDate)).1 < 10000) :
    (tm.window bday).2.toList =
      IsoDate.text (nextMonth (windowMonth bday tm.castDate)).1
        (nextMonth (windowMonth bday tm.castDate)).2 bday := by
  obtain ⟨low, high⟩ := windowMonth_low valid.isCallDate bday
  rw [valid.isCallDate.window_eq]
  exact dateString_eq_text stop_ge stop_lt (nextMonth_bounds low high).2.1 bday_lt

end Tm.IsValid

/-- A date of a call: a valid time, and years around it of four digits. -/
structure Tm.IsCallTime (tm : Tm) : Prop extends tm.IsValid where
  year_gt : 1000 < tm.year
  year_lt_top : tm.year < 9998

namespace Tm.IsCallTime

variable {tm : Tm} (call : tm.IsCallTime) {bday : ℕ}
include call

theorem windowMonth_bounds (bday : ℕ) : 1 ≤ (windowMonth bday tm.castDate).2 ∧
    (windowMonth bday tm.castDate).2 ≤ 12 ∧ 1000 ≤ (windowMonth bday tm.castDate).1 ∧
      (windowMonth bday tm.castDate).1 < 9998 := by
  obtain ⟨mon_ge, mon_le, -, -⟩ := call.date
  have year_gt := call.year_gt
  have year_lt := call.year_lt_top
  rw [castDate, windowMonth]
  by_cases started : bday ≤ tm.mday.toNat
  · rw [if_pos started]
    simp only
    omega
  · rw [if_neg started, prevMonth]
    split
    · simp only
      omega
    · simp only
      omega

/-- The texts of the window are its months with the billing day. -/
theorem window_toList (bday_lt : bday < 100) :
    (tm.window bday).1.toList =
        IsoDate.text (windowMonth bday tm.castDate).1 (windowMonth bday tm.castDate).2 bday ∧
      (tm.window bday).2.toList =
        IsoDate.text (nextMonth (windowMonth bday tm.castDate)).1
          (nextMonth (windowMonth bday tm.castDate)).2 bday := by
  obtain ⟨mon_ge, mon_le, year_ge, year_lt⟩ := call.windowMonth_bounds bday
  have next_le := (nextMonth_bounds mon_ge mon_le).2.2.1
  have next_ge := le_nextMonth (windowMonth bday tm.castDate)
  exact ⟨call.toIsValid.window_start_toList bday_lt year_ge (by omega),
    call.toIsValid.window_stop_toList bday_lt (by omega) (by omega)⟩

end Tm.IsCallTime

/-! ## The period of the classic engine -/

/-- The card covers the date for `pcard_manager`. -/
def Pcard.coversDate (window : String × String) (current : String) (card : Pcard) : Bool :=
  match card.type with
  | .creditCard => (card.withWindow window).covers current
  | .debitCard => card.stop ≠ "" && card.start ≠ "" && card.covers current
  | .unkn => false

/-- The dates that `pcard_manager` leaves in the card. -/
def Pcard.period (window : String × String) (card : Pcard) : String × String :=
  match card.type with
  | .creditCard => ((card.withWindow window).start, (card.withWindow window).stop)
  | _ => (card.start, card.stop)

/-- The dates of the card that `pcard_manager` picks: the key of the balance. -/
def classicPeriod (env : Env) (rtp : Racc) : Option (String × String) :=
  (pcardManager env rtp).bacc.pcardPtr.map fun card => (card.start, card.stop)

theorem selectPcard_period (window : String × String) (current : String) {cards : List Pcard}
    (ids : ∀ card ∈ cards, card.id ≠ 0) :
    (selectPcard window current cards).map (fun card => (card.start, card.stop)) =
      (cards.find? (Pcard.coversDate window current)).map (Pcard.period window) := by
  induction cards with
  | nil => rfl
  | cons card rest induction =>
      rw [List.forall_mem_cons] at ids
      have rest_eq := induction ids.2
      rw [selectPcard, if_neg ids.1, List.find?_cons]
      cases type : card.type with
      | creditCard =>
          by_cases covers : (card.withWindow window).covers current = true
          · simp [Pcard.coversDate, Pcard.period, type, covers]
          · simp [Pcard.coversDate, type, covers, rest_eq]
      | debitCard =>
          by_cases dated : card.stop = "" ∨ card.start = ""
          · have uncovered : card.coversDate window current = false := by
              rcases dated with absent | absent <;> simp [Pcard.coversDate, type, absent]
            simp [dated, uncovered, rest_eq]
          · obtain ⟨stop_ne, start_ne⟩ := not_or.mp dated
            by_cases covers : card.covers current = true
            · simp [Pcard.coversDate, Pcard.period, type, stop_ne, start_ne, covers]
            · simp [Pcard.coversDate, type, dated, covers, rest_eq]
      | unkn => simp [Pcard.coversDate, type, rest_eq]

/-! ## The period of the batch engine -/

/-- The card is joined to a call on the date: a credit card always, a debit card when its dates
cover it. -/
def Pcard.sqlCovers (date : ℕ × ℕ × ℕ) (card : Pcard) : Bool :=
  match card.type with
  | .creditCard => true
  | .debitCard =>
      match tryCastDate card.start, tryCastDate card.stop with
      | some start, some stop => ¬ DateLt date start && DateLt date stop
      | _, _ => false
  | .unkn => false

/-- `prn = 1`: a joined card with the latest start; `ROW_NUMBER` orders ties in any way.  An unset
date is the empty text, which sorts last. -/
structure Pcard.RankedFirst (cards : List Pcard) (date : ℕ × ℕ × ℕ) (card : Pcard) : Prop where
  member : card ∈ cards
  covers : card.sqlCovers date = true
  latest : ∀ other ∈ cards, other.sqlCovers date = true → other.start ≤ card.start

/-- `start_date` and `end_date` of `bal_delta`. -/
def Pcard.sqlPeriod (bday : ℕ) (date : ℕ × ℕ × ℕ) (card : Pcard) : String × String :=
  match card.type with
  | .creditCard => (dateText (winStart bday date), dateText (addMonth (winStart bday date)))
  | _ => ((tryCastDate card.start).elim "" dateText, (tryCastDate card.stop).elim "" dateText)

/-- The key of the balance that `rt_duckdb_balance` charges; no row, no balance. -/
inductive SqlPeriod (cards : List Pcard) (bday : ℕ) (date : ℕ × ℕ × ℕ) :
    Option (String × String) → Prop
  | unbilled (none_covers : ∀ card ∈ cards, card.sqlCovers date = false) :
      SqlPeriod cards bday date none
  | billed {card : Pcard} (first : card.RankedFirst cards date) :
      SqlPeriod cards bday date (some (card.sqlPeriod bday date))

/-! ## When both write the same period -/

/-- A date of the calendar with a year of four digits. -/
structure IsCalendarDate (date : ℕ × ℕ × ℕ) : Prop where
  year_lt : date.1 < 10000
  is_date : IsDate date.1 date.2.1 date.2.2

/-- A date of a card: none, or the text of a date of the calendar. -/
def IsCardDate (text : String) : Prop :=
  text = "" ∨ ∃ date, IsCalendarDate date ∧ text = dateText date

/-- A card as the table holds it. -/
structure Pcard.WellFormed (card : Pcard) : Prop where
  id_ne : card.id ≠ 0
  start : IsCardDate card.start
  stop : IsCardDate card.stop

/-- The period of the card is the billing window of the batch engine.  A credit card without a start
after the window and without an end keeps the window exactly when the months of the window have the
billing day. -/
def Pcard.KeepsWindow (bday : ℕ) (date : ℕ × ℕ × ℕ) (window : String × String) (card : Pcard) :
    Prop :=
  match card.type with
  | .creditCard =>
      (if card.start < window.1 then
          bday ≤ monthDays (windowMonth bday date).1 (windowMonth bday date).2
        else card.start = dateText (winStart bday date)) ∧
      (if card.stop = "" then
          bday ≤ monthDays (windowMonth bday date).1 (windowMonth bday date).2 ∧
            bday ≤ monthDays (nextMonth (windowMonth bday date)).1
              (nextMonth (windowMonth bday date)).2
        else card.stop = dateText (addMonth (winStart bday date)))
  | _ =>
      card.start = dateText (winStart bday date) ∧
        card.stop = dateText (addMonth (winStart bday date))

/-- The period of the card has the dates: its own, or those of the window where a credit card takes
them. -/
def Pcard.HasDates (window : String × String) (start stop : String) (card : Pcard) : Prop :=
  match card.type with
  | .creditCard =>
      (if card.start < window.1 then window.1 = start else card.start = start) ∧
      (if card.stop = "" then window.2 = stop else card.stop = stop)
  | _ => card.start = start ∧ card.stop = stop

/-- The card that `pcard_manager` picks has the period of the card that the query ranks first. -/
def Pcard.SamePeriod (bday : ℕ) (date : ℕ × ℕ × ℕ) (window : String × String)
    (card ranked : Pcard) : Prop :=
  match ranked.type with
  | .creditCard => card.KeepsWindow bday date window
  | _ => card.HasDates window ranked.start ranked.stop

section Dates

variable {date date' : ℕ × ℕ × ℕ}

@[simp]
theorem dateText_toList (date : ℕ × ℕ × ℕ) :
    (dateText date).toList = IsoDate.text date.1 date.2.1 date.2.2 := by
  simp [dateText]

theorem dateText_ne (date : ℕ × ℕ × ℕ) : dateText date ≠ "" := by
  intro empty
  have text := dateText_toList date
  simp [empty, IsoDate.text, IsoDate.digits] at text

theorem IsCalendarDate.fits (calendar : IsCalendarDate date) :
    IsoDate.Fits date.1 date.2.1 date.2.2 := by
  obtain ⟨mon_ge, mon_le, -, day_le⟩ := isDate_iff.mp calendar.is_date
  have days := (monthDays_bounds date.1 mon_ge mon_le).2
  exact ⟨calendar.year_lt, by omega, by omega⟩

theorem tryCastDate_dateText (calendar : IsCalendarDate date) :
    tryCastDate (dateText date) = some date := by
  rw [tryCastDate, dateText_toList, IsoDate.parse_text calendar.fits]
  simp [Option.filter, calendar.is_date]

/-- Dates sort as text like they sort as dates. -/
theorem dateText_lt_iff (calendar : IsCalendarDate date) (calendar' : IsCalendarDate date') :
    dateText date < dateText date' ↔ DateLt date date' := by
  rw [String.lt_iff, dateText_toList, dateText_toList,
    IsoDate.text_lt_iff calendar.fits calendar'.fits]
  exact Iff.rfl

end Dates

namespace Tm.IsCallTime

variable {tm : Tm} (call : tm.IsCallTime)
include call

theorem calendar : IsCalendarDate tm.castDate where
  year_lt := by
    have year_lt := call.year_lt_top
    simp only [castDate]
    omega
  is_date := call.date

theorem date_eq : tm.date = dateText tm.castDate := by
  rw [String.ext_iff, call.date_toList, dateText_toList]
  rfl

end Tm.IsCallTime

/-! ## Cards that cover a date -/

/-- Both engines let the same debit cards cover a date. -/
theorem Pcard.WellFormed.sqlCovers_eq {card : Pcard} (wf : card.WellFormed)
    (debit : card.type = .debitCard) {tm : Tm} (call : tm.IsCallTime) (window : String × String) :
    card.sqlCovers tm.castDate = card.coversDate window tm.date := by
  have uncast : tryCastDate "" = none := by decide
  rw [sqlCovers, coversDate, debit]
  simp only
  rcases wf.start with absent | ⟨start, start_date, start_eq⟩
  · simp [absent, uncast]
  rcases wf.stop with absent | ⟨stop, stop_date, stop_eq⟩
  · rw [absent, uncast]
    cases tryCastDate card.start <;> simp
  rw [covers, start_eq, stop_eq, tryCastDate_dateText start_date, tryCastDate_dateText stop_date,
    call.date_eq]
  have from_start : dateText start ≤ dateText tm.castDate ↔ ¬ DateLt tm.castDate start := by
    rw [← dateText_lt_iff call.calendar start_date, String.not_lt]
  simp [dateText_ne, from_start, dateText_lt_iff call.calendar stop_date]

/-- A card that `pcard_manager` picks is joined by the query. -/
theorem Pcard.WellFormed.sqlCovers_of_coversDate {card : Pcard} (wf : card.WellFormed) {tm : Tm}
    (call : tm.IsCallTime) {window : String × String}
    (covers : card.coversDate window tm.date = true) : card.sqlCovers tm.castDate = true := by
  cases type : card.type with
  | creditCard => rw [sqlCovers, type]
  | debitCard => rw [wf.sqlCovers_eq type call window, covers]
  | unkn => simp [coversDate, type] at covers

/-! ## The billing window -/

namespace Tm.IsCallTime

variable {tm : Tm} (call : tm.IsCallTime) {bday : ℕ}
include call

/-- The months of the window and the month after them fit their texts. -/
theorem window_fits {day : ℕ} (day_lt : day < 100) :
    IsoDate.Fits (windowMonth bday tm.castDate).1 (windowMonth bday tm.castDate).2 day ∧
      IsoDate.Fits (nextMonth (windowMonth bday tm.castDate)).1
        (nextMonth (windowMonth bday tm.castDate)).2 day ∧
      IsoDate.Fits (nextMonth (nextMonth (windowMonth bday tm.castDate))).1
        (nextMonth (nextMonth (windowMonth bday tm.castDate))).2 day := by
  obtain ⟨low, high, -, year_lt⟩ := call.windowMonth_bounds bday
  obtain ⟨low', high', year_le', -⟩ := nextMonth_bounds low high
  obtain ⟨low'', high'', year_le'', -⟩ := nextMonth_bounds low' high'
  refine ⟨⟨?_, ?_, day_lt⟩, ⟨?_, ?_, day_lt⟩, ⟨?_, ?_, day_lt⟩⟩ <;> omega

/-- The start of the window is the same in both engines exactly when its month has the billing
day. -/
theorem window_start_iff (bday_pos : 1 ≤ bday) (bday_le : bday ≤ 31) :
    (tm.window bday).1 = dateText (winStart bday tm.castDate) ↔
      bday ≤ monthDays (windowMonth bday tm.castDate).1 (windowMonth bday tm.castDate).2 := by
  have bday_lt : bday < 100 := by omega
  rw [String.ext_iff, (call.window_toList bday_lt).1, dateText_toList]
  obtain ⟨fits, fits', -⟩ := call.window_fits bday_lt
  obtain ⟨low, high, -, -⟩ := call.windowMonth_bounds bday
  by_cases reached :
      bday ≤ monthDays (windowMonth bday tm.castDate).1 (windowMonth bday tm.castDate).2
  · rw [winStart_of_fits bday_pos reached]
    exact iff_of_true rfl reached
  · refine iff_of_false (fun same => ?_) reached
    rw [winStart_of_overflow bday_le low high (not_le.mp reached)] at same
    have fields := IsoDate.text_injective fits
      { fits' with day_lt := (Nat.sub_le bday _).trans_lt bday_lt } same
    simp only [Prod.mk.injEq] at fields
    exact (nextMonth_bounds low high).2.2.2 (Prod.ext fields.1.symm fields.2.1.symm)

/-- The end of the window is the same in both engines exactly when both months have the billing
day. -/
theorem window_stop_iff (bday_pos : 1 ≤ bday) (bday_le : bday ≤ 31) :
    (tm.window bday).2 = dateText (addMonth (winStart bday tm.castDate)) ↔
      bday ≤ monthDays (windowMonth bday tm.castDate).1 (windowMonth bday tm.castDate).2 ∧
        bday ≤ monthDays (nextMonth (windowMonth bday tm.castDate)).1
          (nextMonth (windowMonth bday tm.castDate)).2 := by
  have bday_lt : bday < 100 := by omega
  rw [String.ext_iff, (call.window_toList bday_lt).2, dateText_toList]
  obtain ⟨-, fits', fits''⟩ := call.window_fits bday_lt
  obtain ⟨low, high, -, -⟩ := call.windowMonth_bounds bday
  obtain ⟨low', high', -, -⟩ := nextMonth_bounds low high
  by_cases reached :
      bday ≤ monthDays (windowMonth bday tm.castDate).1 (windowMonth bday tm.castDate).2
  · rw [winStart_of_fits bday_pos reached, and_iff_right reached]
    constructor
    · intro same
      have fields := IsoDate.text_injective fits'
        { fits' with day_lt := (Nat.min_le_left bday _).trans_lt bday_lt } same
      simp only [Prod.mk.injEq, true_and, Prod.mk.eta] at fields
      exact min_eq_left_iff.mp fields.symm
    · intro reached'
      simp only [addMonth, Prod.mk.eta, min_eq_left reached']
  · refine iff_of_false (fun same => ?_) (fun both => reached both.1)
    rw [winStart_of_overflow bday_le low high (not_le.mp reached)] at same
    have fields := IsoDate.text_injective fits' { fits'' with
      day_lt := ((Nat.min_le_left _ _).trans (Nat.sub_le bday _)).trans_lt bday_lt } same
    simp only [Prod.mk.injEq] at fields
    exact (nextMonth_bounds low' high').2.2.2 (Prod.ext fields.1.symm fields.2.1.symm)

end Tm.IsCallTime

/-! ## The two periods -/

namespace Pcard

variable {card ranked : Pcard} {window : String × String}

theorem period_eq_iff {start stop : String} :
    card.period window = (start, stop) ↔ card.HasDates window start stop := by
  rw [period, HasDates]
  cases card.type with
  | creditCard =>
      simp only [withWindow, Prod.mk.injEq]
      by_cases ended : card.stop = ""
      · by_cases early : card.start < window.1 <;> simp [ended, early]
      · by_cases early : card.start < window.1 <;> simp [ended, early]
  | debitCard => exact Prod.mk.injEq _ _ _ _ ▸ Iff.rfl
  | unkn => exact Prod.mk.injEq _ _ _ _ ▸ Iff.rfl

variable {tm : Tm} (call : tm.IsCallTime) {bday : ℕ} (bday_pos : 1 ≤ bday) (bday_le : bday ≤ 31)
include call bday_pos bday_le

theorem keepsWindow_iff :
    card.KeepsWindow bday tm.castDate (tm.window bday) ↔
      card.HasDates (tm.window bday) (dateText (winStart bday tm.castDate))
        (dateText (addMonth (winStart bday tm.castDate))) := by
  rw [KeepsWindow, HasDates]
  cases card.type with
  | creditCard =>
      simp only [call.window_start_iff bday_pos bday_le, call.window_stop_iff bday_pos bday_le]
  | debitCard => rfl
  | unkn => rfl

/-- A card has the period of a joined card. -/
theorem period_eq_sqlPeriod_iff (wf : ranked.WellFormed)
    (covers : ranked.sqlCovers tm.castDate = true) :
    card.period (tm.window bday) = ranked.sqlPeriod bday tm.castDate ↔
      card.SamePeriod bday tm.castDate (tm.window bday) ranked := by
  have cast {text : String} (date : IsCardDate text) (cast : (tryCastDate text).isSome) :
      (tryCastDate text).elim "" dateText = text := by
    rcases date with rfl | ⟨date, calendar, rfl⟩
    · exact absurd cast (by decide)
    · rw [tryCastDate_dateText calendar, Option.elim_some]
  rw [sqlPeriod, SamePeriod]
  cases type : ranked.type with
  | creditCard => rw [period_eq_iff, keepsWindow_iff call bday_pos bday_le]
  | debitCard =>
      simp only [sqlCovers, type] at covers
      split at covers
      · rename_i start stop start_eq stop_eq
        have start_text := cast wf.start (by rw [start_eq, Option.isSome_some])
        have stop_text := cast wf.stop (by rw [stop_eq, Option.isSome_some])
        simp only [start_text, stop_text, period_eq_iff]
      · cases covers
  | unkn => simp [sqlCovers, type] at covers

end Pcard

/-! ## Agreement -/

/-- `COALESCE(NULLIF(billing_day,0),1)`. -/
def Bacc.sqlBillingDay (bacc : Bacc) : ℕ := if bacc.billingDay = 0 then 1 else bacc.billingDay

/-- The key parity claim at one record and the active cards of its account: whatever card the query
ranks first among those with the latest start, the classic engine stores the balance under the same
dates, and under none when the query has no card. -/
def PeriodsAgree (env : Env) (rtp : Racc) (cards : List Pcard) : Prop :=
  ∀ period,
    SqlPeriod cards rtp.bacc.sqlBillingDay (env.localtime rtp.pre.cardTime).castDate period →
      classicPeriod env rtp = period

theorem classicPeriod_eq {env : Env} {rtp : Racc} {cards : List Pcard}
    (active : env.pcard rtp.bacc.id = some cards) (ids : ∀ card ∈ cards, card.id ≠ 0)
    (bday_pos : 1 ≤ rtp.bacc.billingDay) :
    classicPeriod env rtp =
      (cards.find? (Pcard.coversDate
          ((env.localtime rtp.pre.cardTime).window rtp.bacc.billingDay)
          (env.localtime rtp.pre.cardTime).date)).map
        (Pcard.period ((env.localtime rtp.pre.cardTime).window rtp.bacc.billingDay)) := by
  rw [← selectPcard_period _ _ ids]
  simp only [classicPeriod, pcardManager, active, Nat.lt_of_succ_le bday_pos, if_true]

/-- A credit card without dates. -/
def plainCredit : Pcard where
  id := 1
  amount := 100
  start := ""
  stop := ""
  status := .active
  type := .creditCard
  callNumber := 1

/-- An account with that card and a billing day, in a call at ten in the morning of 4 March 2024. -/
def plainCreditEnv : Env := { bareEnv with pcard := fun _ => some [plainCredit] }

def plainCreditRecord (billingDay : ℕ) : Racc where
  rtm := .clg
  bacc := { id := 1, billingDay }
  pre := { epoch := 1709546400 }

theorem plainCredit_wellFormed : plainCredit.WellFormed where
  id_ne := by decide
  start := .inl rfl
  stop := .inl rfl

theorem plainCreditEnv_call (time : ℤ) : (plainCreditEnv.localtime time).IsCallTime := by
  have valid : (plainCreditEnv.localtime time).IsValid := by
    constructor <;> simp only [plainCreditEnv, bareEnv] <;> decide
  have years : 1000 < (plainCreditEnv.localtime 0).year ∧
      (plainCreditEnv.localtime 0).year < 9998 := by decide
  exact ⟨valid, years.1, years.2⟩

end RateEngine
