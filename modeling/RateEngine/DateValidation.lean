import RateEngine.WindowValidity

/-!
# Which texts the date check decides

`check_date_valid` scans three numbers and compares the day with a table of twelve months.  It
bounds the month from above only and the day from above only, and the numbers that the scan does not
set keep what the memory held.  This file says on which texts the answer is that of the calendar
whatever the memory held.
-/

namespace RateEngine

/-! ## The calendar -/

/-- The number of days of a month in the Gregorian calendar. -/
def gregorianDays (year mon : ℤ) : ℤ :=
  if mon = 2 then
    if 4 ∣ year ∧ (100 ∣ year → 400 ∣ year) then 29 else 28
  else if mon = 4 ∨ mon = 6 ∨ mon = 9 ∨ mon = 11 then 30
  else 31

/-- A date of the Gregorian calendar. -/
structure IsGregorianDate (year mon day : ℤ) : Prop where
  mon_ge : 1 ≤ mon
  mon_le : mon ≤ 12
  day_ge : 1 ≤ day
  day_le : day ≤ gregorianDays year mon

theorem gregorianDays_bounds (year mon : ℤ) :
    28 ≤ gregorianDays year mon ∧ gregorianDays year mon ≤ 31 := by
  rw [gregorianDays]
  repeat' split
  all_goals decide

/-- Only the last day of February depends on the year. -/
theorem le_gregorianDays_congr {year year' mon day : ℤ}
    (same : mon = 2 → day = 29 → year' = year) :
    day ≤ gregorianDays year' mon ↔ day ≤ gregorianDays year mon := by
  by_cases february : mon = 2
  · by_cases last : day = 29
    · rw [same february last]
    · simp only [gregorianDays, if_pos february]
      split <;> split <;> omega
  · simp only [gregorianDays, if_neg february]

/-- Inside the table the days are those of the calendar. -/
theorem daysinmonth_eq (unset : Unset) (year : ℤ) {mon : ℤ} (low : 1 ≤ mon) (high : mon ≤ 12) :
    daysinmonth unset year mon = gregorianDays year mon := by
  interval_cases mon
  case «2» =>
    simp only [daysinmonth, gregorianDays, if_true]
    refine if_congr ?_ rfl rfl
    omega
  all_goals simp [daysinmonth, gregorianDays]

/-! ## Texts of dates -/

/-- An integer in decimal digits, with a sign or without one. -/
inductive WritesInt : List Char → ℤ → Prop where
  | plain {digits : List Char} (nonempty : digits ≠ []) (all : ∀ c ∈ digits, c.isDigit = true) :
      WritesInt digits (digitsValue digits)
  | plus {digits : List Char} (nonempty : digits ≠ []) (all : ∀ c ∈ digits, c.isDigit = true) :
      WritesInt ('+' :: digits) (digitsValue digits)
  | minus {digits : List Char} (nonempty : digits ≠ []) (all : ∀ c ∈ digits, c.isDigit = true) :
      WritesInt ('-' :: digits) (-digitsValue digits)

/-- A text of the form `y-m-d`. -/
def WritesDate (str : String) (year mon day : ℤ) : Prop :=
  ∃ yearText monText dayText, WritesInt yearText year ∧ WritesInt monText mon ∧
    WritesInt dayText day ∧ str.toList = yearText ++ '-' :: (monText ++ '-' :: dayText)

/-- A text that writes a date of the calendar. -/
def IsDateText (str : String) : Prop :=
  ∃ year mon day, WritesDate str year mon day ∧ IsGregorianDate year mon day

/-- A written integer is read up to the first character that is no digit. -/
theorem WritesInt.scanInt_append {text rest : List Char} {n : ℤ} (writes : WritesInt text n)
    (stops : ∀ c ∈ rest.head?, c.isDigit = false) : scanInt (text ++ rest) = some (n, rest) := by
  have signed {digits : List Char} (nonempty : digits ≠ [])
      (all : ∀ c ∈ digits, c.isDigit = true) :
      (digits ++ rest).takeWhile Char.isDigit = digits ∧
        (digits ++ rest).dropWhile Char.isDigit = rest ∧
        ∃ first later, digits = first :: later := by
    rw [List.takeWhile_append_of_pos all, List.dropWhile_append_of_pos all]
    refine ⟨?_, ?_, List.exists_cons_of_ne_nil nonempty⟩
    all_goals
      cases rest with
      | nil => simp
      | cons c rest => simp [stops c rfl]
  cases writes with
  | plain nonempty all => exact scanInt_digits nonempty all stops
  | plus nonempty all =>
      obtain ⟨taken, dropped, first, later, rfl⟩ := signed nonempty all
      have visible : ('+' : Char).isWhitespace = false := by decide
      rw [List.cons_append, scanInt, List.dropWhile_cons_of_neg (by simp [visible])]
      simp only [taken, dropped, Bool.false_eq_true, if_false]
  | minus nonempty all =>
      obtain ⟨taken, dropped, first, later, rfl⟩ := signed nonempty all
      have visible : ('-' : Char).isWhitespace = false := by decide
      rw [List.cons_append, scanInt, List.dropWhile_cons_of_neg (by simp [visible])]
      simp only [taken, dropped, if_true]

/-- The scan reads the three numbers of a text of the form. -/
theorem WritesDate.scanDate_eq {str : String} {year mon day : ℤ}
    (writes : WritesDate str year mon day) : scanDate str = [year, mon, day] := by
  obtain ⟨yearText, monText, dayText, year_writes, mon_writes, day_writes, text⟩ := writes
  have dash (rest : List Char) : ∀ c ∈ ('-' :: rest).head?, c.isDigit = false := by
    rintro c ⟨⟩
    decide
  have scan_day : scanInt (dayText ++ []) = some (day, []) := day_writes.scanInt_append (by simp)
  rw [List.append_nil] at scan_day
  rw [scanDate, text, year_writes.scanInt_append (dash _)]
  simp only [mon_writes.scanInt_append (dash _), scan_day]

/-! ## The check with what it reads -/

/-- A number that an `int` holds. -/
def IsInt (n : ℤ) : Prop := -2 ^ 31 ≤ n ∧ n < 2 ^ 31

instance (n : ℤ) : Decidable (IsInt n) := inferInstanceAs (Decidable (_ ∧ _))

/-- What `%d` stores for a number: the number when it is an `int`, and nothing is said of others. -/
structure IntConversion where
  store : ℤ → ℤ
  store_of_isInt : ∀ {n}, IsInt n → store n = n

/-- The conversion that stores one value for every number that is no `int`. -/
def IntConversion.constant (value : ℤ) : IntConversion where
  store n := if IsInt n then n else value
  store_of_isInt fits := if_pos fits

theorem IntConversion.constant_store {value n : ℤ} (outside : ¬ IsInt n) :
    (constant value).store n = value := if_neg outside

/-- `y`, `m` and `d` of `check_date_valid` after the scan. -/
def scannedDate (unset : Unset) (conversion : IntConversion) (str : String) : ℤ × ℤ × ℤ :=
  let numbers := (scanDate str).map conversion.store
  (numbers[0]?.getD unset.year, numbers[1]?.getD unset.mon, numbers[2]?.getD unset.day)

/-- The index at which `check_date_valid` reads `daysinmonth`, if it does. -/
def daysinmonthIndex (unset : Unset) (conversion : IntConversion) (str : String) : Option ℤ :=
  let (_, m, _) := scannedDate unset conversion str
  if m < 13 then some (m - 1) else none

/-- The answer of `check_date_valid`. -/
def checkScannedDate (unset : Unset) (conversion : IntConversion) (str : String) : Bool :=
  let (y, m, d) := scannedDate unset conversion str
  m < 13 && d ≤ daysinmonth unset y m

/-- On numbers that an `int` holds this is the check of the rating. -/
theorem checkScannedDate_eq {unset : Unset} {conversion : IntConversion} {str : String}
    (fits : ∀ n ∈ scanDate str, IsInt n) :
    checkScannedDate unset conversion str = checkDateValid unset str := by
  have kept : (scanDate str).map conversion.store = scanDate str := by
    conv_rhs => rw [← List.map_id (scanDate str)]
    exact List.map_congr_left fun n member => conversion.store_of_isInt (fits n member)
  rw [checkScannedDate, scannedDate, kept]
  rfl

/-- What is asked of one check: the table is read inside, and the answer is that of the calendar. -/
structure DateChecked (unset : Unset) (conversion : IntConversion) (str : String) : Prop where
  inside : ∀ i ∈ daysinmonthIndex unset conversion str, 0 ≤ i ∧ i < 12
  decides : checkScannedDate unset conversion str = true ↔ IsDateText str

/-- The texts on which the check does not depend on the lower bounds that it leaves out, on a blank
or a tail that the scan passes over, or on a value that the scan does not set. -/
def DecidedDate (str : String) : Prop :=
  match scanDate str with
  | [year, mon, day] =>
      IsInt mon ∧ 1 ≤ mon ∧ (mon ≤ 12 →
        IsInt day ∧ (mon = 2 → day = 29 → IsInt year) ∧
          (WritesDate str year mon day ∧ 1 ≤ day ∨ gregorianDays year mon < day))
  | [_, mon] => IsInt mon ∧ 13 ≤ mon
  | _ => False

theorem scanDate_length_le (str : String) : (scanDate str).length ≤ 3 := by
  rw [scanDate]
  repeat' split
  all_goals simp

section Scanned

variable {unset : Unset} {conversion : IntConversion} {str : String} {year mon day : ℤ}

/-- The check after the scan gave `y`, `m` and `d`. -/
theorem dateChecked_iff {y m d : ℤ} (scanned : scannedDate unset conversion str = (y, m, d)) :
    DateChecked unset conversion str ↔
      1 ≤ m ∧ (m ≤ 12 ∧ d ≤ gregorianDays y m ↔ IsDateText str) := by
  have index : daysinmonthIndex unset conversion str = if m < 13 then some (m - 1) else none := by
    rw [daysinmonthIndex, scanned]
  have answer : checkScannedDate unset conversion str = true ↔
      m ≤ 12 ∧ d ≤ daysinmonth unset y m := by
    rw [checkScannedDate, scanned]
    simp only [Bool.and_eq_true, decide_eq_true_eq]
    omega
  have table (low : 1 ≤ m) : checkScannedDate unset conversion str = true ↔
      m ≤ 12 ∧ d ≤ gregorianDays y m := by
    rw [answer]
    refine and_congr_right fun high => ?_
    rw [daysinmonth_eq unset y low high]
  constructor
  · intro checked
    have low : 1 ≤ m := by
      by_contra below
      have := (checked.inside (m - 1) (by rw [index, if_pos (by omega)]; rfl)).1
      omega
    exact ⟨low, (table low).symm.trans checked.decides⟩
  · rintro ⟨low, decides⟩
    refine ⟨fun i read => ?_, (table low).trans decides⟩
    rw [index] at read
    split at read
    · obtain rfl := Option.mem_some.mp read
      omega
    · cases read

/-- A text that scans to three numbers writes a date of the calendar only as these numbers. -/
theorem isDateText_iff (scan : scanDate str = [year, mon, day]) :
    IsDateText str ↔ WritesDate str year mon day ∧ IsGregorianDate year mon day := by
  constructor
  · rintro ⟨y, m, d, writes, date⟩
    obtain ⟨rfl, rfl, rfl⟩ : y = year ∧ m = mon ∧ d = day := by
      simpa using writes.scanDate_eq.symm.trans scan
    exact ⟨writes, date⟩
  · rintro ⟨writes, date⟩
    exact ⟨year, mon, day, writes, date⟩

theorem not_isDateText (scan : (scanDate str).length ≠ 3) : ¬ IsDateText str := by
  rintro ⟨y, m, d, writes, -⟩
  rw [writes.scanDate_eq] at scan
  exact scan rfl

theorem scannedDate_three (scan : scanDate str = [year, mon, day]) :
    scannedDate unset conversion str =
      (conversion.store year, conversion.store mon, conversion.store day) := by
  rw [scannedDate, scan]
  rfl

theorem scannedDate_two (scan : scanDate str = [year, mon]) :
    scannedDate unset conversion str =
      (conversion.store year, conversion.store mon, unset.day) := by
  rw [scannedDate, scan]
  rfl

/-- The month that the conversion stores is never below the table only when it is an `int`. -/
theorem isInt_of_store (low : ∀ conversion : IntConversion, 1 ≤ conversion.store mon) :
    IsInt mon := by
  by_contra outside
  have := low (.constant 0)
  rw [IntConversion.constant_store outside] at this
  omega

/-- The check of three scanned numbers. -/
theorem dateChecked_three (scan : scanDate str = [year, mon, day]) :
    DateChecked unset conversion str ↔ 1 ≤ conversion.store mon ∧
      (conversion.store mon ≤ 12 ∧
          conversion.store day ≤ gregorianDays (conversion.store year) (conversion.store mon) ↔
        WritesDate str year mon day ∧ IsGregorianDate year mon day) := by
  rw [dateChecked_iff (scannedDate_three scan), isDateText_iff scan]

theorem decidedDate_three (scan : scanDate str = [year, mon, day]) :
    DecidedDate str ↔ IsInt mon ∧ 1 ≤ mon ∧ (mon ≤ 12 →
      IsInt day ∧ (mon = 2 → day = 29 → IsInt year) ∧
        (WritesDate str year mon day ∧ 1 ≤ day ∨ gregorianDays year mon < day)) := by
  rw [DecidedDate, scan]

/-- A day that is no `int` may be stored as the first of the month. -/
theorem isInt_day_of_passes
    (passes : ∀ conversion : IntConversion,
      conversion.store day ≤ gregorianDays (conversion.store year) mon ↔
        WritesDate str year mon day ∧ IsGregorianDate year mon day) :
    IsInt day := by
  by_contra outside
  have first := passes (.constant 1)
  rw [IntConversion.constant_store outside] at first
  have first_le := (gregorianDays_bounds ((IntConversion.constant 1).store year) mon).1
  obtain ⟨-, date⟩ := first.mp (by omega)
  have low := date.day_ge
  have high := date.day_le.trans (gregorianDays_bounds year mon).2
  exact outside ⟨by omega, by omega⟩

/-- The last day of February passes for the year that is stored. -/
theorem isInt_year_of_passes {date : Prop}
    (passes : ∀ conversion : IntConversion,
      day ≤ gregorianDays (conversion.store year) mon ↔ date)
    (february : mon = 2) (last : day = 29) : IsInt year := by
  by_contra outside
  have common := passes (.constant 1)
  have leap := passes (.constant 4)
  rw [IntConversion.constant_store outside, february, last] at common leap
  have days_common : gregorianDays 1 2 = 28 := by decide
  have days_leap : gregorianDays 4 2 = 29 := by decide
  rw [days_common] at common
  rw [days_leap] at leap
  have := common.mpr (leap.mp le_rfl)
  omega

theorem decidedDate_of_dateChecked (scan : scanDate str = [year, mon, day])
    (checked : ∀ unset conversion, DateChecked unset conversion str) : DecidedDate str := by
  simp only [dateChecked_three scan] at checked
  have mon_int : IsInt mon := isInt_of_store fun conversion => (checked {} conversion).1
  have mon_ge := (checked {} (.constant 0)).1
  simp only [IntConversion.store_of_isInt _ mon_int] at checked mon_ge
  refine (decidedDate_three scan).mpr ⟨mon_int, mon_ge, fun mon_le => ?_⟩
  have passes (conversion : IntConversion) := (checked {} conversion).2
  simp only [mon_le, true_and] at passes
  have day_int := isInt_day_of_passes passes
  simp only [IntConversion.store_of_isInt _ day_int] at passes
  have year_int := isInt_year_of_passes passes
  refine ⟨day_int, year_int, ?_⟩
  have own := passes (.constant 0)
  rw [le_gregorianDays_congr fun february last =>
    (IntConversion.constant 0).store_of_isInt (year_int february last)] at own
  by_cases day_le : day ≤ gregorianDays year mon
  · obtain ⟨writes, date⟩ := own.mp day_le
    exact .inl ⟨writes, date.day_ge⟩
  · exact .inr (not_le.mp day_le)

theorem dateChecked_of_decidedDate (scan : scanDate str = [year, mon, day])
    (decided : DecidedDate str) : DateChecked unset conversion str := by
  obtain ⟨mon_int, mon_ge, within⟩ := (decidedDate_three scan).mp decided
  rw [dateChecked_three scan, conversion.store_of_isInt mon_int]
  refine ⟨mon_ge, ?_⟩
  by_cases mon_le : mon ≤ 12
  · obtain ⟨day_int, year_int, day_part⟩ := within mon_le
    rw [conversion.store_of_isInt day_int, le_gregorianDays_congr fun february last =>
      conversion.store_of_isInt (year_int february last)]
    constructor
    · rintro ⟨-, day_le⟩
      rcases day_part with ⟨writes, day_ge⟩ | late
      · exact ⟨writes, mon_ge, mon_le, day_ge, day_le⟩
      · omega
    · rintro ⟨-, date⟩
      exact ⟨mon_le, date.day_le⟩
  · exact iff_of_false (fun passes => mon_le passes.1) fun date => mon_le date.2.mon_le

/-- A text with two numbers is refused for its month, or for no reason that it gives. -/
theorem dateChecked_two_iff (scan : scanDate str = [year, mon]) :
    (∀ unset conversion, DateChecked unset conversion str) ↔ DecidedDate str := by
  have decided : DecidedDate str ↔ IsInt mon ∧ 13 ≤ mon := by
    rw [DecidedDate, scan]
  have refused : ¬ IsDateText str := not_isDateText (by simp [scan])
  rw [decided]
  simp only [dateChecked_iff (scannedDate_two scan), iff_false_right refused]
  constructor
  · intro checked
    have mon_int : IsInt mon := isInt_of_store fun conversion => (checked {} conversion).1
    obtain ⟨-, late⟩ := checked {} (.constant 0)
    rw [IntConversion.store_of_isInt _ mon_int] at late
    refine ⟨mon_int, ?_⟩
    by_contra early
    have days := (gregorianDays_bounds ((IntConversion.constant 0).store year) mon).1
    have unset_day : ({} : Unset).day = 0 := rfl
    exact late ⟨by omega, by omega⟩
  · rintro ⟨mon_int, late⟩ unset conversion
    rw [conversion.store_of_isInt mon_int]
    exact ⟨by omega, fun passes => absurd passes.1 (by omega)⟩

end Scanned

end RateEngine
