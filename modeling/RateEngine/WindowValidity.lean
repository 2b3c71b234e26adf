import RateEngine.BillingWindows

/-!
# Computed dates and their validation

`pcard_manager` puts the billing day into the months of a window; `rt_prerating_process` reads the
dates of a card back and blocks the card when one of them is not in the calendar.  This file says
for which windows the dates that the program computed itself pass.
-/

namespace RateEngine

/-! ## Reading a date back -/

/-- A digit is neither a blank nor a sign. -/
theorem isDigit_plain {c : Char} (digit : c.isDigit = true) :
    c.isWhitespace = false ∧ c ≠ '-' ∧ c ≠ '+' := by
  refine ⟨?_, ?_, ?_⟩
  · simp only [Char.isDigit, Char.isWhitespace, Bool.and_eq_true, decide_eq_true_eq] at digit ⊢
    simp only [Bool.or_eq_false_iff, decide_eq_false_iff_not]
    refine ⟨⟨⟨?_, ?_⟩, ?_⟩, ?_⟩ <;> rintro rfl <;> exact absurd digit (by decide)
  · rintro rfl
    cases digit
  · rintro rfl
    cases digit

/-- A number is read up to the first character that is no digit. -/
theorem scanInt_digits {digits rest : List Char} (nonempty : digits ≠ [])
    (all : ∀ c ∈ digits, c.isDigit = true) (stops : ∀ c ∈ rest.head?, c.isDigit = false) :
    scanInt (digits ++ rest) = some (((digitsValue digits : ℕ) : ℤ), rest) := by
  have taken : (digits ++ rest).takeWhile Char.isDigit = digits := by
    rw [List.takeWhile_append_of_pos all]
    cases rest with
    | nil => simp
    | cons c rest => simp [stops c rfl]
  have dropped : (digits ++ rest).dropWhile Char.isDigit = rest := by
    rw [List.dropWhile_append_of_pos all]
    cases rest with
    | nil => simp
    | cons c rest => simp [stops c rfl]
  cases digits with
  | nil => exact absurd rfl nonempty
  | cons c digits =>
      obtain ⟨visible, no_minus, no_plus⟩ := isDigit_plain (all c List.mem_cons_self)
      rw [List.cons_append] at taken dropped ⊢
      rw [scanInt, List.dropWhile_cons_of_neg (by simp [visible])]
      split
      rename_i negative text signed
      split at signed
      · rename_i minus
        exact absurd (List.cons.inj minus).1 no_minus
      · rename_i plus
        exact absurd (List.cons.inj plus).1 no_plus
      · obtain ⟨rfl, rfl⟩ := Prod.mk.inj signed
        rw [taken]
        simp [dropped]

theorem digitsValue_toDigits (n : ℕ) : digitsValue (Nat.toDigits 10 n) = n :=
  Nat.ofDigitChars_eq_foldl.symm.trans Nat.ofDigitChars_ten_toDigits

theorem digitsValue_digits {n : ℕ} (n_lt : n < 100) : digitsValue (IsoDate.digits 2 n) = n :=
  IsoDate.value_digits n_lt

/-- The text of a date is read back as the date. -/
theorem scanDate_dateString (year : ℕ) {mon day : ℕ} (mon_lt : mon < 100) (day_lt : day < 100) :
    scanDate (dateString year mon day) = [(year : ℤ), mon, day] := by
  have year_text : (toString (year : ℤ)).toList = Nat.toDigits 10 year := by
    change (String.ofList (Nat.toDigits 10 year)).toList = _
    exact String.toList_ofList
  have mon_text : (twoDigits mon).toList = IsoDate.digits 2 mon :=
    twoDigits_toList (Int.natCast_nonneg mon) (by exact_mod_cast mon_lt)
  have day_text : (twoDigits day).toList = IsoDate.digits 2 day :=
    twoDigits_toList (Int.natCast_nonneg day) (by exact_mod_cast day_lt)
  have text : (dateString year mon day).toList =
      Nat.toDigits 10 year ++ '-' ::
        (IsoDate.digits 2 mon ++ '-' :: (IsoDate.digits 2 day ++ [])) := by
    rw [dateString]
    simp only [String.toList_append, year_text, mon_text, day_text]
    simp
  have scan_year (rest : List Char) :
      scanInt (Nat.toDigits 10 year ++ '-' :: rest) = some ((year : ℤ), '-' :: rest) := by
    rw [scanInt_digits Nat.toDigits_ne_nil, digitsValue_toDigits]
    · exact fun c member => Nat.isDigit_of_mem_toDigits (by decide) (by decide) member
    · simp
  have scan_field {n : ℕ} (n_lt : n < 100) (rest : List Char)
      (stops : ∀ c ∈ rest.head?, c.isDigit = false) :
      scanInt (IsoDate.digits 2 n ++ rest) = some ((n : ℤ), rest) := by
    rw [scanInt_digits (List.ne_nil_of_length_pos (by simp))
      (fun _ => IsoDate.isDigit_of_mem_digits)
      stops, digitsValue_digits n_lt]
  have scan_mon : scanInt (IsoDate.digits 2 mon ++ '-' :: (IsoDate.digits 2 day ++ [])) =
      some ((mon : ℤ), '-' :: (IsoDate.digits 2 day ++ [])) := scan_field mon_lt _ (by simp)
  have scan_day : scanInt (IsoDate.digits 2 day ++ []) = some ((day : ℤ), []) :=
    scan_field day_lt [] (by simp)
  rw [scanDate, text, scan_year]
  simp only [scan_mon, scan_day]

/-- A written date passes when its month has the day. -/
theorem checkDateValid_dateString (unset : Unset) (year : ℕ) {mon day : ℕ} (low : 1 ≤ mon)
    (high : mon ≤ 12) (day_lt : day < 100) :
    checkDateValid unset (dateString year mon day) = true ↔ day ≤ monthDays year mon := by
  have same : daysinmonth unset year mon = daysinmonth {} year mon := by
    interval_cases mon <;> rfl
  have bounds := daysinmonth_bounds year low high
  rw [checkDateValid, scanDate_dateString year (by omega) day_lt]
  simp only [List.getElem?_cons_zero, List.getElem?_cons_succ, Option.getD_some, same, monthDays,
    Bool.and_eq_true, decide_eq_true_eq]
  omega

/-! ## Computed windows -/

/-- Both months of the window have the billing day. -/
def DayInMonths (bday : ℕ) (date : ℕ × ℕ × ℕ) : Prop :=
  bday ≤ monthDays (windowMonth bday date).1 (windowMonth bday date).2 ∧
    bday ≤ monthDays (nextMonth (windowMonth bday date)).1 (nextMonth (windowMonth bday date)).2

instance (bday : ℕ) (date : ℕ × ℕ × ℕ) : Decidable (DayInMonths bday date) :=
  inferInstanceAs (Decidable (_ ∧ _))

/-- The card may not be used because of the payments of its account. -/
def Overdue (env : Env) (db : Db) (rtp : Racc) (card : Pcard) : Prop :=
  card.id ≠ 0 ∧ rtp.pre.epoch = 0 ∧
    paymentOverdue env rtp.bacc (rtDataQBalCount env db rtp)
      (env.localtime rtp.pre.cardTime).mday = true

/-- The dates of the window pass the validation, and a card with them is not
blocked for its dates. -/
structure WindowPasses (bday : ℕ) (tm : Tm) : Prop where
  valid : ∀ unset : Unset, checkDateValid unset (tm.window bday).1 = true ∧
    checkDateValid unset (tm.window bday).2 = true
  unblocked : ∀ (env : Env) (db : Db) (rtp : Racc) (card : Pcard),
    card.start = (tm.window bday).1 → card.stop = (tm.window bday).2 → ¬ Overdue env db rtp card →
      rtPreratingProcess env db rtp card = (0, rtPreratingLoad env db rtp card, db)

section Computed

variable {bday : ℕ} {tm : Tm}

theorem dateString_ne (year mon day : ℤ) : dateString year mon day ≠ "" := by
  intro empty
  have text := congrArg String.toList empty
  simp [dateString] at text

theorem checkDateValid_window (date : tm.IsCallDate) (bday_lt : bday < 100) (unset : Unset) :
    (checkDateValid unset (tm.window bday).1 = true ∧
      checkDateValid unset (tm.window bday).2 = true) ↔ DayInMonths bday tm.castDate := by
  obtain ⟨low, high⟩ := windowMonth_low date bday
  obtain ⟨next_low, next_high, -, -⟩ := nextMonth_bounds low high
  rw [date.window_eq, DayInMonths, checkDateValid_dateString unset _ low high bday_lt,
    checkDateValid_dateString unset _ next_low next_high bday_lt]

/-- What becomes of a card that has the dates of the window. -/
theorem rtPreratingProcess_window (date : tm.IsCallDate) (bday_lt : bday < 100)
    {env : Env} {db : Db}
    {rtp : Racc} {card : Pcard} (start : card.start = (tm.window bday).1)
    (stop : card.stop = (tm.window bday).2) (paid : ¬ Overdue env db rtp card) :
    rtPreratingProcess env db rtp card =
      if DayInMonths bday tm.castDate then (0, rtPreratingLoad env db rtp card, db)
      else (1, rtp, rtDataQPcardSet env db card.id .block) := by
  have start_ne : (tm.window bday).1 ≠ "" := by
    rw [date.window_eq]
    exact dateString_ne _ _ _
  have stop_ne : (tm.window bday).2 ≠ "" := by
    rw [date.window_eq]
    exact dateString_ne _ _ _
  rw [Overdue] at paid
  have passes := checkDateValid_window date bday_lt env.unset
  rw [rtPreratingProcess, if_neg paid, start, stop, if_pos ⟨start_ne, stop_ne⟩]
  by_cases days : DayInMonths bday tm.castDate
  · obtain ⟨start_valid, stop_valid⟩ := passes.mpr days
    simp [days, start_valid, stop_valid]
  · have fails := not_and_or.mp (passes.not.mpr days)
    rw [if_neg days, if_pos fails]

end Computed

/-- The dates that the program computes pass, and never block a card, exactly when both months of
the window have the billing day. -/
theorem windowPasses_iff {bday : ℕ} (bday_le : bday ≤ 31) {tm : Tm} (date : tm.IsCallDate) :
    WindowPasses bday tm ↔ DayInMonths bday tm.castDate := by
  have bday_lt : bday < 100 := by omega
  constructor
  · intro passes
    exact (checkDateValid_window date bday_lt {}).mp (passes.valid {})
  · intro days
    refine ⟨fun unset => (checkDateValid_window date bday_lt unset).mpr days, ?_⟩
    intro env db rtp card start stop paid
    rw [rtPreratingProcess_window date bday_lt start stop paid, if_pos days]

/-- The middle of February, with the billing day on the last of January. -/
def midFebruary : Tm :=
  { year := 2023, mon := 2, mday := 10, hour := 10, min := 0, sec := 0, wday := 5 }

theorem windowPasses_midFebruary :
    WindowPasses 15 midFebruary ↔ DayInMonths 15 midFebruary.castDate :=
  windowPasses_iff (by decide) ⟨by decide, by decide⟩

/-- The window ends on the thirty-first of February. -/
theorem midFebruary_fails : ¬ WindowPasses 31 midFebruary := by
  intro passes
  exact absurd (passes.valid {}).2 (by decide +kernel)

end RateEngine
