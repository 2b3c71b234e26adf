import RateEngine.RateChoice
import RateEngine.TimeCondParity

/-!
# What a time condition stands for

A condition is a text for each of its parts; what it stands for is a range of hours, a range of week
days and a date.  `tc_ts_cmp` compares `HH:MM` with `HH:MM:SS` as texts, which leaves the first hour
in and the second one out, and a range that does not rise goes over midnight.  This file states the
meaning of a condition without texts and proves that the comparison decides it.
-/

namespace RateEngine

/-! ## The meaning of a condition -/

/-- A time of day in minutes. -/
structure ClockTime where
  hour : ℕ
  min : ℕ
  hour_lt : hour < 24
  min_lt : min < 60

/-- Seconds since midnight. -/
def ClockTime.seconds (time : ClockTime) : ℕ := 3600 * time.hour + 60 * time.min

/-- `HH:MM`. -/
def ClockTime.text (time : ClockTime) : List Char :=
  IsoDate.digits 2 time.hour ++ ':' :: IsoDate.digits 2 time.min

/-- The times from `start` on and before `stop`, around a cycle of `length`; the whole cycle when
the two are the same. -/
def CyclicIco (length start stop time : ℕ) : Prop :=
  start = stop ∨ (time + length - start) % length < (stop + length - start) % length

/-- A condition: hours or none, the first and the last week day, a date or none. -/
structure Condition where
  hours : Option (ClockTime × ClockTime)
  firstDay : Fin 7
  lastDay : Fin 7
  date : Option (ℕ × ℕ × ℕ)
  date_fits : ∀ day ∈ date, IsoDate.Fits day.1 day.2.1 day.2.2

/-- Seconds since midnight of a time. -/
def Tm.seconds (tm : Tm) : ℕ := 3600 * tm.hour.toNat + 60 * tm.min.toNat + tm.sec.toNat

/-- The condition holds at a time on the week day with a number: its date is the date or the day
lies between its days, and the time of day lies in its hours, if it has any. -/
def Condition.HoldsAt (cond : Condition) (tm : Tm) (dow : ℤ) : Prop :=
  (cond.date = some tm.castDate ∨ (cond.firstDay : ℤ) + 1 ≤ dow ∧ dow ≤ (cond.lastDay : ℤ) + 1) ∧
    ∀ range ∈ cond.hours, CyclicIco 86400 range.1.seconds range.2.seconds tm.seconds

/-- The row spells the condition. -/
structure TimeCond.Spells (tc : TimeCond) (cond : Condition) : Prop where
  id_ne : tc.id ≠ 0
  hours : tc.hours.toList =
    match cond.hours with
    | none => []
    | some (start, stop) => start.text ++ '-' :: stop.text
  days : tc.dweek.toList =
    (weekDays[cond.firstDay]).toList ++ '-' :: (weekDays[cond.lastDay]).toList
  date : tc.tcDate.toList =
    match cond.date with
    | none => []
    | some (year, mon, day) => IsoDate.text year mon day

/-! ## Hours -/

/-- Around a cycle an interval that rises lies between its ends, and another one outside. -/
theorem cyclicIco_iff {length start stop time : ℕ} (start_lt : start < length)
    (stop_lt : stop < length) (time_lt : time < length) :
    CyclicIco length start stop time ↔
      if start < stop then start ≤ time ∧ time < stop else start ≤ time ∨ time < stop := by
  have turn {point : ℕ} (point_lt : point < length) : (point + length - start) % length =
      if start ≤ point then point - start else point + length - start := by
    split
    · rw [show point + length - start = point - start + length by omega, Nat.add_mod_right,
        Nat.mod_eq_of_lt (by omega)]
    · rw [Nat.mod_eq_of_lt (by omega)]
  rw [CyclicIco, turn time_lt, turn stop_lt]
  split <;> split <;> split <;> omega

namespace ClockTime

theorem seconds_lt (time : ClockTime) : time.seconds < 86400 := by
  have hour_lt := time.hour_lt
  have min_lt := time.min_lt
  unfold seconds
  omega

theorem text_lt_text_iff (time other : ClockTime) :
    time.text < other.text ↔ time.seconds < other.seconds := by
  have hour_lt := time.hour_lt
  have min_lt := time.min_lt
  have other_hour_lt := other.hour_lt
  have other_min_lt := other.min_lt
  rw [text, text, IsoDate.digits_append_lt_iff _ _ _ (by omega) (by omega),
    IsoDate.digits_lt_iff (by omega) (by omega)]
  unfold seconds
  omega

/-- `HH:MM` comes before `HH:MM:SS` from its own first second on. -/
theorem text_lt_clock_iff (time : ClockTime) {hour min sec : ℕ} (hour_lt : hour < 24)
    (min_lt : min < 60) (sec_lt : sec < 60) :
    time.text < IsoDate.clock hour min sec ↔ time.seconds ≤ 3600 * hour + 60 * min + sec := by
  have own_hour_lt := time.hour_lt
  have own_min_lt := time.min_lt
  -- the minutes alone come before the same minutes with seconds behind them
  have minutes : IsoDate.digits 2 time.min <
      IsoDate.digits 2 min ++ ':' :: IsoDate.digits 2 sec ↔ time.min ≤ min := by
    have blocks : IsoDate.digits 2 time.min ++ [] <
          IsoDate.digits 2 min ++ ':' :: IsoDate.digits 2 sec ↔
        IsoDate.digits 2 time.min < IsoDate.digits 2 min ∨
          IsoDate.digits 2 time.min = IsoDate.digits 2 min ∧ [] < ':' :: IsoDate.digits 2 sec :=
      IsoDate.append_lt_append_iff (by simp)
    rw [List.append_nil] at blocks
    rw [blocks, IsoDate.digits_lt_iff (by omega) (by omega)]
    constructor
    · rintro (less | ⟨same, -⟩)
      · exact less.le
      · exact (IsoDate.digits_injective (by omega) (by omega) same).le
    · intro at_most
      rcases at_most.lt_or_eq with less | same
      · exact Or.inl less
      · exact Or.inr ⟨by rw [same], List.nil_lt_cons _ _⟩
  rw [text, IsoDate.clock, IsoDate.digits_append_lt_iff _ _ _ (by omega) (by omega), minutes]
  unfold seconds
  omega

theorem isPart_text (time : ClockTime) : IsPart time.text := by
  constructor
  · simp [text]
  · have plain {n : ℕ} : '-' ∉ IsoDate.digits 2 n :=
      fun member => absurd (IsoDate.isDigit_of_mem_digits member) (by decide)
    simp [text, plain]

end ClockTime

namespace Tm.IsValid

variable {tm : Tm} (valid : tm.IsValid)
include valid

theorem seconds_lt : tm.seconds < 86400 := by
  have hour_lt := valid.hour_lt
  have min_lt := valid.min_lt
  have sec_lt := valid.sec_lt
  unfold Tm.seconds
  omega

theorem text_lt_time_iff (clock : ClockTime) :
    clock.text < tm.time.toList ↔ clock.seconds ≤ tm.seconds := by
  have hour_lt := valid.hour_lt
  have min_lt := valid.min_lt
  have sec_lt := valid.sec_lt
  rw [valid.time_toList, clock.text_lt_clock_iff (by omega) (by omega) (by omega)]
  rfl

/-- The comparison of texts decides whether a time lies in a range of hours. -/
theorem hoursMatch_iff (start stop : ClockTime) :
    hoursMatch [start.text, stop.text] tm.time.toList = true ↔
      CyclicIco 86400 start.seconds stop.seconds tm.seconds := by
  rw [cyclicIco_iff start.seconds_lt stop.seconds_lt valid.seconds_lt]
  simp only [hoursMatch, List.getElem?_cons_zero, List.getElem?_cons_succ, valid.time_le,
    valid.le_time, Bool.true_and, start.text_lt_text_iff stop]
  split
  · simp [charsLe, valid.text_lt_time_iff]
  · simp [charsLe, valid.text_lt_time_iff]

end Tm.IsValid

/-! ## One condition -/

namespace TimeCond.Spells

variable {tc : TimeCond} {cond : Condition} (spells : tc.Spells cond)
include spells

/-- A row that spells a condition is well formed. -/
theorem wellFormed : tc.WellFormed where
  id_ne := spells.id_ne
  hours := by
    have hours := spells.hours
    cases given : cond.hours with
    | none => exact Or.inl (by simpa [given, String.toList_eq_nil_iff] using hours)
    | some range =>
        simp only [given] at hours
        exact Or.inr ⟨_, _, range.1.isPart_text, range.2.isPart_text, hours⟩
  days := Or.inr ⟨_, List.getElem_mem _, _, List.getElem_mem _, spells.days⟩
  date := by
    have date := spells.date
    cases given : cond.date with
    | none => exact Or.inl (by simpa [given, String.toList_eq_nil_iff] using date)
    | some day =>
        simp only [given] at date
        exact Or.inr ⟨_, _, _, cond.date_fits day given, date⟩

theorem inHours_iff {tm : Tm} (valid : tm.IsValid) :
    tc.inHours tm = true ↔
      ∀ range ∈ cond.hours, CyclicIco 86400 range.1.seconds range.2.seconds tm.seconds := by
  have hours := spells.hours
  cases given : cond.hours with
  | none =>
      have empty : tc.hours = "" := by simpa [given, String.toList_eq_nil_iff] using hours
      have tokens : strtokDash "" = [] := by decide
      simp [TimeCond.inHours, empty, tokens, hoursMatch]
  | some range =>
      obtain ⟨start, stop⟩ := range
      simp only [given] at hours
      have split := splitOn_dash start.isPart_text stop.isPart_text
      have tokens : strtokDash tc.hours = [start.text, stop.text] := by
        simp [strtokDash, hours, split, start.isPart_text.1, stop.isPart_text.1]
      rw [TimeCond.inHours, tokens, valid.hoursMatch_iff]
      simp

theorem covers_iff (dow : ℤ) :
    tc.Covers dow ↔ (cond.firstDay : ℤ) + 1 ≤ dow ∧ dow ≤ (cond.lastDay : ℤ) + 1 := by
  have numbered : ∀ day : Fin 7, caseWeekDay (weekDays[day]).toList = some ((day : ℤ) + 1) := by
    decide
  have is_part (day : Fin 7) : IsPart (weekDays[day]).toList :=
    isPart_of_mem_weekDays _ (List.getElem_mem _)
  have split := splitOn_dash (is_part cond.firstDay) (is_part cond.lastDay)
  have range : tc.dayRange = some ((cond.firstDay : ℤ) + 1, (cond.lastDay : ℤ) + 1) := by
    have first : splitPart tc.dweek 1 = (weekDays[cond.firstDay]).toList := by
      rw [splitPart, spells.days, split]
      rfl
    have last : splitPart tc.dweek 2 = (weekDays[cond.lastDay]).toList := by
      rw [splitPart, spells.days, split]
      rfl
    simp only [TimeCond.dayRange, first, last, numbered, Option.map_some, Option.bind_some]
  simp [TimeCond.Covers, range]

theorem date_eq_iff {tm : Tm} (valid : tm.IsValid) :
    tc.tcDate = tm.date ↔ cond.date = some tm.castDate := by
  have date := spells.date
  cases given : cond.date with
  | none =>
      have empty : tc.tcDate = "" := by simpa [given, String.toList_eq_nil_iff] using date
      simpa [empty] using valid.date_ne.symm
  | some day =>
      simp only [given] at date
      rw [String.ext_iff, date, valid.date_toList, Option.some.injEq]
      constructor
      · exact IsoDate.text_injective (cond.date_fits day given) valid.fits
      · rintro rfl
        rfl

/-- `tc_ts_cmp` takes a row exactly when the condition that it spells holds. -/
theorem meets_iff {tm : Tm} (valid : tm.IsValid) (unset : Unset) (dow : ℤ) :
    tc.meets unset tm dow = true ↔ cond.HoldsAt tm dow := by
  have named : tc.dweek ≠ "" := by
    intro empty
    have days := spells.days
    simp [empty] at days
  rw [spells.wellFormed.meets_iff valid unset dow, spells.inHours_iff valid,
    spells.covers_iff dow, spells.date_eq_iff valid, Condition.HoldsAt]
  simp only [named, false_and, false_or]
  exact and_comm

end TimeCond.Spells

/-! ## The list of conditions -/

/-- Over rows that spell conditions `tc_ts_cmp` succeeds exactly when some condition holds at the
call, and then it stores the id of the first one. -/
theorem tcTsCmp_eq_first (env : Env) (pre : Rating) (tcs : List TimeCond)
    (spec : TimeCond → Condition) (spells : ∀ tc ∈ tcs, tc.Spells (spec tc))
    (valid : (env.localtime pre.epoch).IsValid) :
    ((tcTsCmp env tcs pre).1 = true ↔
        ∃ tc ∈ tcs, (spec tc).HoldsAt (env.localtime pre.epoch) pre.dow) ∧
      ∀ before first after, tcs = before ++ first :: after →
        (spec first).HoldsAt (env.localtime pre.epoch) pre.dow →
        (∀ earlier ∈ before, ¬ (spec earlier).HoldsAt (env.localtime pre.epoch) pre.dow) →
          (tcTsCmp env tcs pre).2.tcId = first.id := by
  have meets {tc : TimeCond} (member : tc ∈ tcs) :=
    (spells tc member).meets_iff valid env.unset pre.dow
  have ids : ∀ tc ∈ tcs, tc.id ≠ 0 := fun tc member => (spells tc member).id_ne
  constructor
  · rw [tcTsCmp_iff env pre tcs ids]
    exact exists_congr fun tc => and_congr_right meets
  · rintro before first after rfl holds earlier
    have found : (before ++ first :: after).find? (fun tc =>
        tc.meets env.unset (env.localtime pre.epoch) pre.dow) = some first := by
      rw [List.find?_eq_some_iff_append]
      refine ⟨(meets (by simp)).mpr holds, before, after, rfl, fun tc member => ?_⟩
      rw [Bool.not_eq_true', Bool.eq_false_iff, ne_eq, meets (by simp [member])]
      exact earlier tc member
    rw [tcTsCmp_eq_find env pre ids, found]

/-- Nights from Monday to Friday, and the whole of New Year's Day. -/
def weekNights : TimeCond where
  id := 1
  tariffId := 1
  hours := "22:00-06:00"
  dweek := "mon-fri"
  tcDate := "2024-01-01"

def weekNightsMeaning : Condition where
  hours := some (⟨22, 0, by decide, by decide⟩, ⟨6, 0, by decide, by decide⟩)
  firstDay := 0
  lastDay := 4
  date := some (2024, 1, 1)
  date_fits := by
    intro day member
    obtain rfl : (2024, 1, 1) = day := Option.some.inj member
    constructor <;> decide

/-- A call on a Monday at five in the morning is a night call. -/
theorem weekNights_at_five :
    let env : Env := { bareEnv with localtime := fun _ =>
      { year := 2024, mon := 3, mday := 4, hour := 5, min := 0, sec := 0, wday := 1 } }
    (tcTsCmp env [weekNights] { dow := 1 }).1 = true ∧
      (tcTsCmp env [weekNights] { dow := 1 }).2.tcId = 1 := by
  intro env
  have spells : weekNights.Spells weekNightsMeaning := by
    constructor <;> decide
  have valid : (env.localtime 0).IsValid := by
    constructor <;> decide
  have holds : weekNightsMeaning.HoldsAt (env.localtime 0) 1 := by
    refine ⟨Or.inr (by decide), fun range member => ?_⟩
    obtain rfl : (⟨22, 0, by decide, by decide⟩, ⟨6, 0, by decide, by decide⟩) = range :=
      Option.some.inj member
    exact Or.inr (by decide)
  have first := tcTsCmp_eq_first env { dow := 1 } [weekNights] (fun _ => weekNightsMeaning)
    (by simpa using spells) valid
  exact ⟨first.1.mpr ⟨weekNights, by simp, holds⟩,
    first.2 [] weekNights [] rfl holds (by simp)⟩

end RateEngine
