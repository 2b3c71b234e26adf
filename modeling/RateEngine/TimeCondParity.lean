import RateEngine.Lib.IsoDate
import RateEngine.TimeCond

/-!
# Time conditions in both rating engines

The batch engine writes the comparison of `tc_ts_cmp` again as a predicate of its query.  The two
agree on the hours and on the date of a condition.  They count the days of the week differently: the
record of a call has the day of `localtime`, with Sunday as `0`, the query has the ISO day, with
Sunday as `7`, and the names of a condition are numbered from `mon` as `1`.
-/

namespace RateEngine

/-! ## The predicate of the batch engine -/

/-- `split_part(text,'-',index)`. -/
def splitPart (text : String) (index : ℕ) : List Char :=
  (text.toList.splitOn '-')[index - 1]?.getD []

/-- `CASE lower(name) WHEN 'mon' THEN 1 … WHEN 'sun' THEN 7 END`. -/
def caseWeekDay (name : List Char) : Option ℤ :=
  (weekDays.findIdx? (·.toList = name.map Char.toLower)).map fun index : ℕ => (index : ℤ) + 1

/-- `isodow(start_ts)`. -/
def Tm.isodow (tm : Tm) : ℤ := if tm.wday = 0 then 7 else tm.wday

/-- `CAST(start_ts AS DATE)`. -/
def Tm.castDate (tm : Tm) : ℕ × ℕ × ℕ := (tm.year.toNat, tm.mon.toNat, tm.mday.toNat)

/-- A date of the calendar. -/
def IsDate (year mon day : ℕ) : Prop :=
  1 ≤ mon ∧ mon ≤ 12 ∧ 1 ≤ day ∧ (day : ℤ) ≤ daysinmonth {} year mon

instance (year mon day : ℕ) : Decidable (IsDate year mon day) :=
  inferInstanceAs (Decidable (_ ∧ _))

/-- `TRY_CAST(text AS DATE)` of a text with dashes. -/
def tryCastDate (text : String) : Option (ℕ × ℕ × ℕ) :=
  (IsoDate.parse text.toList).filter fun (year, mon, day) => IsDate year mon day

/-- The week days of a condition, when both names are known. -/
def TimeCond.dayRange (tc : TimeCond) : Option (ℤ × ℤ) :=
  (caseWeekDay (splitPart tc.dweek 1)).bind fun first =>
    (caseWeekDay (splitPart tc.dweek 2)).map fun last => (first, last)

/-- The hours in the predicate of `best_match`. -/
def TimeCond.sqlHours (tc : TimeCond) (time : List Char) : Bool :=
  let hour1 := splitPart tc.hours 1
  let hour2 := splitPart tc.hours 2
  tc.hours = "" ||
    (hour1 < hour2 && hour1 < time && charsLe time hour2) ||
    (charsLe hour2 hour1 && (hour1 < time || charsLe time hour2))

/-- The predicate of `best_match` on a condition; the two branches of its `BETWEEN` are unknown when
a name is. -/
def TimeCond.sqlMeets (tc : TimeCond) (tm : Tm) : Bool :=
  tc.sqlHours tm.time.toList &&
    ((tc.tcDate ≠ "" && tryCastDate tc.tcDate = some tm.castDate) ||
      tc.dayRange.any fun (first, last) => first ≤ tm.isodow && tm.isodow ≤ last)

/-- `tc_match_id` of `best_match`, over the conditions of the tariff by `prior`. -/
def tcMatchId (tcs : List TimeCond) (tm : Tm) : Option ℕ :=
  (tcs.find? (·.sqlMeets tm)).map TimeCond.id

/-! ## Timestamps and well-formed conditions -/

/-- The time that `localtime` gives, with a year of four digits. -/
structure Tm.IsValid (tm : Tm) : Prop where
  year_ge : 1000 ≤ tm.year
  year_lt : tm.year < 10000
  date : IsDate tm.year.toNat tm.mon.toNat tm.mday.toNat
  hour_nonneg : 0 ≤ tm.hour
  hour_lt : tm.hour < 24
  min_nonneg : 0 ≤ tm.min
  min_lt : tm.min < 60
  sec_nonneg : 0 ≤ tm.sec
  sec_lt : tm.sec < 60
  wday_nonneg : 0 ≤ tm.wday
  wday_lt : tm.wday < 7

/-- One side of a range. -/
def IsPart (part : List Char) : Prop := part ≠ [] ∧ '-' ∉ part

/-- A condition with a range of hours or none, a range of week days or none, a date or none. -/
structure TimeCond.WellFormed (tc : TimeCond) : Prop where
  id_ne : tc.id ≠ 0
  hours : tc.hours = "" ∨ ∃ hour1 hour2, IsPart hour1 ∧ IsPart hour2 ∧
    tc.hours.toList = hour1 ++ '-' :: hour2
  days : tc.dweek = "" ∨ ∃ day1 ∈ weekDays, ∃ day2 ∈ weekDays,
    tc.dweek.toList = day1.toList ++ '-' :: day2.toList
  date : tc.tcDate = "" ∨ ∃ year mon day, IsoDate.Fits year mon day ∧
    tc.tcDate.toList = IsoDate.text year mon day

/-- The week days of a condition hold the day of a number. -/
def TimeCond.Covers (tc : TimeCond) (number : ℤ) : Prop :=
  ∃ first last, tc.dayRange = some (first, last) ∧ first ≤ number ∧ number ≤ last

/-- The hours of a condition, as `tc_ts_cmp` compares them. -/
def TimeCond.inHours (tc : TimeCond) (tm : Tm) : Bool :=
  hoursMatch (strtokDash tc.hours) tm.time.toList

theorem splitOn_dash {part part' : List Char} (is_part : IsPart part) (is_part' : IsPart part') :
    (part ++ '-' :: part').splitOn '-' = [part, part'] := by
  have joined : part ++ '-' :: part' = ['-'].intercalate [part, part'] := by
    simp [List.intercalate]
  rw [joined, List.splitOn_intercalate]
  · simp [is_part.2, is_part'.2]
  · simp

/-! ## The text of a time -/

theorem twoDigits_toList {n : ℤ} (nonneg : 0 ≤ n) (lt : n < 100) :
    (twoDigits n).toList = IsoDate.digits 2 n.toNat := by
  have all : ∀ n : ℕ, n < 100 → (twoDigits n).toList = IsoDate.digits 2 n := by decide
  obtain ⟨n, rfl⟩ := Int.eq_ofNat_of_zero_le nonneg
  exact all n (by exact_mod_cast lt)

theorem toString_toList {n : ℤ} (low : 1000 ≤ n) (high : n < 10000) :
    (toString n).toList = IsoDate.digits 4 n.toNat := by
  obtain ⟨n, rfl⟩ := Int.eq_ofNat_of_zero_le (by omega : 0 ≤ n)
  have digits : (toString (n : ℤ)).toList = Nat.toDigits 10 n := by
    change (String.ofList (Nat.toDigits 10 n)).toList = _
    exact String.toList_ofList
  rw [digits, Int.toNat_natCast]
  exact IsoDate.toDigits_eq_digits (by exact_mod_cast low) (by exact_mod_cast high)

theorem dateString_toList {year mon day : ℤ} (year_ge : 1000 ≤ year) (year_lt : year < 10000)
    (mon_nonneg : 0 ≤ mon) (mon_lt : mon < 100) (day_nonneg : 0 ≤ day) (day_lt : day < 100) :
    (dateString year mon day).toList = IsoDate.text year.toNat mon.toNat day.toNat := by
  simp only [dateString, String.toList_append, toString_toList year_ge year_lt,
    twoDigits_toList mon_nonneg mon_lt, twoDigits_toList day_nonneg day_lt]
  simp [IsoDate.text]

theorem daysinmonth_bounds (year : ℤ) {mon : ℕ} (low : 1 ≤ mon) (high : mon ≤ 12) :
    28 ≤ daysinmonth {} year mon ∧ daysinmonth {} year mon ≤ 31 := by
  interval_cases mon
  case «2» =>
    simp only [daysinmonth, Nat.cast_ofNat]
    split <;> decide
  all_goals simp [daysinmonth]

namespace Tm.IsValid

variable {tm : Tm} (valid : tm.IsValid)
include valid

theorem fits : IsoDate.Fits tm.year.toNat tm.mon.toNat tm.mday.toNat := by
  obtain ⟨mon_ge, mon_le, -, day_le⟩ := valid.date
  have days := (daysinmonth_bounds tm.year.toNat mon_ge mon_le).2
  have year_lt := valid.year_lt
  constructor <;> omega

theorem date_toList :
    tm.date.toList = IsoDate.text tm.year.toNat tm.mon.toNat tm.mday.toNat := by
  obtain ⟨mon_ge, -, day_ge, -⟩ := valid.date
  obtain ⟨-, mon_lt, day_lt⟩ := valid.fits
  apply dateString_toList valid.year_ge valid.year_lt <;> omega

theorem date_ne : tm.date ≠ "" := by
  intro empty
  have text := valid.date_toList
  simp [empty, IsoDate.text, IsoDate.digits] at text

theorem time_toList :
    tm.time.toList = IsoDate.clock tm.hour.toNat tm.min.toNat tm.sec.toNat := by
  have hour_lt := valid.hour_lt
  have min_lt := valid.min_lt
  have sec_lt := valid.sec_lt
  simp only [Tm.time, String.toList_append, twoDigits_toList valid.hour_nonneg (by omega),
    twoDigits_toList valid.min_nonneg (by omega), twoDigits_toList valid.sec_nonneg (by omega)]
  simp [IsoDate.clock]

theorem time_le : charsLe tm.time.toList "23:59:59".toList = true := by
  have hour_lt := valid.hour_lt
  have min_lt := valid.min_lt
  have sec_lt := valid.sec_lt
  have last : "23:59:59".toList = IsoDate.clock 23 59 59 := by decide
  rw [charsLe, decide_eq_true_eq, valid.time_toList, last, IsoDate.clock_lt_iff] <;> omega

theorem le_time : charsLe "00:00:00".toList tm.time.toList = true := by
  have hour_lt := valid.hour_lt
  have min_lt := valid.min_lt
  have sec_lt := valid.sec_lt
  have first : "00:00:00".toList = IsoDate.clock 0 0 0 := by decide
  rw [charsLe, decide_eq_true_eq, valid.time_toList, first, IsoDate.clock_lt_iff] <;> omega

end Tm.IsValid

/-! ## One condition in both engines -/

theorem isPart_of_mem_weekDays : ∀ day ∈ weekDays, IsPart day.toList := by
  simp only [weekDays, IsPart, List.forall_mem_cons]
  decide

/-- The number of a name is its place in `week_days`. -/
theorem weekDayNumber_some (unset : Unset) {day : String} (member : day ∈ weekDays) :
    ∃ number, caseWeekDay day.toList = some number ∧ 1 ≤ number ∧ number ≤ 7 ∧
      weekDayNumber unset (some day.toList) = number := by
  have found : ∀ day ∈ weekDays, ∃ index < 7,
      weekDays.findIdx? (·.toList = day.toList) = some index ∧
        caseWeekDay day.toList = some ((index : ℤ) + 1) := by decide
  obtain ⟨index, index_lt, place, number⟩ := found day member
  refine ⟨index + 1, number, by omega, by omega, ?_⟩
  rw [weekDayNumber, place]

theorem caseWeekDay_nil : caseWeekDay [] = none := by decide

namespace TimeCond.WellFormed

variable {tc : TimeCond} (wf : tc.WellFormed)
include wf

/-- The days in both engines, for a condition that is not met by its date. -/
theorem days_cases (unset : Unset) :
    (tc.dweek = "" ∧ tc.dayRange = none ∧
      weekDayNumber unset (strtokDash tc.dweek)[0]? = unset.dnum ∧
      weekDayNumber unset (strtokDash tc.dweek)[1]? = unset.dnum) ∨
    ∃ first last, tc.dweek ≠ "" ∧ tc.dayRange = some (first, last) ∧ 1 ≤ first ∧ first ≤ 7 ∧
      1 ≤ last ∧ last ≤ 7 ∧ weekDayNumber unset (strtokDash tc.dweek)[0]? = first ∧
      weekDayNumber unset (strtokDash tc.dweek)[1]? = last := by
  rcases wf.days with absent | ⟨day1, member1, day2, member2, both⟩
  · left
    have tokens : strtokDash "" = [] := by decide
    have range : (splitPart "" 1) = [] := by decide
    simp [TimeCond.dayRange, absent, tokens, range, caseWeekDay_nil, weekDayNumber]
  · right
    have is_part1 := isPart_of_mem_weekDays day1 member1
    have is_part2 := isPart_of_mem_weekDays day2 member2
    have split := splitOn_dash is_part1 is_part2
    have tokens : strtokDash tc.dweek = [day1.toList, day2.toList] := by
      simp [strtokDash, both, split, is_part1.1, is_part2.1]
    obtain ⟨first, case1, first_ge, first_le, number1⟩ := weekDayNumber_some unset member1
    obtain ⟨last, case2, last_ge, last_le, number2⟩ := weekDayNumber_some unset member2
    refine ⟨first, last, ?_, ?_, first_ge, first_le, last_ge, last_le, ?_, ?_⟩
    · rintro absent
      simp [absent] at both
    · simp [TimeCond.dayRange, splitPart, both, split, case1, case2]
    · rw [tokens]
      exact number1
    · rw [tokens]
      exact number2

variable {tm : Tm} (valid : tm.IsValid)
include valid

/-- Both engines read the hours alike. -/
theorem sqlHours_eq : tc.sqlHours tm.time.toList = tc.inHours tm := by
  rcases wf.hours with absent | ⟨hour1, hour2, is_part1, is_part2, both⟩
  · simp [TimeCond.sqlHours, TimeCond.inHours, strtokDash, hoursMatch, absent]
  · have split := splitOn_dash is_part1 is_part2
    have ne : tc.hours ≠ "" := by
      rintro empty
      simp [empty] at both
    have tokens : strtokDash tc.hours = [hour1, hour2] := by
      simp [strtokDash, both, split, is_part1.1, is_part2.1]
    have first : splitPart tc.hours 1 = hour1 := by simp [splitPart, both, split]
    have second : splitPart tc.hours 2 = hour2 := by simp [splitPart, both, split]
    simp only [TimeCond.sqlHours, TimeCond.inHours, tokens, first, second, hoursMatch, ne,
      List.getElem?_cons_zero, List.getElem?_cons_succ, valid.time_le, valid.le_time]
    by_cases ordered : hour1 < hour2 <;> simp [ordered, charsLe]

/-- Both engines find the same date in a condition. -/
theorem tryCastDate_eq_iff :
    tryCastDate tc.tcDate = some tm.castDate ↔ tc.tcDate ≠ "" ∧ tc.tcDate = tm.date := by
  rcases wf.date with absent | ⟨year, mon, day, fits, text⟩
  · have cast : tryCastDate "" = none := by decide
    simp [absent, cast]
  · have ne : tc.tcDate ≠ "" := by
      rintro empty
      simp [empty, IsoDate.text, IsoDate.digits] at text
    have cast : tryCastDate tc.tcDate = (some (year, mon, day)).filter
        fun (year, mon, day) => IsDate year mon day := by
      rw [tryCastDate, text, IsoDate.parse_text fits]
    rw [cast, Option.filter_eq_some_iff, String.ext_iff, text, valid.date_toList]
    constructor
    · rintro ⟨same, -⟩
      obtain ⟨rfl, rfl, rfl⟩ : year = tm.year.toNat ∧ mon = tm.mon.toNat ∧ day = tm.mday.toNat := by
        simpa [Tm.castDate] using same
      exact ⟨ne, rfl⟩
    · rintro ⟨-, same⟩
      have fields : (year, mon, day) = tm.castDate :=
        IsoDate.text_injective fits valid.fits same
      exact ⟨congrArg some fields, decide_eq_true (by simpa [fields, Tm.castDate] using valid.date)⟩

/-- What `tc_ts_cmp` asks of a condition.  Without week days it reads a cell before its table. -/
theorem meets_iff (unset : Unset) (dow : ℤ) : tc.meets unset tm dow = true ↔
    tc.inHours tm = true ∧
      (tc.tcDate = tm.date ∨ (tc.dweek = "" ∧ unset.dnum = dow) ∨ tc.Covers dow) := by
  have hours (empty : tc.hours = "") : tc.inHours tm = true := by
    have tokens : strtokDash "" = [] := by decide
    simp [TimeCond.inHours, empty, tokens, hoursMatch]
  rw [TimeCond.meets]
  split
  next on_date =>
    simp only [on_date.2, true_or, and_true, Bool.or_eq_true, decide_eq_true_eq]
    exact ⟨fun either => either.elim hours (fun met => met), Or.inr⟩
  next off_date =>
    have other : tc.tcDate ≠ tm.date := fun on_date =>
      off_date ⟨on_date ▸ valid.date_ne, on_date⟩
    simp only [other, false_or, Bool.and_eq_true, decide_eq_true_eq, TimeCond.Covers]
    rw [and_comm, TimeCond.inHours]
    refine and_congr_right fun _ => ?_
    rcases wf.days_cases unset with ⟨absent, range, number1, number2⟩ |
      ⟨first, last, present, range, -, -, -, -, number1, number2⟩
    · rw [number1, number2]
      simp only [absent, range, true_and, reduceCtorEq, false_and, exists_false, or_false]
      omega
    · simp [number1, number2, present, range, and_assoc]

/-- What the query asks of a condition. -/
theorem sqlMeets_iff : tc.sqlMeets tm = true ↔
    tc.inHours tm = true ∧ (tc.tcDate = tm.date ∨ tc.Covers tm.isodow) := by
  have date : tc.tcDate ≠ "" ∧ tryCastDate tc.tcDate = some tm.castDate ↔ tc.tcDate = tm.date := by
    rw [wf.tryCastDate_eq_iff valid]
    exact ⟨fun both => both.2.2, fun on_date =>
      ⟨on_date ▸ valid.date_ne, on_date ▸ valid.date_ne, on_date⟩⟩
  rw [TimeCond.sqlMeets, wf.sqlHours_eq valid, Bool.and_eq_true, Bool.or_eq_true, Bool.and_eq_true,
    decide_eq_true_eq, decide_eq_true_eq, date]
  refine and_congr_right fun _ => or_congr_right ?_
  rcases range : tc.dayRange with _ | ⟨first, last⟩ <;> simp [TimeCond.Covers, range]

end TimeCond.WellFormed

/-- No range starts before Monday. -/
theorem TimeCond.WellFormed.not_covers_zero {tc : TimeCond} (wf : tc.WellFormed) :
    ¬ tc.Covers 0 := by
  rintro ⟨first, last, range, first_le, -⟩
  rcases wf.days_cases {} with ⟨-, absent, -⟩ | ⟨first', last', -, range', first_ge, -⟩
  · simp [absent] at range
  · obtain ⟨rfl, rfl⟩ : first' = first ∧ last' = last := by simpa [range'] using range
    omega

/-! ## The list of conditions -/

theorem tcTsCmp_iff (env : Env) (pre : Rating) (tcs : List TimeCond)
    (ids : ∀ tc ∈ tcs, tc.id ≠ 0) :
    (tcTsCmp env tcs pre).1 = true ↔
      ∃ tc ∈ tcs, tc.meets env.unset (env.localtime pre.epoch) pre.dow = true := by
  induction tcs with
  | nil => simp [tcTsCmp]
  | cons tc rest ih =>
      rw [List.forall_mem_cons] at ids
      rw [tcTsCmp, if_neg ids.1, List.exists_mem_cons_iff]
      split
      next met => simp [met]
      next unmet => rw [ih ids.2, or_iff_right unmet]

theorem tcMatchId_iff (tcs : List TimeCond) (tm : Tm) :
    (tcMatchId tcs tm).isSome = true ↔ ∃ tc ∈ tcs, tc.sqlMeets tm = true := by
  rw [tcMatchId, Option.isSome_map, List.find?_isSome]

/-- Some condition with matching hours has a property. -/
def AnyInHours (tcs : List TimeCond) (tm : Tm) (property : TimeCond → Prop) : Prop :=
  ∃ tc ∈ tcs, tc.inHours tm = true ∧ property tc

section AnyInHours

variable {tcs : List TimeCond} {tm : Tm}

theorem anyInHours_or (property property' : TimeCond → Prop) :
    AnyInHours tcs tm (fun tc => property tc ∨ property' tc) ↔
      AnyInHours tcs tm property ∨ AnyInHours tcs tm property' := by
  simp only [AnyInHours, and_or_left, exists_or]

theorem anyInHours_iff {engine : TimeCond → Bool} {property : TimeCond → Prop}
    (same : ∀ tc ∈ tcs, engine tc = true ↔ tc.inHours tm = true ∧ property tc) :
    (∃ tc ∈ tcs, engine tc = true) ↔ AnyInHours tcs tm property :=
  exists_congr fun tc => and_congr_right (same tc)

end AnyInHours

/-- A condition for office hours and a condition for all days. -/
def officeHours : TimeCond where
  id := 1
  tariffId := 1
  hours := "08:00-18:00"
  dweek := "mon-fri"
  tcDate := ""

def allDays : TimeCond where
  id := 2
  tariffId := 1
  hours := ""
  dweek := "mon-sun"
  tcDate := ""

theorem officeHours_wellFormed : officeHours.WellFormed where
  id_ne := by decide
  hours := .inr ⟨"08:00".toList, "18:00".toList, by simp [IsPart], by simp [IsPart], by decide⟩
  days := .inr ⟨"mon", by decide, "fri", by decide, by decide⟩
  date := .inl rfl

theorem allDays_wellFormed : allDays.WellFormed where
  id_ne := by decide
  hours := .inl rfl
  days := .inr ⟨"mon", by decide, "sun", by decide, by decide⟩
  date := .inl rfl

/-- The environment at ten in the morning of a Sunday. -/
def sundayEnv : Env :=
  { bareEnv with localtime := fun _ =>
      { year := 2024, mon := 3, mday := 3, hour := 10, min := 0, sec := 0, wday := 0 } }

theorem sundayEnv_valid (epoch : ℤ) : (sundayEnv.localtime epoch).IsValid := by
  constructor <;> simp only [sundayEnv] <;> decide

end RateEngine
