import RateEngine.Db

/-!
# Dates and time conditions

The date helpers of `time_funcs.c` and the time conditions of `time_cond.c`.  A condition may name a
date, a range of week days and a range of hours; `tc_ts_cmp` takes the first condition in the list
that the start of the call meets.
-/

namespace RateEngine

/-! ## Dates as strings -/

/-- `%.2d`. -/
def twoDigits (n : ℤ) : String :=
  (if n < 0 then "-" else "") ++ (if n.natAbs < 10 then "0" else "") ++ toString n.natAbs

/-- `%d-%.2d-%.2d`. -/
def dateString (year mon day : ℤ) : String :=
  toString year ++ "-" ++ twoDigits mon ++ "-" ++ twoDigits day

/-- The date of `parse_tm`. -/
def Tm.date (tm : Tm) : String := dateString tm.year tm.mon tm.mday

/-- The time of `parse_tm`. -/
def Tm.time (tm : Tm) : String :=
  twoDigits tm.hour ++ ":" ++ twoDigits tm.min ++ ":" ++ twoDigits tm.sec

/-- The value of a list of digits. -/
def digitsValue (digits : List Char) : ℕ :=
  digits.foldl (fun value digit => 10 * value + (digit.toNat - '0'.toNat)) 0

/-- One `%d` of `sscanf`: the number read and the text after it. -/
def scanInt (text : List Char) : Option (ℤ × List Char) :=
  let text := text.dropWhile Char.isWhitespace
  let (negative, text) :=
    match text with
    | '-' :: rest => (true, rest)
    | '+' :: rest => (false, rest)
    | other => (false, other)
  match text.takeWhile Char.isDigit with
  | [] => none
  | digits =>
      let value : ℤ := digitsValue digits
      some (if negative then -value else value, text.dropWhile Char.isDigit)

/-- `sscanf(str,"%d-%d-%d",…)`: the numbers read before the text stops matching. -/
def scanDate (str : String) : List ℤ :=
  match scanInt str.toList with
  | none => []
  | some (year, '-' :: text) =>
      match scanInt text with
      | none => [year]
      | some (mon, '-' :: text) =>
          match scanInt text with
          | none => [year, mon]
          | some (day, _) => [year, mon, day]
      | some (mon, _) => [year, mon]
  | some (year, _) => [year]

/-- The month table of `check_date_valid`. -/
def daysinmonth (unset : Unset) (year mon : ℤ) : ℤ :=
  let leap := year % 400 = 0 ∨ year % 100 ≠ 0 ∧ year % 4 = 0
  match mon with
  | 1 => 31
  | 2 => if leap then 29 else 28
  | 3 => 31
  | 4 => 30
  | 5 => 31
  | 6 => 30
  | 7 => 31
  | 8 => 31
  | 9 => 30
  | 10 => 31
  | 11 => 30
  | 12 => 31
  | mon => unset.daysinmonth mon

/-- `check_date_valid`. -/
def checkDateValid (unset : Unset) (str : String) : Bool :=
  let numbers := scanDate str
  let year := numbers[0]?.getD unset.year
  let mon := numbers[1]?.getD unset.mon
  let day := numbers[2]?.getD unset.day
  mon < 13 && day ≤ daysinmonth unset year mon

/-! ## Time conditions -/

/-- The tokens that successive calls of `strtok` find in `text` with the delimiter `-`. -/
def strtokDash (text : String) : List (List Char) :=
  (text.toList.splitOn '-').filter (· ≠ [])

/-- The names of `week_days`. -/
def weekDays : List String := ["mon", "tue", "wed", "thu", "fri", "sat", "sun"]

/-- `week_days[get_week_days_dnum(day)].dnum`; the index is `-1` when the name is not found. -/
def weekDayNumber (unset : Unset) (day : Option (List Char)) : ℤ :=
  match day with
  | none => unset.dnum
  | some name =>
      match weekDays.findIdx? (·.toList = name) with
      | none => unset.dnum
      | some index => index + 1

/-- `strcmp(a,b) <= 0` on the characters of the strings. -/
def charsLe (a b : List Char) : Bool := ¬ b < a

/-- Condition 3 of `tc_ts_cmp`: the hours, when two are given. -/
def hoursMatch (hours : List (List Char)) (time : List Char) : Bool :=
  match hours[0]?, hours[1]? with
  | some hour1, some hour2 =>
      if hour1 < hour2 then hour1 < time && charsLe time hour2
      else
        (charsLe time "23:59:59".toList && hour1 < time) ||
          (charsLe "00:00:00".toList time && charsLe time hour2)
  | _, _ => true

/-- Whether `tc_ts_cmp` takes the condition for a call at `tm` on week day `dow`. -/
def TimeCond.meets (unset : Unset) (tc : TimeCond) (tm : Tm) (dow : ℤ) : Bool :=
  let hours := strtokDash tc.hours
  let days := strtokDash tc.dweek
  if tc.tcDate ≠ "" ∧ tc.tcDate = tm.date then
    tc.hours = "" || hoursMatch hours tm.time.toList
  else
    weekDayNumber unset days[0]? ≤ dow && dow ≤ weekDayNumber unset days[1]? &&
      hoursMatch hours tm.time.toList

/-- `tc_ts_cmp`: whether a condition of the list is met, and the record with its ids. -/
def tcTsCmp (env : Env) : List TimeCond → Rating → Bool × Rating
  | [], pre => (false, pre)
  | tc :: rest, pre =>
      if tc.id = 0 then (false, pre)
      else if tc.meets env.unset (env.localtime pre.epoch) pre.dow then
        (true, { pre with tcId := tc.id, tariffId := tc.tariffId })
      else tcTsCmp env rest pre

/-- `f_time_cond_query_id`. -/
def fTimeCondQueryId (env : Env) (pre : Rating) : ℤ :=
  if pre.tariffId = 0 then 0
  else
    match env.timeConditionId pre.tariffId with
    | some [id] => id
    | _ => env.unset.tcId

/-- `f_time_cond_query_v2`: the conditions of the tariff. -/
def fTimeCondQueryV2 (env : Env) (pre : Rating) : List TimeCond :=
  if pre.tariffId = 0 then [] else (env.timeConds pre.tariffId).getD []

/-- A met condition leaves all of the record but the ids of the condition and the tariff. -/
theorem tcTsCmp_eq (env : Env) (tcs : List TimeCond) (pre : Rating) :
    (tcTsCmp env tcs pre).2 =
      { pre with tcId := (tcTsCmp env tcs pre).2.tcId
                 tariffId := (tcTsCmp env tcs pre).2.tariffId } := by
  induction tcs with
  | nil => rfl
  | cons tc rest ih =>
      rw [tcTsCmp]
      split
      · rfl
      split
      · rfl
      · exact ih

end RateEngine
