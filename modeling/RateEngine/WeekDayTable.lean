import Mathlib.Tactic.IntervalCases
import RateEngine.Lib.EachStep
import RateEngine.TimeCondParity

/-!
# Reads of the weekday table

`tc_ts_cmp` looks the day names of a condition up in `week_days` and reads the number beside the
name that it finds.  An unknown name has the index `-1`, and so has the day of a call outside
`1..7`.  This file follows the indices that are read in the order of the code.
-/

namespace RateEngine

/-! ## The code -/

/-- `get_week_days_dnum`. -/
def getWeekDaysDnum (dway : Option (List Char)) : ℤ :=
  match dway with
  | none => -1
  | some name =>
      match weekDays.findIdx? (·.toList = name) with
      | none => -1
      | some index => index

/-- `get_week_days_dname`. -/
def getWeekDaysDname (dnum : ℤ) : ℤ :=
  match [1, 2, 3, 4, 5, 6, 7].findIdx? (· = dnum) with
  | none => -1
  | some index => index

/-- The condition names the date of the call. -/
def TimeCond.OnDate (tc : TimeCond) (tm : Tm) : Prop := tc.tcDate ≠ "" ∧ tc.tcDate = tm.date

instance (tc : TimeCond) (tm : Tm) : Decidable (tc.OnDate tm) := inferInstanceAs (Decidable (_ ∧ _))

/-- The indices of `week_days` that `tc_ts_cmp` reads for a condition.  The first one is read for
the log, where the day of the call is a `short`. -/
def TimeCond.reads (debug : Bool) (tc : TimeCond) (tm : Tm) (dow : ℤ) : List ℤ :=
  (if debug then [getWeekDaysDname (dow.bmod 65536)] else []) ++
    if tc.OnDate tm then []
    else [getWeekDaysDnum (strtokDash tc.dweek)[0]?, getWeekDaysDnum (strtokDash tc.dweek)[1]?]

/-- The indices of `week_days` that `tc_ts_cmp` reads, in turn. -/
def tcTsCmpReads (debug : Bool) (env : Env) : List TimeCond → Rating → List ℤ
  | [], _ => []
  | tc :: rest, pre =>
      if tc.id = 0 then []
      else
        tc.reads debug (env.localtime pre.epoch) pre.dow ++
          if tc.meets env.unset (env.localtime pre.epoch) pre.dow then []
          else tcTsCmpReads debug env rest pre

/-! ## What a condition asks for -/

/-- The read of an entry of `week_days`. -/
def InWeekDays (index : ℤ) : Prop := 0 ≤ index ∧ index < 7

instance (index : ℤ) : Decidable (InWeekDays index) := inferInstanceAs (Decidable (_ ∧ _))

/-- The number of a known day. -/
def weekDayNamed (day : Option (List Char)) : Option ℕ :=
  day.bind fun name => (weekDays.findIdx? (·.toList = name)).map (· + 1)

namespace TimeCond

variable (tc : TimeCond) (tm : Tm) (dow : ℤ)

/-- The numbers of the first and the last day, when the condition names two known days. -/
def namedDays : Option (ℕ × ℕ) :=
  (weekDayNamed (strtokDash tc.dweek)[0]?).bind fun first =>
    (weekDayNamed (strtokDash tc.dweek)[1]?).map fun last => (first, last)

/-- The condition accepts a call: by its date or its days, and by its hours. -/
def Accepts : Prop :=
  if tc.OnDate tm then tc.hours = "" ∨ hoursMatch (strtokDash tc.hours) tm.time.toList
  else (∃ days ∈ tc.namedDays, days.1 ≤ dow ∧ dow ≤ days.2) ∧
    hoursMatch (strtokDash tc.hours) tm.time.toList

end TimeCond

/-! ## One condition -/

theorem inWeekDays_dnum (day : Option (List Char)) :
    InWeekDays (getWeekDaysDnum day) ↔ (weekDayNamed day).isSome := by
  cases day with
  | none => decide
  | some name =>
      rw [getWeekDaysDnum, weekDayNamed, Option.bind_some]
      cases found : weekDays.findIdx? (·.toList = name) with
      | none => decide
      | some index =>
          have index_lt := (List.findIdx?_eq_some_iff_findIdx_eq.mp found).1
          have place : InWeekDays index := ⟨Int.natCast_nonneg index, by exact_mod_cast index_lt⟩
          simpa using place

theorem inWeekDays_dname (dnum : ℤ) : InWeekDays (getWeekDaysDname dnum) ↔ 1 ≤ dnum ∧ dnum ≤ 7 := by
  by_cases known : 1 ≤ dnum ∧ dnum ≤ 7
  · obtain ⟨low, high⟩ := known
    interval_cases dnum <;> decide
  · have unknown : [1, 2, 3, 4, 5, 6, 7].findIdx? (· = dnum) = none := by
      rw [List.findIdx?_eq_none_iff]
      intro number member
      simp only [List.mem_cons, List.not_mem_nil, or_false] at member
      rw [decide_eq_false_iff_not]
      omega
    rw [getWeekDaysDname, unknown]
    simp only [known, iff_false]
    decide

/-- The number beside a known name. -/
theorem weekDayNumber_of_named (unset : Unset) {day : Option (List Char)} {number : ℕ}
    (named : weekDayNamed day = some number) : weekDayNumber unset day = number := by
  obtain ⟨name, rfl, found⟩ := Option.bind_eq_some_iff.mp named
  obtain ⟨index, place, rfl⟩ := Option.map_eq_some_iff.mp found
  rw [weekDayNumber, place]
  rfl

namespace TimeCond

variable {tc : TimeCond} {tm : Tm} {dow : ℤ}

/-- The reads stay in the table when the log names a day and the condition names the date of the
call or two known days. -/
theorem reads_inside (debug : Bool) : (∀ index ∈ tc.reads debug tm dow, InWeekDays index) ↔
    (debug → 1 ≤ dow.bmod 65536 ∧ dow.bmod 65536 ≤ 7) ∧ (tc.OnDate tm ∨ tc.namedDays.isSome) := by
  have days : tc.namedDays.isSome ↔ (weekDayNamed (strtokDash tc.dweek)[0]?).isSome ∧
      (weekDayNamed (strtokDash tc.dweek)[1]?).isSome := by
    rw [namedDays]
    cases weekDayNamed (strtokDash tc.dweek)[0]? <;>
      cases weekDayNamed (strtokDash tc.dweek)[1]? <;> simp
  rw [reads, days, ← inWeekDays_dname]
  simp only [← inWeekDays_dnum]
  rw [List.forall_mem_append]
  refine and_congr ?_ ?_
  · cases debug <;> simp
  · by_cases date : tc.OnDate tm
    · simp [date]
    · simp [date]

/-- Where the reads stay in the table, `tc_ts_cmp` does what the condition asks for. -/
theorem meets_iff_accepts (unset : Unset) (known : tc.OnDate tm ∨ tc.namedDays.isSome) :
    tc.meets unset tm dow = true ↔ tc.Accepts tm dow := by
  change (if tc.OnDate tm then _ else _) = true ↔ _
  rw [Accepts]
  by_cases date : tc.OnDate tm
  · rw [if_pos date, if_pos date, Bool.or_eq_true, decide_eq_true_iff]
  · obtain ⟨⟨first, last⟩, named⟩ := Option.isSome_iff_exists.mp (known.resolve_left date)
    obtain ⟨first', first_eq, rest⟩ := Option.bind_eq_some_iff.mp named
    obtain ⟨last', last_eq, both⟩ := Option.map_eq_some_iff.mp rest
    obtain ⟨rfl, rfl⟩ := Prod.mk.inj both
    rw [if_neg date, if_neg date, weekDayNumber_of_named unset first_eq,
      weekDayNumber_of_named unset last_eq, named]
    simp

end TimeCond

/-! ## The list of conditions -/

/-- `tc_ts_cmp` never reads outside `week_days` exactly when every condition that it comes to names
the date of the call or two known days, and the log is off or the call has a day from Monday to
Sunday. -/
theorem tcTsCmpReads_inside_iff (debug : Bool) (env : Env) (tcs : List TimeCond) (pre : Rating) :
    (∀ index ∈ tcTsCmpReads debug env tcs pre, InWeekDays index) ↔
      ∀ before tc after, tcs = before ++ tc :: after →
        (∀ earlier ∈ before, earlier.id ≠ 0 ∧
          ¬ earlier.Accepts (env.localtime pre.epoch) pre.dow) →
        tc.id ≠ 0 →
          (debug → 1 ≤ pre.dow.bmod 65536 ∧ pre.dow.bmod 65536 ≤ 7) ∧
            (tc.OnDate (env.localtime pre.epoch) ∨ tc.namedDays.isSome) := by
  induction tcs with
  | nil => simp [tcTsCmpReads]
  | cons tc rest induction =>
      rw [forall_split_cons, tcTsCmpReads]
      by_cases ended : tc.id = 0
      · simp [ended]
      · rw [if_neg ended, List.forall_mem_append, TimeCond.reads_inside]
        simp only [List.forall_mem_cons, List.not_mem_nil, false_imp_iff, forall_const,
          ended, not_false_eq_true, ne_eq, true_and]
        refine and_congr_right fun inside => ?_
        rw [← TimeCond.meets_iff_accepts env.unset inside.2]
        by_cases met : tc.meets env.unset (env.localtime pre.epoch) pre.dow = true
        · simp [met]
        · simpa [met] using induction

/-- Where the reads stay in the table, the memory beside it has no part in the outcome. -/
theorem tcTsCmp_eq_of_inside {debug : Bool} {env : Env} {tcs : List TimeCond} {pre : Rating}
    (inside : ∀ index ∈ tcTsCmpReads debug env tcs pre, InWeekDays index) (unset : Unset) :
    tcTsCmp { env with unset } tcs pre = tcTsCmp env tcs pre := by
  induction tcs with
  | nil => rfl
  | cons tc rest induction =>
      rw [tcTsCmp, tcTsCmp]
      rw [tcTsCmpReads] at inside
      by_cases ended : tc.id = 0
      · rw [if_pos ended, if_pos ended]
      · rw [if_neg ended, List.forall_mem_append] at inside
        rw [if_neg ended, if_neg ended]
        have known := ((TimeCond.reads_inside debug).mp inside.1).2
        have alike : tc.meets unset (env.localtime pre.epoch) pre.dow =
            tc.meets env.unset (env.localtime pre.epoch) pre.dow := by
          rw [Bool.eq_iff_iff, TimeCond.meets_iff_accepts unset known,
            TimeCond.meets_iff_accepts env.unset known]
        rw [alike]
        by_cases met : tc.meets env.unset (env.localtime pre.epoch) pre.dow = true
        · rw [if_pos met, if_pos met]
        · rw [if_neg met, if_neg met]
          exact induction (by simpa [met] using inside.2)

/-- A condition for one day of the week. -/
def mondays : TimeCond where
  id := 1
  tariffId := 1
  hours := ""
  dweek := "mon"
  tcDate := ""

/-- The last day of the condition is looked up although there is none. -/
theorem mondays_outside :
    ¬ ∀ index ∈ tcTsCmpReads false sundayEnv [mondays] {}, InWeekDays index := by
  decide

end RateEngine
