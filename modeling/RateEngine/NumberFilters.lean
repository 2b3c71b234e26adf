import RateEngine.AccountLookup
import RateEngine.CdrStore
import RateEngine.Lib.Buffer

/-!
# Filters on called numbers

`prefix_filter_cuti_replace` works through three buffers of fixed size and gives an empty number
when the filter does not match; `cdr_called_number_filtering_match` takes the first number that is
not empty. This file follows the buffers and says for which filters and numbers the called number
becomes what the first matching filter stands for.
-/

namespace RateEngine

open Buffer

/-! ## The code on its buffers -/

/-- A filter as `prefix_filter_get` loads it: the texts fit the fields of `filter`. -/
structure LoadedFilter extends PrefixFilter where
  id_ne : id ≠ 0
  cut_plain : '\x00' ∉ filteringPrefix
  cut_lt : filteringPrefix.length < 32
  count_ge : -2 ^ 31 ≤ filteringNumber
  count_lt : filteringNumber < 2 ^ 31
  replace_plain : '\x00' ∉ replaceStr
  replace_lt : replaceStr.length < 32

/-- `prefix_filter_cuti_replace` on the number of a CDR: `junk` is what `buf` holds before, `ret`
the buffer of the result.  Nothing when a write runs over a buffer. -/
def prefixFilterCutiReplaceBuf (junk : Fin 32 → Char) (filter : PrefixFilter) (number : List Char)
    (ret : List Char) : Option (List Char) :=
  let len := filter.filteringPrefix.length
  ((Buffer.strncpy '\x00' (List.ofFn junk) number len).bind fun buf =>
      store buf len '\x00').bind fun buf =>
    if 0 < filter.len ∧ (number.length : ℤ) ≠ filter.len then store ret 0 '\x00'
    else if text '\x00' buf = filter.filteringPrefix then
      -- the index of the loop is compared as an unsigned number
      (strcpy '\x00' ret (number.drop (asUnsigned 64 filter.filteringNumber))).bind fun ret =>
        if filter.replaceStr = [] then some ret
        else
          (strcpy '\x00' (List.replicate 80 '\x00') filter.replaceStr).bind fun replaceStr =>
            (strcat '\x00' replaceStr (text '\x00' ret)).bind fun replaceStr =>
              strcpy '\x00' ret (text '\x00' replaceStr)
    else store ret 0 '\x00'

/-- `cdr_called_number_filtering_match` on the buffer of the called number: the buffer after it and
the id of the filter that was applied. -/
def cdrCalledNumberFilteringBuf (junk : Fin 32 → Char) :
    List PrefixFilter → List Char → Option (List Char × Option ℤ)
  | [], calledNumber => some (calledNumber, none)
  | filter :: filters, calledNumber =>
      if filter.id = 0 then some (calledNumber, none)
      else
        (prefixFilterCutiReplaceBuf junk filter (text '\x00' calledNumber)
            (List.replicate 80 '\x00')).bind fun ret =>
          if text '\x00' ret = [] then cdrCalledNumberFilteringBuf junk filters calledNumber
          else (strcpy '\x00' calledNumber (text '\x00' ret)).map fun calledNumber =>
            (calledNumber, some filter.id)

/-! ## What a filter stands for -/

namespace PrefixFilter

variable (filter : PrefixFilter) (number : List Char)

/-- The prefix of the filter begins the number, and the length of the filter, when set, is
that of the number. -/
def Matches : Prop :=
  filter.filteringPrefix <+: number ∧ (0 < filter.len → (number.length : ℤ) = filter.len)

instance : Decidable (filter.Matches number) := inferInstanceAs (Decidable (_ ∧ _))

/-- The replacement followed by the number without its first characters. -/
def result : List Char :=
  filter.replaceStr ++ number.drop (asUnsigned 64 filter.filteringNumber)

/-- The filter matches and leaves a number. -/
def Applies : Prop := filter.Matches number ∧ filter.result number ≠ []

instance : Decidable (filter.Applies number) := inferInstanceAs (Decidable (_ ∧ _))

end PrefixFilter

/-- A number that fits the field of a CDR. -/
abbrev CalledNumber := {number : CText // number.1.length < 80}

/-- The first filter of a list that applies. -/
def firstFilter (filters : List LoadedFilter) (number : List Char) : Option LoadedFilter :=
  filters.find? fun filter => filter.Applies number

/-- The number under the first filter that applies. -/
def filteredNumber (filters : List LoadedFilter) (number : List Char) : List Char :=
  ((firstFilter filters number).map fun filter => filter.result number).getD number

/-- The filters do what they stand for to a number, and no buffer is written beyond its size. -/
def NumberFiltered (filters : List LoadedFilter) (number : CalledNumber) : Prop :=
  ∀ junk calledNumber, Holds '\x00' 80 number.1.1 calledNumber →
    ∃ after, cdrCalledNumberFilteringBuf junk (filters.map LoadedFilter.toPrefixFilter)
      calledNumber =
        some (after, (firstFilter filters number.1.1).map fun filter => filter.id) ∧
      Holds '\x00' 80 (filteredNumber filters number.1.1) after

/-! ## One filter -/

/-- A filter matches when the length does not exclude it and the first characters are its prefix. -/
theorem PrefixFilter.matches_iff (filter : PrefixFilter) (number : List Char) :
    filter.Matches number ↔ ¬ (0 < filter.len ∧ (number.length : ℤ) ≠ filter.len) ∧
      number.take filter.filteringPrefix.length = filter.filteringPrefix := by
  rw [Matches, List.prefix_iff_eq_take, eq_comm, not_and_not_right]
  exact and_comm

theorem holds_cleared : Holds '\x00' 80 [] (List.replicate 80 '\x00') :=
  ⟨List.length_replicate, List.not_mem_nil, List.replicate 79 '\x00', rfl⟩

section Filter

variable {filter : LoadedFilter} {number : List Char} (junk : Fin 32 → Char)

/-- The comparison of the first characters decides whether the filter matches. -/
theorem prefixFilterCutiReplaceBuf_eq (plain : '\x00' ∉ number) (ret : List Char) :
    prefixFilterCutiReplaceBuf junk filter.toPrefixFilter number ret =
      if filter.Matches number then
        (strcpy '\x00' ret (number.drop (asUnsigned 64 filter.filteringNumber))).bind fun ret =>
          if filter.replaceStr = [] then some ret
          else
            (strcpy '\x00' (List.replicate 80 '\x00') filter.replaceStr).bind fun replaceStr =>
              (strcat '\x00' replaceStr (text '\x00' ret)).bind fun replaceStr =>
                strcpy '\x00' ret (text '\x00' replaceStr)
      else store ret 0 '\x00' := by
  obtain ⟨buf, copied, buf_text⟩ := strncpy_store (List.ofFn junk) plain
    (n := filter.filteringPrefix.length) (by simpa using filter.cut_lt)
  simp only [prefixFilterCutiReplaceBuf, copied, Option.bind_some, buf_text,
    PrefixFilter.matches_iff]
  by_cases excluded : 0 < filter.len ∧ (number.length : ℤ) ≠ filter.len
  · rw [if_pos excluded, if_neg fun matched => matched.1 excluded]
  · simp only [excluded, if_false, not_false_eq_true, true_and]

/-- A filter that does not match gives the empty number. -/
theorem prefixFilterCutiReplaceBuf_of_not (plain : '\x00' ∉ number)
    (unmatched : ¬ filter.Matches number) :
    ∃ ret, prefixFilterCutiReplaceBuf junk filter.toPrefixFilter number (List.replicate 80 '\x00') =
      some ret ∧ Holds '\x00' 80 [] ret := by
  refine ⟨'\x00' :: List.replicate 79 '\x00', ?_, holds_cleared⟩
  rw [prefixFilterCutiReplaceBuf_eq junk plain, if_neg unmatched]
  rfl

/-- The digits that are left of a number fit the buffer of the result. -/
theorem strcpy_rest (plain : '\x00' ∉ number) (length : number.length < 80) (count : ℕ) :
    ∃ ret, strcpy '\x00' (List.replicate 80 '\x00') (number.drop count) = some ret ∧
      Holds '\x00' 80 (number.drop count) ret := by
  refine strcpy_of_lt _ (fun member => plain (List.mem_of_mem_drop member)) rfl ?_
  rw [List.length_drop]
  omega

/-- The replacement fits the buffer in which the new number is put together. -/
theorem strcpy_replace (filter : LoadedFilter) :
    ∃ replaceStr, strcpy '\x00' (List.replicate 80 '\x00') filter.replaceStr = some replaceStr ∧
      Holds '\x00' 80 filter.replaceStr replaceStr :=
  strcpy_of_lt _ filter.replace_plain rfl (filter.replace_lt.trans (by decide))

/-- A filter that matches gives its result, when that fits. -/
theorem prefixFilterCutiReplaceBuf_of_matches (plain : '\x00' ∉ number)
    (length : number.length < 80)
    (matched : filter.Matches number) (fits : (filter.result number).length < 80) :
    ∃ ret, prefixFilterCutiReplaceBuf junk filter.toPrefixFilter number (List.replicate 80 '\x00') =
      some ret ∧ Holds '\x00' 80 (filter.result number) ret := by
  rw [prefixFilterCutiReplaceBuf_eq junk plain, if_pos matched]
  rw [PrefixFilter.result] at fits ⊢
  generalize asUnsigned 64 filter.filteringNumber = count at fits ⊢
  obtain ⟨ret, copied, holds⟩ := strcpy_rest plain length count
  rw [copied, Option.bind_some]
  by_cases plain_cut : filter.replaceStr = []
  · refine ⟨ret, if_pos plain_cut, ?_⟩
    rwa [plain_cut, List.nil_append]
  · obtain ⟨replaceStr, replaced, replace_holds⟩ := strcpy_replace filter
    rw [List.length_append] at fits
    obtain ⟨both, joined, both_holds⟩ := replace_holds.strcat_of_lt holds.plain fits
    rw [if_neg plain_cut, replaced, Option.bind_some, holds.text_eq, joined, Option.bind_some,
      both_holds.text_eq]
    exact strcpy_of_lt ret both_holds.plain holds.length both_holds.length_lt

/-- A result that does not fit runs over the buffer in which it is put together. -/
theorem prefixFilterCutiReplaceBuf_eq_none (plain : '\x00' ∉ number) (length : number.length < 80)
    (matched : filter.Matches number) (long : 80 ≤ (filter.result number).length) :
    prefixFilterCutiReplaceBuf junk filter.toPrefixFilter number (List.replicate 80 '\x00') =
      none := by
  rw [prefixFilterCutiReplaceBuf_eq junk plain, if_pos matched]
  rw [PrefixFilter.result] at long
  generalize asUnsigned 64 filter.filteringNumber = count at long ⊢
  obtain ⟨ret, copied, holds⟩ := strcpy_rest plain length count
  obtain ⟨replaceStr, replaced, replace_holds⟩ := strcpy_replace filter
  -- without a replacement the digits that are left would fit
  have replaces : filter.replaceStr ≠ [] := by
    intro empty
    have rest_lt := holds.length_lt
    rw [empty, List.nil_append] at long
    omega
  rw [List.length_append] at long
  rw [copied, Option.bind_some, if_neg replaces, replaced, Option.bind_some, holds.text_eq,
    replace_holds.strcat_eq_none long, Option.bind_none]

end Filter

/-! ## The list -/

section List

variable {number : CalledNumber}

theorem firstFilter_cons (filter : LoadedFilter) (filters : List LoadedFilter)
    (number : List Char) :
    firstFilter (filter :: filters) number =
      if filter.Applies number then some filter else firstFilter filters number := by
  rw [firstFilter, List.find?_cons]
  by_cases applies : filter.Applies number
  · simp [applies]
  · simp [applies, firstFilter]

/-- The first filter that applies is used; its result has to fit. -/
theorem cdrCalledNumberFilteringBuf_eq (filters : List LoadedFilter) (junk : Fin 32 → Char)
    {calledNumber : List Char} (holds : Holds '\x00' 80 number.1.1 calledNumber) :
    if ∀ filter ∈ firstFilter filters number.1.1, (filter.result number.1.1).length < 80 then
      ∃ after, cdrCalledNumberFilteringBuf junk (filters.map LoadedFilter.toPrefixFilter)
          calledNumber =
        some (after, (firstFilter filters number.1.1).map fun filter => filter.id) ∧
      Holds '\x00' 80 (filteredNumber filters number.1.1) after
    else cdrCalledNumberFilteringBuf junk (filters.map LoadedFilter.toPrefixFilter) calledNumber =
      none := by
  have plain := number.1.2
  have length := number.2
  induction filters with
  | nil =>
      rw [if_pos fun _ member => absurd member (by simp [firstFilter])]
      exact ⟨calledNumber, rfl, holds⟩
  | cons filter filters induction =>
      simp only [List.map_cons, cdrCalledNumberFilteringBuf, if_neg filter.id_ne, holds.text_eq,
        filteredNumber, firstFilter_cons]
      by_cases applies : filter.Applies number.1.1
      · simp only [if_pos applies, Option.mem_some_iff, forall_eq', Option.map_some,
          Option.getD_some]
        by_cases fits : (filter.result number.1.1).length < 80
        · obtain ⟨ret, replaced, ret_holds⟩ :=
            prefixFilterCutiReplaceBuf_of_matches junk plain length applies.1 fits
          obtain ⟨after, copied, after_holds⟩ :=
            strcpy_of_lt calledNumber ret_holds.plain holds.length fits
          rw [if_pos fits]
          refine ⟨after, ?_, after_holds⟩
          rw [replaced, Option.bind_some, ret_holds.text_eq, if_neg applies.2, copied,
            Option.map_some]
        · rw [if_neg fits, prefixFilterCutiReplaceBuf_eq_none junk plain length applies.1
            (not_lt.mp fits), Option.bind_none]
      · obtain ⟨ret, replaced, ret_holds⟩ : ∃ ret, prefixFilterCutiReplaceBuf junk
            filter.toPrefixFilter number.1.1 (List.replicate 80 '\x00') = some ret ∧
              Holds '\x00' 80 [] ret := by
          by_cases matched : filter.Matches number.1.1
          · have nothing : filter.result number.1.1 = [] := by
              by_contra left
              exact applies ⟨matched, left⟩
            have given := prefixFilterCutiReplaceBuf_of_matches junk plain length matched
              (by rw [nothing]; decide)
            rwa [nothing] at given
          · exact prefixFilterCutiReplaceBuf_of_not junk plain matched
        simp only [if_neg applies, replaced, Option.bind_some, ret_holds.text_eq, if_true]
        exact induction

/-- A called number becomes what the first filter that applies stands for, in the buffers of the
program, exactly when that has less than eighty characters. -/
theorem numberFiltered_iff (filters : List LoadedFilter) (number : CalledNumber) :
    NumberFiltered filters number ↔
      ∀ filter ∈ firstFilter filters number.1.1, (filter.result number.1.1).length < 80 := by
  constructor
  · intro filtered
    by_contra long
    obtain ⟨calledNumber, -, holds⟩ :=
      strcpy_of_lt (List.replicate 80 '\x00') number.1.2 rfl number.2
    obtain ⟨after, ran, -⟩ := filtered (fun _ => '\x00') calledNumber holds
    have overrun := cdrCalledNumberFilteringBuf_eq filters (fun _ => '\x00') holds
    rw [if_neg long, ran] at overrun
    cases overrun
  · intro fits junk calledNumber holds
    have ran := cdrCalledNumberFilteringBuf_eq filters junk holds
    rwa [if_pos fits] at ran

/-- As an unsigned number a count below zero exceeds every length. -/
theorem drop_count (filter : LoadedFilter) {number : List Char} (length : number.length < 80) :
    number.drop (asUnsigned 64 filter.filteringNumber) =
      if filter.filteringNumber < 0 then [] else number.drop filter.filteringNumber.toNat := by
  have low := filter.count_ge
  have high := filter.count_lt
  generalize filter.filteringNumber = count at low high ⊢
  rw [asUnsigned]
  by_cases negative : count < 0
  · rw [if_pos negative, List.drop_eq_nil_iff]
    have wrapped : count % 2 ^ 64 = count + 2 ^ 64 := by omega
    omega
  · have same : count % 2 ^ 64 = count := by omega
    rw [if_neg negative, same]

/-- Without regard to the buffers a CDR gets the number of the first filter that applies. -/
theorem cdrCalledNumberFilteringMatch_text (filters : List LoadedFilter) (cdr : CdrT)
    (length : (cdr.text .calledNumber).length < 80) :
    (cdr.cdrCalledNumberFilteringMatch (filters.map LoadedFilter.toPrefixFilter)).text
      .calledNumber = filteredNumber filters (cdr.text .calledNumber) := by
  induction filters with
  | nil => rfl
  | cons filter filters induction =>
      rw [List.map_cons, CdrT.cdrCalledNumberFilteringMatch, if_neg filter.id_ne, filteredNumber,
        firstFilter_cons]
      have replaced : prefixFilterCutiReplace filter.toPrefixFilter (cdr.text .calledNumber) =
          if filter.Matches (cdr.text .calledNumber) then filter.result (cdr.text .calledNumber)
          else [] := by
        rw [prefixFilterCutiReplace, PrefixFilter.result, drop_count filter length]
        simp only [PrefixFilter.matches_iff]
        by_cases excluded : 0 < filter.len ∧ ((cdr.text .calledNumber).length : ℤ) ≠ filter.len
        · rw [if_pos excluded, if_neg fun matched => matched.1 excluded]
        · simp only [excluded, if_false, not_false_eq_true, true_and]
      by_cases applies : filter.Applies (cdr.text .calledNumber)
      · rw [replaced, if_pos applies.1, if_pos applies.2, if_pos applies, CdrT.setNum, CdrT.setText]
        exact Function.update_self CdrText.calledNumber _ cdr.text
      · have empty : prefixFilterCutiReplace filter.toPrefixFilter
            (cdr.text .calledNumber) = [] := by
          by_contra left
          rw [replaced] at left
          by_cases matched : filter.Matches (cdr.text .calledNumber)
          · exact applies ⟨matched, by rwa [if_pos matched] at left⟩
          · exact left (if_neg matched)
        rw [empty, if_neg (not_not.mpr rfl), if_neg applies]
        exact induction

end List

/-- A filter that exchanges the trunk digit for a country code. -/
def countryCode : LoadedFilter where
  id := 1
  filteringPrefix := ['0']
  filteringNumber := 1
  replaceStr := "359".toList
  len := 0
  id_ne := by decide
  cut_plain := by decide
  cut_lt := by decide
  count_ge := by decide
  count_lt := by decide
  replace_plain := by decide
  replace_lt := by decide

/-- A number of 79 digits that begins with the trunk digit would get 81. -/
theorem countryCode_overrun :
    ¬ NumberFiltered [countryCode] ⟨⟨List.replicate 79 '0', by decide⟩, by decide⟩ := by
  intro filtered
  obtain ⟨after, ran, -⟩ := filtered (fun _ => '\x00') (List.replicate 79 '0' ++ ['\x00'])
    ⟨rfl, by decide, [], rfl⟩
  have overrun : cdrCalledNumberFilteringBuf (fun _ => '\x00')
      [countryCode.toPrefixFilter] (List.replicate 79 '0' ++ ['\x00']) = none := by decide +kernel
  rw [List.map_singleton, overrun] at ran
  cases ran

end RateEngine
