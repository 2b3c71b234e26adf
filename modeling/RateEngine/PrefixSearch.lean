import RateEngine.PriceWalk
import RateEngine.RateChoice

/-!
# The longest prefix wins

`rt_data_q_prefix_sql` goes through the rates of a plan and stops at the first one that is valid,
begins the called number and has a time condition that passes.  The rates come in descending order
of their prefixes.  Among the prefixes of one number this order is that of their lengths, and the
catch-all `&` stands behind every digit, so the first rate that is accepted has a longest prefix.
-/

namespace RateEngine

/-- A prefix as provisioning stores it: the catch-all, or digits and `+`. -/
def IsDialPrefix (text : String) : Prop := text = "&" ∨ ∀ c ∈ text.toList, c.isDigit ∨ c = '+'

instance (text : String) : Decidable (IsDialPrefix text) :=
  haveI : Decidable (∀ c ∈ text.toList, c.isDigit ∨ c = '+') := List.decidableBAll _ _
  inferInstanceAs (Decidable (_ ∨ _))

/-- The digits that a rate matches; the catch-all matches none. -/
def Rate.matchLength (rt : Rate) : ℕ := if rt.prefixStr = "&" then 0 else rt.prefixStr.length

/-- The rate is valid at the time of the call, its prefix begins the called number or is the
catch-all, and its time condition passes. -/
def Rate.ValidFor (env : Env) (pre : Rating) (rt : Rate) : Prop :=
  rt.matches pre.ts pre.cld = true ∧
    (tcOutcome env rt.tariffId pre.epoch pre.dow).isSome = true

instance (env : Env) (pre : Rating) (rt : Rate) : Decidable (rt.ValidFor env pre) :=
  inferInstanceAs (Decidable (_ ∧ _))

/-- The search has selected the rate and loaded its tariff. -/
structure Rate.SelectedIn (env : Env) (rt : Rate) (rtp : Racc) : Prop where
  tariffId : rtp.pre.tariffId = rt.tariffId
  rateId : rtp.pre.rateId = rt.id
  prefixId : rtp.pre.prefixId = rt.prefixId
  freeBillsecId : rtp.pre.freeBillsecId = rt.freeBillsecId
  loaded : ∀ tr, env.tariffRows rt.tariffId = some tr → rtp.bplan.calcFuncs = some tr

/-- The search has left the record without a rate. -/
structure NoneSelected (rtp rtp' : Racc) : Prop where
  tariffId : rtp.pre.tariffId = 0 → rtp'.pre.tariffId = 0
  unloaded : rtp'.bplan = rtp.bplan

/-- The order of the rates query: descending by the bytes of the prefix. -/
def DescendingPrefixes (rates : List Rate) : Prop :=
  rates.Pairwise fun rt later => charsLe later.prefixStr.toList rt.prefixStr.toList = true

instance (rates : List Rate) : Decidable (DescendingPrefixes rates) :=
  inferInstanceAs (Decidable (rates.Pairwise _))

/-! ## The order of prefixes -/

/-- Of two prefixes of one text the one that comes first in descending order is the longer one. -/
theorem length_le_of_prefix {first later text : List Char} (first_begins : first <+: text)
    (later_begins : later <+: text) (ordered : ¬ first < later) : later.length ≤ first.length := by
  rcases List.prefix_or_prefix_of_prefix later_begins first_begins with shorter | ⟨more, rfl⟩
  · exact shorter.length_le
  · cases more with
    | nil => simp
    | cons c rest =>
        have after : first ++ [] < first ++ c :: rest :=
          List.append_left_lt (List.nil_lt_cons c rest)
        rw [List.append_nil] at after
        exact (ordered after).elim

/-- The catch-all comes behind every prefix that has a digit or `+`. -/
theorem eq_nil_of_behind_catchAll {text : List Char} (dial : ∀ c ∈ text, c.isDigit ∨ c = '+')
    (behind : ¬ ['&'] < text) : text = [] := by
  cases text with
  | nil => rfl
  | cons c rest =>
      have after : '&' < c := by
        rcases dial c List.mem_cons_self with digit | rfl
        · simp only [Char.isDigit, Bool.and_eq_true, decide_eq_true_eq] at digit
          exact UInt32.lt_of_lt_of_le (by decide : '&'.val < '0'.val) digit.1
        · decide
      exact (behind (List.Lex.rel after)).elim

/-- A matching rate behind another one in descending order does not match more digits. -/
theorem matchLength_le_of_behind {first later : Rate} {ts : ℤ} {cld : String}
    (first_matches : first.matches ts cld = true) (later_matches : later.matches ts cld = true)
    (later_dial : IsDialPrefix later.prefixStr)
    (ordered : charsLe later.prefixStr.toList first.prefixStr.toList = true) :
    later.matchLength ≤ first.matchLength := by
  have not_after : ¬ first.prefixStr.toList < later.prefixStr.toList := by
    simpa [charsLe] using ordered
  by_cases later_all : later.prefixStr = "&"
  · simp [Rate.matchLength, later_all]
  have later_begins : later.prefixStr.toList <+: cld.toList := by
    simpa [Rate.matches, later_all] using (Bool.and_eq_true_iff.mp later_matches).2
  by_cases first_all : first.prefixStr = "&"
  · have empty : later.prefixStr.toList = [] := by
      rw [first_all] at not_after
      exact eq_nil_of_behind_catchAll (later_dial.resolve_left later_all) not_after
    simp [Rate.matchLength, later_all, ← String.length_toList, empty]
  · have first_begins : first.prefixStr.toList <+: cld.toList := by
      simpa [Rate.matches, first_all] using (Bool.and_eq_true_iff.mp first_matches).2
    simpa only [Rate.matchLength, later_all, first_all, if_false, ← String.length_toList] using
      length_le_of_prefix first_begins later_begins not_after

/-! ## The search -/

section Search

variable {env : Env}

theorem rtDataQTariff_loaded {rtp : Racc} {tr : List CalcFunction}
    (rows : env.tariffRows rtp.pre.tariffId = some tr) :
    (rtDataQTariff env rtp).bplan.calcFuncs = some tr := by
  rw [Env.tariffRows] at rows
  split at rows
  · cases rows
  rename_i set
  obtain ⟨loaded, sold⟩ := Option.filter_eq_some_iff.mp rows
  rw [rtDataQTariff, if_neg set, loaded]
  cases tr with
  | nil => simp at sold
  | cons tier rest => rfl

/-- The search selects the first rate that is valid for the call, and none when there is none. -/
theorem rtDataQPrefix_first (keyed : env.KeyedTimeConds) {rates : List Rate}
    (tariffs : ∀ rt ∈ rates, rt.tariffId ≠ 0) (rtp : Racc) :
    (∃ before rt after, rates = before ++ rt :: after ∧
        (∀ earlier ∈ before, ¬ earlier.ValidFor env rtp.pre) ∧ rt.ValidFor env rtp.pre ∧
          rt.SelectedIn env (rtDataQPrefix env rates rtp)) ∨
      (∀ rt ∈ rates, ¬ rt.ValidFor env rtp.pre) ∧
        NoneSelected rtp (rtDataQPrefix env rates rtp) := by
  induction rates generalizing rtp with
  | nil => exact Or.inr ⟨by simp, ⟨id, rfl⟩⟩
  | cons rt rest induction =>
      rw [List.forall_mem_cons] at tariffs
      -- a rate that is not valid hands on to the rest, with a record of the same call
      have skip (next : Racc) (same : ∀ other : Rate,
            other.ValidFor env next.pre ↔ other.ValidFor env rtp.pre)
          (unloaded : next.bplan = rtp.bplan)
          (cleared : rtp.pre.tariffId = 0 → next.pre.tariffId = 0)
          (invalid : ¬ rt.ValidFor env rtp.pre) :
          (∃ before found after, rt :: rest = before ++ found :: after ∧
              (∀ earlier ∈ before, ¬ earlier.ValidFor env rtp.pre) ∧
                found.ValidFor env rtp.pre ∧ found.SelectedIn env (rtDataQPrefix env rest next)) ∨
            (∀ other ∈ rt :: rest, ¬ other.ValidFor env rtp.pre) ∧
              NoneSelected rtp (rtDataQPrefix env rest next) := by
        have searched := induction tariffs.2 next
        simp only [same] at searched
        rcases searched with ⟨before, found, after, rfl, earlier, valid, selected⟩ | ⟨none, left⟩
        · exact Or.inl ⟨rt :: before, found, after, rfl,
            List.forall_mem_cons.mpr ⟨invalid, earlier⟩, valid, selected⟩
        · exact Or.inr ⟨List.forall_mem_cons.mpr ⟨invalid, none⟩,
            fun unset => left.tariffId (cleared unset), left.unloaded.trans unloaded⟩
      by_cases matched : rt.matches rtp.pre.ts rtp.pre.cld = true
      · have in_force : rtDataQChkRatePeriods rt.startPeriod rt.endPeriod rtp.pre.ts = true :=
          (Bool.and_eq_true_iff.mp matched).1
        have same_number : rt.prefixStr = "&" ∨
            rt.prefixStr.toList.isPrefixOf rtp.pre.cld.toList = true := by
          simpa using (Bool.and_eq_true_iff.mp matched).2
        obtain ⟨limit, tcId, checked, -⟩ := rtChkTrOpt_eq keyed
          { rtp.pre with
            tariffId := rt.tariffId
            rateId := rt.id
            prefixId := rt.prefixId
            freeBillsecId := rt.freeBillsecId }
        simp only [rtDataQPrefix, tariffs.1, in_force, same_number, not_true, if_true, if_false,
          checked]
        by_cases passes : (tcOutcome env rt.tariffId rtp.pre.epoch rtp.pre.dow).isSome = true
        · simp only [passes, if_true, ne_eq, tariffs.1, not_false_eq_true]
          refine Or.inl ⟨[], rt, rest, rfl, by simp, ⟨matched, passes⟩, ?_⟩
          constructor
          case loaded => exact fun tr rows => rtDataQTariff_loaded rows
          all_goals rw [(rtDataQTariff_frame env _).2.2.1]
        · simp only [passes, if_false, Bool.false_eq_true, ne_eq, not_true]
          exact skip _ (fun other => Iff.rfl) rfl (fun _ => rfl) (fun valid => passes valid.2)
      · have handed : rtDataQPrefix env (rt :: rest) rtp = rtDataQPrefix env rest rtp := by
          simp only [rtDataQPrefix, tariffs.1, if_false]
          split
          · rfl
          split
          · rename_i in_force same_number
            refine (matched ?_).elim
            simpa [Rate.matches, not_not.mp in_force] using same_number
          · rfl
        rw [handed]
        exact skip rtp (fun other => Iff.rfl) rfl id (fun valid => matched valid.1)

end Search

/-! ## The longest prefix -/

/-- Over rates in descending order of their prefixes, whatever the time conditions give, the search
selects a valid rate with the longest prefix and loads its tariff, and it selects none only when no
rate is valid. -/
theorem rtDataQPrefix_longest {env : Env} (keyed : env.KeyedTimeConds) {rates : List Rate}
    (descending : DescendingPrefixes rates) (dial : ∀ rt ∈ rates, IsDialPrefix rt.prefixStr)
    (tariffs : ∀ rt ∈ rates, rt.tariffId ≠ 0) (rtp : Racc) :
    (∃ rt ∈ rates, rt.ValidFor env rtp.pre ∧
        (∀ other ∈ rates, other.ValidFor env rtp.pre → other.matchLength ≤ rt.matchLength) ∧
          rt.SelectedIn env (rtDataQPrefix env rates rtp)) ∨
      (∀ rt ∈ rates, ¬ rt.ValidFor env rtp.pre) ∧
        NoneSelected rtp (rtDataQPrefix env rates rtp) := by
  refine (rtDataQPrefix_first keyed tariffs rtp).imp_left ?_
  rintro ⟨before, rt, after, rfl, earlier, valid, selected⟩
  refine ⟨rt, by simp, valid, fun other member other_valid => ?_, selected⟩
  rcases List.mem_append.mp member with before_mem | behind
  · exact (earlier other before_mem other_valid).elim
  rcases List.mem_cons.mp behind with rfl | after_mem
  · exact le_rfl
  · have behind_rt : charsLe other.prefixStr.toList rt.prefixStr.toList = true :=
      List.rel_of_pairwise_cons (List.pairwise_append.mp descending).2.1 after_mem
    exact matchLength_le_of_behind valid.1 other_valid.1 (dial other member) behind_rt

/-- The rates of Germany, of one of its mobile networks and of the rest of the world. -/
def germanRates : List Rate :=
  [{ id := 1, prefixId := 1, prefixStr := "49171", tariffId := 1, startPeriod := 0, endPeriod := 0
     freeBillsecId := 0 },
    { id := 2, prefixId := 2, prefixStr := "49", tariffId := 2, startPeriod := 0, endPeriod := 0
      freeBillsecId := 0 },
    { id := 3, prefixId := 3, prefixStr := "&", tariffId := 3, startPeriod := 0, endPeriod := 0
      freeBillsecId := 0 }]

/-- The tariff of the mobile network has a time condition that no call meets. -/
def closedMobileEnv : Env :=
  { bareEnv with timeConditionId := fun tariffId => if tariffId = 1 then some [7] else some [] }

/-- A call to the mobile network falls back to the rate of the country. -/
theorem germanRates_longest :
    let rtp : Racc := { rtm := .clg, pre := { cld := "49171555" } }
    ∃ rt ∈ germanRates, rt.ValidFor closedMobileEnv rtp.pre ∧
      (∀ other ∈ germanRates, other.ValidFor closedMobileEnv rtp.pre →
        other.matchLength ≤ rt.matchLength) ∧
      rt.SelectedIn closedMobileEnv (rtDataQPrefix closedMobileEnv germanRates rtp) :=
  (rtDataQPrefix_longest (by simp [Env.KeyedTimeConds, closedMobileEnv, bareEnv]) (by decide)
    (by decide) (by decide) _).resolve_right
      (fun none => none.1 germanRates[1] (List.getElem_mem _) (by decide))

end RateEngine
