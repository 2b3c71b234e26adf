import RateEngine.CdrRaters

/-!
# One pass of the janitor

`cc_server_thread` goes through the call table: it rates and clears the calls that have a term
record, clears the calls that have outlived every grant, and counts the others in 16 bits.  The age
of a call is compared with a sum of 32 bits without sign.  This file says what one pass leaves,
without requests in between, and for which limits it is the pass that was meant.
-/

namespace RateEngine

/-! ## The pass -/

/-- What the pass reads besides the table: at each slot the time, and the answers of the mediator to
the CDR of the call with its `call_uid`. -/
structure JanitorEnv where
  env : Env
  callMaxsecLimit : UInt32
  now : ℕ → ℤ
  addCdr : ℕ → String → Cdr → ℤ
  getCdrId : ℕ → String → Cdr → ℤ

/-- The table, `cc_server_sim`, and the calls rated so far with their slots. -/
structure JanitorPass where
  tbl : CcTbl
  sim : UInt16 := 0
  rated : List (ℕ × Racc) := []

/-- The CDR that `cc_server_add_cdr` fills from a slot, and the `call_uid` beside it. -/
def CcSlot.cdr (e : JanitorEnv) (slot : CcSlot) (term : CcTerm) : String × Cdr :=
  (term.callUid, ccServerAddCdr e.env slot.rtp.pre slot.max term 0)

/-- `pre->cdr_id` after `cc_server_add_cdr`. -/
def CcSlot.addedCdrId (e : JanitorEnv) (i : ℕ) (slot : CcSlot) (term : CcTerm) : ℤ :=
  let (callUid, cdr) := slot.cdr e term
  if e.addCdr i callUid cdr = 0 then e.getCdrId i callUid cdr else 0

/-- The record with which `cc_call_rating` rates the call. -/
def CcSlot.record (e : JanitorEnv) (slot : CcSlot) (term : CcTerm) (cdrId : ℤ) : Racc :=
  { slot.rtp with
    pre :=
      { slot.rtp.pre with
        timestamp := convertEpochToTs e.env slot.rtp.pre.ts
        cdrId := cdrId.toNat
        ratingModeId := RtMode.clg.id
        billsec := term.billsec } }

/-- The test for the age of the call: the sum has 32 bits without sign. -/
def CcSlot.outlived (e : JanitorEnv) (i : ℕ) (slot : CcSlot) : Bool :=
  (e.callMaxsecLimit + 90).toNat < e.now i - slot.max.ts

namespace JanitorPass

/-- The branch for a normal clearing. -/
def rate (e : JanitorEnv) (s : JanitorPass) (i : ℕ) (slot : CcSlot) (term : CcTerm) : JanitorPass :=
  if term.status = .normalClear then
    let cdrId := if 0 < term.billsec then slot.addedCdrId e i term else slot.rtp.pre.cdrId
    if 0 < cdrId then { s with rated := s.rated ++ [(i, slot.record e term cdrId)] } else s
  else s

/-- `cc_server_call_clear(&cc_tbl[i])` and `cc_server_sim--`. -/
def clear (s : JanitorPass) (i : ℕ) : JanitorPass :=
  { s with tbl := ccServerCallClear s.tbl i, sim := s.sim - 1 }

/-- The body of the loop. -/
def visit (e : JanitorEnv) (s : JanitorPass) (i : ℕ) : JanitorPass :=
  match s.tbl[i]? with
  | some (some slot) =>
      let s :=
        match slot.term with
        | some term => (s.rate e i slot term).clear i
        | none => if slot.outlived e i then s.clear i else s
      { s with sim := s.sim + 1 }
  | _ => s

/-- The first `k` slots of the pass. -/
def upTo (e : JanitorEnv) (tbl : CcTbl) (k : ℕ) : JanitorPass :=
  (List.range k).foldl (visit e) { tbl }

end JanitorPass

/-- One pass of `cc_server_thread`. -/
def ccServerThread (e : JanitorEnv) (tbl : CcTbl) : JanitorPass := .upTo e tbl tbl.length

/-! ## What is asked of it -/

/-- `cc_tbl` between two passes: `sim_calls` has 16 bits, and no slot has a stored CDR. -/
structure SettledTbl where
  tbl : CcTbl
  small : tbl.length ≤ 65535
  unstored : ∀ slot, some slot ∈ tbl → slot.rtp.pre.cdrId = 0

/-- A granted call has no stored CDR, so `cc_maxsec_f` fills the table as a pass expects it. -/
theorem rtMaxsec_unstored {env : Env} {db db' : Db} {server : ℕ} {max : CcMax} {sim : ℤ}
    {answer : Rating} {rtp : Racc}
    (granted : rtMaxsec env db (ccMaxsecPre server max) sim = (answer, some rtp, db')) :
    rtp.pre.cdrId = 0 := by
  cases found : rtMaxsecAccount env (ccMaxsecPre server max) with
  | error refused =>
      rw [rtMaxsec, found] at granted
      cases granted
  | ok account =>
      obtain ⟨looked_up, card⟩ := account
      obtain ⟨limit, maxsec, stored⟩ := rtMaxsec_pre env db sim found
      have pre_eq : rtp.pre = answer := by
        rw [rtMaxsec, found] at granted
        dsimp only at granted
        split at granted
        · cases granted
        · obtain ⟨answer_eq, rest⟩ := Prod.mk.inj granted
          rw [← answer_eq, Option.some.inj (Prod.mk.inj rest).1]
      rw [granted] at stored
      rw [pre_eq, show answer = _ from stored]
      change (rtRateSearching env db looked_up).1.pre.cdrId = 0
      rw [(rtRateSearching_request env db looked_up).2.2, (rtMaxsecAccount_ok found).1]
      rfl

/-- The call ended normally after some seconds, and its CDR was inserted and found. -/
def CcSlot.billable (e : JanitorEnv) (i : ℕ) (slot : CcSlot) : Bool :=
  slot.term.any fun term =>
    let (callUid, cdr) := slot.cdr e term
    term.status = .normalClear && 0 < term.billsec && e.addCdr i callUid cdr = 0 &&
      0 < e.getCdrId i callUid cdr

/-- The slot is due: its call has ended or is older than the limit with the time to wait. -/
def CcSlot.due (e : JanitorEnv) (i : ℕ) (slot : CcSlot) : Bool :=
  slot.settled e.callMaxsecLimit.toNat (e.now i)

/-- What is asked of a pass: it frees the slots that are due and no others, rates the billable calls
once and in order, and ends with the number of the calls that are left. -/
structure JanitorPass.Settles (e : JanitorEnv) (tbl : CcTbl) (after : JanitorPass) : Prop where
  freed : ∀ i (slot : CcSlot), tbl[i]? = some (some slot) →
    (after.tbl[i]? = some none ↔ slot.due e i = true)
  kept : ∀ i, (∀ slot : CcSlot, tbl[i]? = some (some slot) → slot.due e i = false) →
    after.tbl[i]? = tbl[i]?
  rated : after.rated.map Prod.fst = (List.range tbl.length).filter fun i =>
    (tbl[i]?.bind id).any fun slot => slot.billable e i
  sim : after.sim.toNat = after.tbl.countP Option.isSome

/-! ## What the pass leaves -/

/-- The loop clears the slot. -/
def CcSlot.cleared (e : JanitorEnv) (i : ℕ) (slot : CcSlot) : Bool :=
  slot.term.isSome || slot.outlived e i

/-- What the loop leaves of a slot. -/
def CcSlot.left (e : JanitorEnv) (i : ℕ) (slot : CcSlot) : Option CcSlot :=
  if slot.cleared e i then none else some slot

namespace JanitorPass

variable {e : JanitorEnv} {s : JanitorPass} {i : ℕ} {slot : CcSlot}

@[simp]
theorem rate_tbl (term : CcTerm) : (s.rate e i slot term).tbl = s.tbl := by
  rw [rate]
  split
  · dsimp only
    split
    all_goals
      split <;> rfl
  · rfl

@[simp]
theorem rate_sim (term : CcTerm) : (s.rate e i slot term).sim = s.sim := by
  rw [rate]
  split
  · dsimp only
    split
    all_goals
      split <;> rfl
  · rfl

/-- A call of a slot without a stored CDR is rated when it is billable. -/
theorem rate_rated {term : CcTerm} (ended : slot.term = some term)
    (unstored : slot.rtp.pre.cdrId = 0) :
    (s.rate e i slot term).rated.map Prod.fst =
      s.rated.map Prod.fst ++ if slot.billable e i then [i] else [] := by
  have billable : slot.billable e i = true ↔ term.status = .normalClear ∧ 0 < term.billsec ∧
      e.addCdr i (slot.cdr e term).1 (slot.cdr e term).2 = 0 ∧
        0 < e.getCdrId i (slot.cdr e term).1 (slot.cdr e term).2 := by
    simp [CcSlot.billable, ended, and_assoc]
  rw [rate]
  simp only [billable, unstored, CcSlot.addedCdrId]
  by_cases normal : term.status = .normalClear
  · by_cases seconds : 0 < term.billsec
    · by_cases added : e.addCdr i (slot.cdr e term).1 (slot.cdr e term).2 = 0
      · by_cases found : 0 < e.getCdrId i (slot.cdr e term).1 (slot.cdr e term).2
        · simp [normal, seconds, added, found]
        · simp [normal, seconds, added, found]
      · simp [normal, seconds, added]
    · simp [normal, seconds]
  · simp [normal]

/-- What the loop does at an occupied slot. -/
theorem visit_some (found : s.tbl[i]? = some (some slot)) (unstored : slot.rtp.pre.cdrId = 0) :
    (s.visit e i).tbl = s.tbl.set i (slot.left e i) ∧
      (s.visit e i).sim = s.sim + (if (slot.left e i).isSome then 1 else 0) ∧
        (s.visit e i).rated.map Prod.fst =
          s.rated.map Prod.fst ++ if slot.billable e i then [i] else [] := by
  rw [visit, found]
  dsimp only
  cases ended : slot.term with
  | some term =>
      have cleared : slot.left e i = none := by
        simp [CcSlot.left, CcSlot.cleared, ended]
      rw [cleared]
      refine ⟨by simp [clear, ccServerCallClear], by simp [clear], ?_⟩
      exact rate_rated ended unstored
  | none =>
      have unbillable : slot.billable e i = false := by simp [CcSlot.billable, ended]
      cases outlived : slot.outlived e i with
      | true =>
          have cleared : slot.left e i = none := by
            simp [CcSlot.left, CcSlot.cleared, outlived]
          simp [cleared, unbillable, clear, ccServerCallClear]
      | false =>
          have stays : slot.left e i = some slot := by
            simp [CcSlot.left, CcSlot.cleared, ended, outlived]
          obtain ⟨inside, at_i⟩ := List.getElem?_eq_some_iff.mp found
          refine ⟨?_, by simp [stays], by simp [unbillable]⟩
          rw [stays, ← at_i]
          exact (List.set_getElem_self inside).symm

theorem visit_none (free : ∀ slot, s.tbl[i]? ≠ some (some slot)) : s.visit e i = s := by
  rw [visit]
  split
  · rename_i slot found
    exact absurd found (free slot)
  · rfl

/-- The state of the pass after `k` slots. -/
structure Scanned (e : JanitorEnv) (tbl : CcTbl) (k : ℕ) (s : JanitorPass) : Prop where
  length : s.tbl.length = tbl.length
  cells : ∀ i, s.tbl[i]? =
    if i < k then tbl[i]?.map fun cell => cell.bind fun slot : CcSlot => slot.left e i else tbl[i]?
  sim : s.sim = UInt16.ofNat ((s.tbl.take k).countP Option.isSome)
  rated : s.rated.map Prod.fst = (List.range k).filter fun i =>
    (tbl[i]?.bind id).any fun slot => slot.billable e i

/-- The part of a table that is written changes its count by one cell. -/
theorem countP_take_set {tbl : CcTbl} {k : ℕ} (inside : k < tbl.length) (cell : Option CcSlot) :
    ((tbl.set k cell).take (k + 1)).countP Option.isSome =
      (tbl.take k).countP Option.isSome + if cell.isSome then 1 else 0 := by
  rw [List.take_add_one, List.countP_append, List.take_set_of_le (Nat.le_refl k)]
  simp [inside, List.countP_cons]

/-- The pass goes on by one slot. -/
theorem Scanned.visit {tbl : CcTbl} {k : ℕ} (scanned : Scanned e tbl k s) (inside : k < tbl.length)
    (unstored : ∀ slot, some slot ∈ tbl → slot.rtp.pre.cdrId = 0) :
    Scanned e tbl (k + 1) (s.visit e k) := by
  have at_k : s.tbl[k]? = some tbl[k] := by
    rw [scanned.cells k, if_neg (Nat.lt_irrefl k), List.getElem?_eq_getElem inside]
  obtain ⟨inside_s, value⟩ := List.getElem?_eq_some_iff.mp at_k
  have tbl_k : tbl[k]? = some tbl[k] := List.getElem?_eq_getElem inside
  cases cell : tbl[k] with
  | none =>
      rw [cell] at at_k value tbl_k
      rw [visit_none fun slot found => by rw [at_k] at found; cases found]
      refine ⟨scanned.length, fun i => ?_, ?_, ?_⟩
      · rw [scanned.cells i]
        rcases lt_trichotomy i k with below | rfl | above
        · rw [if_pos below, if_pos (by omega)]
        · rw [if_neg (by omega), if_pos (by omega), tbl_k]
          rfl
        · rw [if_neg (by omega), if_neg (by omega)]
      · have kept := countP_take_set inside_s none
        rw [← value, List.set_getElem_self] at kept
        rw [kept, scanned.sim, value]
        simp
      · rw [scanned.rated, List.range_succ, List.filter_append]
        simp [tbl_k]
  | some slot =>
      rw [cell] at at_k value tbl_k
      obtain ⟨tbl_eq, sim_eq, rated_eq⟩ :=
        visit_some at_k (unstored slot (cell ▸ List.getElem_mem inside))
      refine ⟨by rw [tbl_eq, List.length_set, scanned.length], fun i => ?_, ?_, ?_⟩
      · rw [tbl_eq]
        rcases lt_trichotomy i k with below | rfl | above
        · rw [List.getElem?_set_ne (by omega), scanned.cells i, if_pos below, if_pos (by omega)]
        · rw [List.getElem?_set_self inside_s, if_pos (by omega), tbl_k]
          rfl
        · rw [List.getElem?_set_ne (by omega), scanned.cells i, if_neg (by omega),
            if_neg (by omega)]
      · rw [tbl_eq, sim_eq, countP_take_set inside_s, scanned.sim, UInt16.ofNat_add]
        split <;> rfl
      · rw [rated_eq, scanned.rated, List.range_succ, List.filter_append, List.filter_singleton,
          tbl_k]
        change _ = _ ++ bif slot.billable e k then [k] else []
        cases slot.billable e k <;> rfl

theorem scanned_upTo (t : SettledTbl) {k : ℕ} (within : k ≤ t.tbl.length) :
    Scanned e t.tbl k (upTo e t.tbl k) := by
  induction k with
  | zero => exact ⟨rfl, fun i => rfl, rfl, rfl⟩
  | succ k induction =>
      rw [upTo, List.range_succ, List.foldl_append]
      exact (induction (by omega)).visit (by omega) t.unstored

end JanitorPass

/-! ## The limit -/

/-- Below the wrap of the sum, or when the age of the call is on the same side of both sums, the
loop clears the slot exactly when it is due. -/
theorem CcSlot.cleared_iff_due (e : JanitorEnv) (i : ℕ) (slot : CcSlot) :
    (slot.cleared e i = true ↔ slot.due e i = true) ↔
      (slot.term = none → ¬ (2 ^ 32 ≤ e.callMaxsecLimit.toNat + 90 ∧
        (e.callMaxsecLimit.toNat + 90 - 2 ^ 32 : ℤ) < e.now i - slot.max.ts ∧
          e.now i - slot.max.ts ≤ e.callMaxsecLimit.toNat + 90)) := by
  have limit_lt := e.callMaxsecLimit.toNat_lt
  have sum_eq : ((e.callMaxsecLimit + 90).toNat : ℤ) =
      ((e.callMaxsecLimit.toNat + 90) % 2 ^ 32 : ℕ) := by
    rw [UInt32.toNat_add]
    rfl
  have due : slot.due e i = true ↔ slot.term.isSome ∨
      (e.callMaxsecLimit.toNat + 90 : ℤ) < e.now i - slot.max.ts := by
    rw [CcSlot.due, CcSlot.settled, Bool.or_eq_true, decide_eq_true_eq, callMaxsecLimitWait]
  have cleared : slot.cleared e i = true ↔ slot.term.isSome ∨
      (((e.callMaxsecLimit.toNat + 90) % 2 ^ 32 : ℕ) : ℤ) < e.now i - slot.max.ts := by
    rw [← sum_eq]
    simp only [CcSlot.cleared, CcSlot.outlived, Bool.or_eq_true, decide_eq_true_eq]
  rw [due, cleared]
  cases slot.term with
  | some term => simp
  | none =>
      simp only [Option.isSome_none, Bool.false_eq_true, false_or, true_implies]
      omega

namespace JanitorPass

variable {e : JanitorEnv} {tbl : CcTbl} {s : JanitorPass}

/-- After the last slot the pass is as it was meant exactly when every call was cleared that is due
and no other. -/
theorem Scanned.settles_iff (scanned : Scanned e tbl tbl.length s) (small : tbl.length ≤ 65535) :
    s.Settles e tbl ↔ ∀ i (slot : CcSlot), tbl[i]? = some (some slot) →
      (slot.cleared e i = true ↔ slot.due e i = true) := by
  have cells (i : ℕ) : s.tbl[i]? =
      tbl[i]?.map fun cell => cell.bind fun slot : CcSlot => slot.left e i := by
    rw [scanned.cells i]
    split
    · rfl
    · rw [List.getElem?_eq_none (by omega)]
      rfl
  have freed {i : ℕ} {slot : CcSlot} (found : tbl[i]? = some (some slot)) :
      s.tbl[i]? = some none ↔ slot.cleared e i = true := by
    rw [cells, found]
    simp [CcSlot.left]
  constructor
  · intro settles i slot found
    rw [← freed found, settles.freed i slot found]
  · intro agree
    refine ⟨fun i slot found => (freed found).trans (agree i slot found), fun i undue => ?_,
      scanned.rated, ?_⟩
    · rw [cells]
      cases found : tbl[i]? with
      | none => rfl
      | some cell =>
          cases cell with
          | none => rfl
          | some slot =>
              have stays : slot.cleared e i = false := by
                rw [Bool.eq_false_iff, Ne, agree i slot found, undue slot found]
                decide
              simp [CcSlot.left, stays]
    · have counted : s.tbl.countP Option.isSome ≤ s.tbl.length := List.countP_le_length
      have length := scanned.length
      rw [scanned.sim, ← length, List.take_length, UInt16.toNat_ofNat_of_lt' ?_]
      simp only [UInt16.size]
      omega

/-- One pass of the janitor is as it was meant exactly when the sum of the limit and the time to
wait fits in its 32 bits, or no running call has an age between the wrapped sum and the sum. -/
theorem ccServerThread_settles_iff (e : JanitorEnv) (t : SettledTbl) :
    (ccServerThread e t.tbl).Settles e t.tbl ↔
      ∀ i (slot : CcSlot), t.tbl[i]? = some (some slot) → slot.term = none →
        ¬ (2 ^ 32 ≤ e.callMaxsecLimit.toNat + 90 ∧
          (e.callMaxsecLimit.toNat + 90 - 2 ^ 32 : ℤ) < e.now i - slot.max.ts ∧
            e.now i - slot.max.ts ≤ e.callMaxsecLimit.toNat + 90) := by
  rw [ccServerThread, (scanned_upTo t (Nat.le_refl _)).settles_iff t.small]
  simp only [CcSlot.cleared_iff_due]

/-- The largest limit, at second `100`. -/
def largestLimit : JanitorEnv where
  env := bareEnv
  callMaxsecLimit := 4294967295
  now _ := 100
  addCdr _ _ _ := 0
  getCdrId _ _ _ := 0

/-- A call that has been running for `100` seconds. -/
def runningCall : SettledTbl where
  tbl :=
    let max : CcMax := { clg := "1", cld := "2", callUid := "u", ts := 0 }
    [some { max, rtp := { rtm := .clg, pre := ccMaxsecPre 1 max } }]
  small := by decide
  unstored slot member := by
    obtain rfl := Option.some.inj (List.mem_singleton.mp member)
    rfl

/-- Under the largest limit a call is cleared after `90` seconds. -/
theorem not_ccServerThread_settles :
    ¬ ∀ (e : JanitorEnv) (t : SettledTbl), (ccServerThread e t.tbl).Settles e t.tbl := by
  intro claim
  have freed := ((claim largestLimit runningCall).freed 0 _ rfl).mp (by decide +kernel)
  revert freed
  decide +kernel

end JanitorPass

end RateEngine
