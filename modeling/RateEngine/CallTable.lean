import Mathlib.Tactic
import RateEngine.Lib.GuardedRun
import RateEngine.Lib.Slots
import RateEngine.Maxsec

/-!
# The call table

`cc_tbl` holds the calls in progress.  A worker counts the calls of the calling account, asks
`rt_maxsec`, and only then takes a slot; the table is locked for the count and for the slot, not in
between.  This file states when the slots of an account stay within the `call_number` of its card.
-/

namespace RateEngine

open Slots

/-! ## `cc_tbl` -/

/-- `cc_maxsec_t`: a request for seconds. -/
structure CcMax where
  clg : String
  cld : String
  callUid : String
  ts : ℤ
deriving DecidableEq, Repr

/-- `cc_term_status_t`. -/
inductive CcTermStatus where
  | unknStatus
  | normalClear
  | busy
  | cancel
  | error
deriving DecidableEq, Repr

/-- `cc_term_t`: the end of a call. -/
structure CcTerm where
  status : CcTermStatus
  callUid : String
  billsec : ℤ
  duration : ℤ
deriving DecidableEq, Repr

/-- An occupied slot of `cc_tbl`. -/
structure CcSlot where
  max : CcMax
  term : Option CcTerm := none
  rtp : Racc
deriving DecidableEq, Repr

/-- `cc_tbl`. -/
abbrev CcTbl := List (Option CcSlot)

/-- `cc_maxsec_pre`. -/
def ccMaxsecPre (server : ℕ) (max : CcMax) : Rating where
  cdrServerId := server
  clg := max.clg
  cld := max.cld
  ts := max.ts

/-- A slot of the calling account counts one. -/
def CcSlot.weight (clg : String) : Option CcSlot → ℤ
  | none => 0
  | some slot => if slot.max.clg = clg then 1 else 0

/-- `cc_server_call_search_racc`: the slots of a calling account. -/
def ccServerCallSearchRacc (tbl : CcTbl) (clg : String) : ℤ := total (CcSlot.weight clg) tbl

/-- `cc_server_call_init`: take the first free slot. -/
def ccServerCallInit (tbl : CcTbl) (max : CcMax) (rtp : Racc) : Option CcTbl :=
  occupy tbl { max, rtp }

/-- `cc_server_call_term`. -/
def ccServerCallTerm (tbl : CcTbl) (i : ℕ) (slot : CcSlot) (term : CcTerm) : CcTbl :=
  tbl.set i (some { slot with term := some term })

/-- `cc_server_call_clear`. -/
def ccServerCallClear (tbl : CcTbl) (i : ℕ) : CcTbl := tbl.set i none

/-- `CALL_MAXSEC_LIMIT_WAIT`. -/
def callMaxsecLimitWait : ℤ := 90

/-- `cc_server_thread` clears the slot: its call has ended or has outlived every grant. -/
def CcSlot.settled (slot : CcSlot) (callMaxsecLimit : ℕ) (now : ℤ) : Bool :=
  slot.term.isSome || callMaxsecLimit + callMaxsecLimitWait < now - slot.max.ts

/-! ## Workers -/

/-- A worker in `cc_maxsec_f`: between two requests, with the count of the calls in progress, or
with the data of an admitted call. -/
inductive CcWorker where
  | idle
  | counted (server : ℕ) (max : CcMax) (sim : ℤ)
  | admitted (max : CcMax) (rtp : Racc)
deriving DecidableEq, Repr

/-- A call that is admitted and has no slot yet counts one. -/
def CcWorker.weight (clg : String) : CcWorker → ℤ
  | admitted max _ => if max.clg = clg then 1 else 0
  | _ => 0

/-- The call table and the workers. -/
structure CcServer where
  tbl : CcTbl
  workers : List CcWorker
deriving DecidableEq, Repr

namespace CcServer

/-- `slots` free slots and `workers` idle workers. -/
def start (slots workers : ℕ) : CcServer where
  tbl := List.replicate slots none
  workers := List.replicate workers .idle

/-- The occupied slots of a calling account. -/
def occupied (s : CcServer) (clg : String) : ℤ := ccServerCallSearchRacc s.tbl clg

/-- The calls of a calling account that are admitted and have no slot yet. -/
def admitted (s : CcServer) (clg : String) : ℤ := total (CcWorker.weight clg) s.workers

end CcServer

/-- One atomic step of a worker or of the janitor. -/
inductive CcEvent where
  /-- `cc_server_call_search_racc`. -/
  | count (worker : ℕ) (server : ℕ) (max : CcMax)
  /-- `rt_maxsec`. -/
  | decide (worker : ℕ) (env : Env) (db : Db)
  /-- `cc_server_call_init`. -/
  | occupy (worker : ℕ)
  /-- `cc_server_call_term` on a slot. -/
  | term (slot : ℕ) (term : CcTerm)
  /-- The janitor looks at a slot. -/
  | janitor (slot : ℕ) (callMaxsecLimit : ℕ) (now : ℤ)

/-- A step, where `callNumber` gives the `call_number` of the card of each calling account.  A
request without a calling number is answered at once, and a step on a free slot does nothing. -/
def ccStep (callNumber : String → ℤ) (s : CcServer) : CcEvent → Option CcServer
  | .count w server max =>
      match s.workers[w]? with
      | some .idle =>
          if max.clg = "" then some s
          else
            let sim := ccServerCallSearchRacc s.tbl max.clg
            some { s with workers := s.workers.set w (.counted server max sim) }
      | _ => none
  | .decide w env db =>
      match s.workers[w]? with
      | some (.counted server max sim) =>
          match (rtMaxsec env db (ccMaxsecPre server max) sim).2.1 with
          | none => some { s with workers := s.workers.set w .idle }
          | some rtp =>
              if rtp.bacc.pcardPtr.map Pcard.callNumber = some (callNumber max.clg) then
                some { s with workers := s.workers.set w (.admitted max rtp) }
              else none
      | _ => none
  | .occupy w =>
      match s.workers[w]? with
      | some (.admitted max rtp) =>
          let workers := s.workers.set w .idle
          match ccServerCallInit s.tbl max rtp with
          | none => some { s with workers }
          | some tbl => some { tbl, workers }
      | _ => none
  | .term i term =>
      match s.tbl[i]? with
      | some (some slot) => some { s with tbl := ccServerCallTerm s.tbl i slot term }
      | _ => some s
  | .janitor i callMaxsecLimit now =>
      match s.tbl[i]? with
      | some (some slot) =>
          if slot.settled callMaxsecLimit now then
            some { s with tbl := ccServerCallClear s.tbl i }
          else some s
      | _ => some s

/-! ## What a step does -/

/-- The effects of a step, each with the conditions under which it happens. -/
inductive CcMove (callNumber : String → ℤ) (s : CcServer) : CcEvent → CcServer → Prop
  | stay (event : CcEvent) : CcMove callNumber s event s
  | counted {w server : ℕ} {max : CcMax} (idle : s.workers[w]? = some .idle) :
      CcMove callNumber s (.count w server max)
        { s with workers :=
            s.workers.set w (.counted server max (ccServerCallSearchRacc s.tbl max.clg)) }
  | refused {w : ℕ} {env : Env} {db : Db} {server : ℕ} {max : CcMax} {sim : ℤ}
      (found : s.workers[w]? = some (.counted server max sim)) :
      CcMove callNumber s (.decide w env db) { s with workers := s.workers.set w .idle }
  | admitted {w : ℕ} {env : Env} {db : Db} {server : ℕ} {max : CcMax} {sim : ℤ} {rtp : Racc}
      (found : s.workers[w]? = some (.counted server max sim))
      (granted : (rtMaxsec env db (ccMaxsecPre server max) sim).2.1 = some rtp)
      (number : rtp.bacc.pcardPtr.map Pcard.callNumber = some (callNumber max.clg)) :
      CcMove callNumber s (.decide w env db)
        { s with workers := s.workers.set w (.admitted max rtp) }
  | dropped {w : ℕ} {max : CcMax} {rtp : Racc}
      (found : s.workers[w]? = some (.admitted max rtp)) :
      CcMove callNumber s (.occupy w) { s with workers := s.workers.set w .idle }
  | seated {w : ℕ} {max : CcMax} {rtp : Racc} {tbl : CcTbl}
      (found : s.workers[w]? = some (.admitted max rtp))
      (taken : ccServerCallInit s.tbl max rtp = some tbl) :
      CcMove callNumber s (.occupy w) { tbl, workers := s.workers.set w .idle }
  | ended {i : ℕ} {slot : CcSlot} {term : CcTerm} (found : s.tbl[i]? = some (some slot)) :
      CcMove callNumber s (.term i term) { s with tbl := ccServerCallTerm s.tbl i slot term }
  | cleared {i callMaxsecLimit : ℕ} {now : ℤ} {slot : CcSlot} (found : s.tbl[i]? = some (some slot))
      (settled : slot.settled callMaxsecLimit now = true) :
      CcMove callNumber s (.janitor i callMaxsecLimit now)
        { s with tbl := ccServerCallClear s.tbl i }

theorem ccMove_of_ccStep {callNumber : String → ℤ} {s t : CcServer} {event : CcEvent}
    (steps : ccStep callNumber s event = some t) : CcMove callNumber s event t := by
  cases event with
  | count w server max =>
    simp only [ccStep] at steps
    split at steps
    · rename_i idle
      split at steps <;> obtain rfl := Option.some.inj steps
      · exact .stay _
      · exact .counted idle
    · cases steps
  | decide w env db =>
    simp only [ccStep] at steps
    split at steps
    · rename_i found
      split at steps
      · obtain rfl := Option.some.inj steps
        exact .refused found
      · rename_i granted
        split at steps
        · rename_i number
          obtain rfl := Option.some.inj steps
          exact .admitted found granted number
        · cases steps
    · cases steps
  | occupy w =>
    simp only [ccStep] at steps
    split at steps
    · rename_i found
      split at steps
      · obtain rfl := Option.some.inj steps
        exact .dropped found
      · rename_i taken
        obtain rfl := Option.some.inj steps
        exact .seated found taken
    · cases steps
  | term i term =>
    simp only [ccStep] at steps
    split at steps <;> obtain rfl := Option.some.inj steps
    · rename_i found
      exact .ended found
    · exact .stay _
  | janitor i callMaxsecLimit now =>
    simp only [ccStep] at steps
    split at steps
    · rename_i found
      split at steps <;> obtain rfl := Option.some.inj steps
      · rename_i settled
        exact .cleared found settled
      · exact .stay _
    · obtain rfl := Option.some.inj steps
      exact .stay _

/-! ## The limit -/

/-- No calling account has more slots than its card admits calls. -/
def WithinCallNumber (callNumber : String → ℤ) (s : CcServer) : Prop :=
  ∀ clg, 0 < callNumber clg → s.occupied clg ≤ callNumber clg

/-- A decision whose count admits the call is made while the slots and the admitted calls of the
account together leave room for it. -/
def DecidesWithRoom (callNumber : String → ℤ) (s : CcServer) : CcEvent → Prop
  | .decide w _ _ => ∀ server max sim, s.workers[w]? = some (.counted server max sim) →
      sim < callNumber max.clg → s.occupied max.clg + s.admitted max.clg < callNumber max.clg
  | _ => True

/-- Slots and admitted calls together stay within the call number. -/
def AdmitsWithin (callNumber : String → ℤ) (s : CcServer) : Prop :=
  ∀ clg, 0 < callNumber clg → s.occupied clg + s.admitted clg ≤ callNumber clg

theorem CcSlot.weight_nonneg (clg : String) (cell : Option CcSlot) :
    0 ≤ CcSlot.weight clg cell := by
  cases cell with
  | none => exact le_rfl
  | some slot =>
    simp only [CcSlot.weight]
    split <;> decide

theorem CcWorker.weight_nonneg (clg : String) (worker : CcWorker) :
    0 ≤ CcWorker.weight clg worker := by
  cases worker with
  | admitted max rtp =>
    simp only [CcWorker.weight]
    split <;> decide
  | _ => exact le_rfl

theorem admitsWithin_start (callNumber : String → ℤ) (slots workers : ℕ) :
    AdmitsWithin callNumber (CcServer.start slots workers) := by
  intro clg positive
  have no_slots : (CcServer.start slots workers).occupied clg = 0 := total_replicate _ _ rfl
  have none_admitted : (CcServer.start slots workers).admitted clg = 0 := total_replicate _ _ rfl
  rw [no_slots, none_admitted, add_zero]
  exact positive.le

/-- A grant was counted below the call number of its card. -/
theorem sim_lt_of_granted {callNumber : String → ℤ} {env : Env} {db : Db} {server : ℕ} {max : CcMax}
    {sim : ℤ} {rtp : Racc}
    (granted : (rtMaxsec env db (ccMaxsecPre server max) sim).2.1 = some rtp)
    (number : rtp.bacc.pcardPtr.map Pcard.callNumber = some (callNumber max.clg)) :
    sim < callNumber max.clg := by
  obtain ⟨card, card_eq, limit_eq⟩ := rtMaxsec_granted granted
  have slot_left : sim < card.callNumber := (rtMaxsecLimit_granted limit_eq).2.2
  rw [card_eq, Option.map_some, Option.some.injEq] at number
  rwa [number] at slot_left

/-- The slots and the admitted calls of a calling account together. -/
def CcServer.load (s : CcServer) (clg : String) : ℤ := s.occupied clg + s.admitted clg

/-- Rewriting a worker changes the load by its weight. -/
theorem load_setWorker {s : CcServer} {w : ℕ} {old : CcWorker} (found : s.workers[w]? = some old)
    (new : CcWorker) (clg : String) :
    CcServer.load { s with workers := s.workers.set w new } clg =
      s.load clg + (new.weight clg - old.weight clg) := by
  have rewritten := total_set (CcWorker.weight clg) new found
  simp only [CcServer.load, CcServer.occupied, CcServer.admitted, rewritten, add_assoc]

/-- Rewriting a slot changes the load by its weight. -/
theorem load_setSlot {s : CcServer} {i : ℕ} {old : Option CcSlot} (found : s.tbl[i]? = some old)
    (new : Option CcSlot) (clg : String) :
    CcServer.load { s with tbl := s.tbl.set i new } clg =
      s.load clg + (CcSlot.weight clg new - CcSlot.weight clg old) := by
  have rewritten := total_set (CcSlot.weight clg) new found
  simp only [CcServer.load, CcServer.occupied, CcServer.admitted, ccServerCallSearchRacc, rewritten]
  ring

/-- An admitted call that takes a slot moves its load from the worker to the table. -/
theorem load_seated {s : CcServer} {w : ℕ} {max : CcMax} {rtp : Racc} {tbl : CcTbl}
    (found : s.workers[w]? = some (.admitted max rtp))
    (taken : ccServerCallInit s.tbl max rtp = some tbl) (clg : String) :
    CcServer.load { tbl, workers := s.workers.set w .idle } clg = s.load clg := by
  have released := total_set (CcWorker.weight clg) CcWorker.idle found
  have seated := total_occupy (CcSlot.weight clg) rfl taken
  simp only [CcServer.load, CcServer.occupied, CcServer.admitted, ccServerCallSearchRacc, released,
    seated, CcWorker.weight, CcSlot.weight]
  ring

/-- One step with room keeps slots and admitted calls within the call number. -/
theorem admitsWithin_step {callNumber : String → ℤ} {s t : CcServer} {event : CcEvent}
    (room : DecidesWithRoom callNumber s event) (steps : ccStep callNumber s event = some t)
    (within : AdmitsWithin callNumber s) : AdmitsWithin callNumber t := by
  intro clg positive
  have bound : s.load clg ≤ callNumber clg := within clg positive
  suffices t.load clg ≤ callNumber clg from this
  cases ccMove_of_ccStep steps with
  | stay => exact bound
  | counted idle =>
    rw [load_setWorker idle]
    simpa [CcWorker.weight] using bound
  | refused found =>
    rw [load_setWorker found]
    simpa [CcWorker.weight] using bound
  | @admitted w env db server max sim rtp found granted number =>
    rw [load_setWorker found]
    by_cases own : max.clg = clg
    · -- the new load is the room that the decision had
      have has_room := room server max sim found (sim_lt_of_granted granted number)
      rw [own] at has_room
      simp only [CcWorker.weight, own, if_true, sub_zero]
      exact has_room
    · simpa [CcWorker.weight, own] using bound
  | @dropped w max rtp found =>
    have nonneg := CcWorker.weight_nonneg clg (.admitted max rtp)
    rw [load_setWorker found]
    simp only [CcWorker.weight] at nonneg ⊢
    linarith
  | seated found taken =>
    rw [load_seated found taken]
    exact bound
  | ended found =>
    rw [ccServerCallTerm, load_setSlot found]
    simpa [CcSlot.weight] using bound
  | @cleared i callMaxsecLimit now slot found settled =>
    have nonneg := CcSlot.weight_nonneg clg (some slot)
    rw [ccServerCallClear, load_setSlot found]
    simp only [CcSlot.weight] at nonneg ⊢
    linarith

/-- In a run whose decisions are made with room, no calling account ever has more slots than its
card admits calls. -/
theorem withinCallNumber_of_decidesWithRoom (callNumber : String → ℤ) (slots workers : ℕ)
    (events : List CcEvent) (s : CcServer)
    (run : GuardedRun (ccStep callNumber) (DecidesWithRoom callNumber)
      (CcServer.start slots workers) events s) : WithinCallNumber callNumber s := by
  have within : AdmitsWithin callNumber s :=
    run.preserves admitsWithin_step (admitsWithin_start callNumber slots workers)
  intro clg positive
  have bound := within clg positive
  have admitted_nonneg : 0 ≤ s.admitted clg :=
    total_nonneg fun worker _ => CcWorker.weight_nonneg clg worker
  omega

/-- A request of the prepaid account. -/
def prepaidMax : CcMax where
  clg := "100"
  cld := "200"
  callUid := "first"
  ts := 1709546400

/-- What `rt_maxsec` grants the only call of the prepaid account. -/
def prepaidGrant : Racc where
  rtm := .clg
  bacc := { id := 1, billingDay := 1, pcardPtr := some (prepaidCard 1) }
  bplan :=
    { id := 1, ratesPtr := some [⟨1, 1, "&", 1, 0, 0, 0⟩], calcFuncs := some [⟨1, 1, 1, 0⟩] }
  pre :=
    { prepaidRequest.withMode .clg with
      tariffId := 1, rateId := 1, prefixId := 1, limit := 100, maxsec := 100 }

/-- One worker admits one call of the card's one. -/
theorem prepaidMax_within :
    WithinCallNumber (fun _ => 1)
      { tbl := [some { max := prepaidMax, rtp := prepaidGrant }, none], workers := [.idle] } := by
  let counted : CcServer := { tbl := [none, none], workers := [.counted 1 prepaidMax 0] }
  let admitted : CcServer :=
    { tbl := [none, none], workers := [.admitted prepaidMax prepaidGrant] }
  have room : DecidesWithRoom (fun _ => 1) counted (.decide 0 (prepaidEnv 1) {}) := by
    intro server max sim worker _
    obtain ⟨-, rfl, -⟩ : 1 = server ∧ prepaidMax = max ∧ 0 = sim := by simpa [counted] using worker
    decide +kernel
  have count : ccStep (fun _ => 1) (CcServer.start 2 1) (.count 0 1 prepaidMax) = some counted := by
    decide +kernel
  have decision : ccStep (fun _ => 1) counted (.decide 0 (prepaidEnv 1) {}) = some admitted := by
    decide +kernel
  exact withinCallNumber_of_decidesWithRoom (fun _ => 1) 2 1
    [.count 0 1 prepaidMax, .decide 0 (prepaidEnv 1) {}, .occupy 0] _
    (.cons trivial count (.cons room decision (.cons trivial rfl (.nil _))))

/-- Two workers that count before either takes a slot admit two calls of a card for one. -/
theorem callNumber_exceeded :
    ¬ ∀ (callNumber : String → ℤ) (slots workers : ℕ) (events : List CcEvent) (s : CcServer),
      execAll (ccStep callNumber) (CcServer.start slots workers) events = some s →
        WithinCallNumber callNumber s := by
  intro claim
  let events : List CcEvent :=
    [.count 0 1 prepaidMax, .count 1 1 { prepaidMax with callUid := "second" },
      .decide 0 (prepaidEnv 1) {}, .decide 1 (prepaidEnv 1) {}, .occupy 0, .occupy 1]
  have two_slots : (execAll (ccStep fun _ => 1) (CcServer.start 50 8) events).map
      (fun s => s.occupied "100") = some 2 := by decide +kernel
  obtain ⟨s, executed, occupied_eq⟩ := Option.map_eq_some_iff.mp two_slots
  have within := claim (fun _ => 1) 50 8 events s executed "100" one_pos
  rw [occupied_eq] at within
  exact absurd within (by decide)

end RateEngine
