import Mathlib.Tactic
import RateEngine.CallTable

/-!
# Credit shares

Each admitted call holds a share of the credit left on its card, computed from the balance that is
stored at that moment.  The spending of a call in progress reaches the balance only when the call is
rated, so a later share may be cut from credit that is already promised.  This file states when the
balance stays within the amount of the card.
-/

namespace RateEngine

open Slots

/-- The calls in progress on one card and the amount consumed on its balance. -/
structure CardUse where
  tbl : CcTbl
  balance : ℚ
deriving DecidableEq, Repr

/-- The share that a slot holds. -/
def CcSlot.share : Option CcSlot → ℚ
  | none => 0
  | some slot => slot.rtp.pre.limit

namespace CardUse

/-- `slots` free slots and an amount consumed before. -/
def start (slots : ℕ) (balance : ℚ) : CardUse := { tbl := List.replicate slots none, balance }

/-- The shares of all calls in progress. -/
def outstanding (s : CardUse) : ℚ := total CcSlot.share s.tbl

end CardUse

/-- A step of the calls on one card. -/
inductive CardEvent where
  /-- A request for seconds: count, `rt_maxsec` and slot in one step. -/
  | grant (server : ℕ) (max : CcMax) (env : Env) (db : Db)
  /-- The end of the call in a slot. -/
  | term (slot : ℕ) (term : CcTerm)
  /-- The janitor rates the call in a slot at a cost and frees the slot. -/
  | rate (slot : ℕ) (cost : ℚ)
  /-- The janitor frees a slot without rating its call. -/
  | clear (slot : ℕ) (callMaxsecLimit : ℕ) (now : ℤ)

/-- A step.  A grant is one on this card with the stored balance, and a call costs at most the share
it holds. -/
def cardStep (card : Pcard) (s : CardUse) : CardEvent → Option CardUse
  | .grant server max env db =>
      match (rtMaxsec env db (ccMaxsecPre server max)
        (ccServerCallSearchRacc s.tbl max.clg)).2.1 with
      | none => some s
      | some rtp =>
          if rtp.bacc.pcardPtr.map (fun own => (own.amount, own.callNumber)) =
              some (card.amount, card.callNumber) ∧ rtp.bal.amount = s.balance then
            match ccServerCallInit s.tbl max rtp with
            | none => some s
            | some tbl => some { s with tbl }
          else none
  | .term i term =>
      match s.tbl[i]? with
      | some (some slot) => some { s with tbl := ccServerCallTerm s.tbl i slot term }
      | _ => some s
  | .rate i cost =>
      match s.tbl[i]? with
      | some (some slot) =>
          if slot.term.map CcTerm.status = some .normalClear ∧ cost ≤ slot.rtp.pre.limit then
            some { tbl := ccServerCallClear s.tbl i, balance := s.balance + cost }
          else none
      | _ => none
  | .clear i callMaxsecLimit now =>
      match s.tbl[i]? with
      | some (some slot) =>
          if slot.settled callMaxsecLimit now then
            some { s with tbl := ccServerCallClear s.tbl i }
          else some s
      | _ => some s

/-- The effects of a step, each with the conditions under which it happens. -/
inductive CardMove (card : Pcard) (s : CardUse) : CardEvent → CardUse → Prop
  | stay (event : CardEvent) : CardMove card s event s
  | granted {server : ℕ} {max : CcMax} {env : Env} {db : Db} {rtp : Racc} {tbl : CcTbl}
      (granted : (rtMaxsec env db (ccMaxsecPre server max)
        (ccServerCallSearchRacc s.tbl max.clg)).2.1 = some rtp)
      (same : rtp.bacc.pcardPtr.map (fun own => (own.amount, own.callNumber)) =
        some (card.amount, card.callNumber))
      (stored : rtp.bal.amount = s.balance) (taken : ccServerCallInit s.tbl max rtp = some tbl) :
      CardMove card s (.grant server max env db) { s with tbl }
  | ended {i : ℕ} {slot : CcSlot} {term : CcTerm} (found : s.tbl[i]? = some (some slot)) :
      CardMove card s (.term i term) { s with tbl := ccServerCallTerm s.tbl i slot term }
  | rated {i : ℕ} {slot : CcSlot} {cost : ℚ} (found : s.tbl[i]? = some (some slot))
      (normal : slot.term.map CcTerm.status = some .normalClear)
      (cost_le : cost ≤ slot.rtp.pre.limit) :
      CardMove card s (.rate i cost)
        { tbl := ccServerCallClear s.tbl i, balance := s.balance + cost }
  | cleared {i callMaxsecLimit : ℕ} {now : ℤ} {slot : CcSlot} (found : s.tbl[i]? = some (some slot))
      (settled : slot.settled callMaxsecLimit now = true) :
      CardMove card s (.clear i callMaxsecLimit now) { s with tbl := ccServerCallClear s.tbl i }

theorem cardMove_of_cardStep {card : Pcard} {s t : CardUse} {event : CardEvent}
    (steps : cardStep card s event = some t) : CardMove card s event t := by
  cases event with
  | grant server max env db =>
    simp only [cardStep] at steps
    split at steps
    · obtain rfl := Option.some.inj steps
      exact .stay _
    rename_i granted
    split at steps
    · rename_i same
      split at steps <;> obtain rfl := Option.some.inj steps
      · exact .stay _
      · rename_i taken
        exact .granted granted same.1 same.2 taken
    · cases steps
  | term i term =>
    simp only [cardStep] at steps
    split at steps <;> obtain rfl := Option.some.inj steps
    · rename_i found
      exact .ended found
    · exact .stay _
  | rate i cost =>
    simp only [cardStep] at steps
    split at steps
    · rename_i found
      split at steps
      · rename_i ended
        obtain rfl := Option.some.inj steps
        exact .rated found ended.1 ended.2
      · cases steps
    · cases steps
  | clear i callMaxsecLimit now =>
    simp only [cardStep] at steps
    split at steps
    · rename_i found
      split at steps <;> obtain rfl := Option.some.inj steps
      · rename_i settled
        exact .cleared found settled
      · exact .stay _
    · obtain rfl := Option.some.inj steps
      exact .stay _

/-- A request that the credit and the call number admit finds the shares of the calls in progress
within the credit that its own share leaves. -/
def LeavesShares (card : Pcard) (s : CardUse) : CardEvent → Prop
  | .grant _ max env _ =>
      (rtMaxsecLimit env.kLimitMin card s.balance (ccServerCallSearchRacc s.tbl max.clg)).1 = none →
        s.outstanding ≤ card.amount - s.balance - card.share env.kLimitMin s.balance
  | _ => True

/-- The balance and the shares together stay within the amount, and no share is negative. -/
structure Promised (card : Pcard) (s : CardUse) : Prop where
  within : s.balance + s.outstanding ≤ card.amount
  share_nonneg : ∀ cell ∈ s.tbl, 0 ≤ CcSlot.share cell

theorem Promised.start {card : Pcard} (slots : ℕ) {balance : ℚ} (consumed : balance ≤ card.amount) :
    Promised card (CardUse.start slots balance) where
  within := by
    have none_held : (CardUse.start slots balance).outstanding = 0 := total_replicate _ _ rfl
    rw [none_held, add_zero]
    exact consumed
  share_nonneg := by
    intro cell member
    obtain rfl := List.eq_of_mem_replicate member
    exact le_rfl

/-- Only the amount and the call number of the card enter the limit of a call. -/
theorem rtMaxsecLimit_congr {card own : Pcard} (amount : own.amount = card.amount)
    (callNumber : own.callNumber = card.callNumber) (kLimitMin consumed : ℚ) (sim : ℤ) :
    rtMaxsecLimit kLimitMin own consumed sim = rtMaxsecLimit kLimitMin card consumed sim := by
  simp only [rtMaxsecLimit, amount, callNumber]

/-- A grant takes the share of the card at the stored balance. -/
theorem rtMaxsecLimit_of_granted {card : Pcard} {s : CardUse} {server : ℕ} {max : CcMax} {env : Env}
    {db : Db} {rtp : Racc}
    (granted : (rtMaxsec env db (ccMaxsecPre server max)
      (ccServerCallSearchRacc s.tbl max.clg)).2.1 = some rtp)
    (same : rtp.bacc.pcardPtr.map (fun own => (own.amount, own.callNumber)) =
      some (card.amount, card.callNumber))
    (stored : rtp.bal.amount = s.balance) :
    rtMaxsecLimit env.kLimitMin card s.balance (ccServerCallSearchRacc s.tbl max.clg) =
      (none, rtp.pre.limit) := by
  obtain ⟨own, own_eq, limit_eq⟩ := rtMaxsec_granted granted
  simp only [own_eq, Option.map_some, Option.some.injEq, Prod.mk.injEq] at same
  rwa [rtMaxsecLimit_congr same.1 same.2, stored] at limit_eq

/-- Rewriting a slot changes the outstanding shares by the difference, and keeps them nonnegative
when the new share is. -/
theorem Promised.setSlot {card : Pcard} {s : CardUse} (promised : Promised card s) {i : ℕ}
    {old : Option CcSlot} (found : s.tbl[i]? = some old) (new : Option CcSlot) (cost : ℚ)
    (new_nonneg : 0 ≤ CcSlot.share new) (covered : cost + CcSlot.share new ≤ CcSlot.share old) :
    Promised card { tbl := s.tbl.set i new, balance := s.balance + cost } where
  within := by
    have rewritten := total_set CcSlot.share new found
    have bound := promised.within
    simp only [CardUse.outstanding, rewritten] at bound ⊢
    linarith
  share_nonneg := by
    intro cell member
    rcases List.mem_or_eq_of_mem_set member with kept | rfl
    · exact promised.share_nonneg cell kept
    · exact new_nonneg

/-- Taking a slot adds its share. -/
theorem Promised.occupy {card : Pcard} {s : CardUse} (promised : Promised card s) {max : CcMax}
    {rtp : Racc} {tbl : CcTbl} (taken : ccServerCallInit s.tbl max rtp = some tbl)
    (share_nonneg : 0 ≤ rtp.pre.limit)
    (room : s.outstanding ≤ card.amount - s.balance - rtp.pre.limit) :
    Promised card { s with tbl } where
  within := by
    have added := total_occupy CcSlot.share rfl taken
    simp only [CardUse.outstanding, CcSlot.share] at added room ⊢
    linarith
  share_nonneg := by
    intro cell member
    rcases mem_of_occupy taken member with kept | rfl
    · exact promised.share_nonneg cell kept
    · exact share_nonneg

/-- One step that leaves the shares keeps the promises. -/
theorem promised_step {card : Pcard} {s t : CardUse} {event : CardEvent}
    (leaves : LeavesShares card s event) (steps : cardStep card s event = some t)
    (promised : Promised card s) : Promised card t := by
  cases cardMove_of_cardStep steps with
  | stay => exact promised
  | granted granted same stored taken =>
    have limit_eq := rtMaxsecLimit_of_granted granted same stored
    obtain ⟨share_eq, share_pos, -⟩ := rtMaxsecLimit_granted limit_eq
    have room := leaves (by rw [limit_eq])
    rw [← share_eq] at room
    exact promised.occupy taken share_pos.le room
  | @ended i slot term found =>
    have kept_nonneg := promised.share_nonneg _ (List.mem_of_getElem? found)
    have kept := promised.setSlot found (some { slot with term := some term }) 0 kept_nonneg
      (by rw [zero_add]; exact le_rfl)
    rwa [add_zero] at kept
  | rated found normal cost_le =>
    exact promised.setSlot found none _ le_rfl (by simpa [CcSlot.share] using cost_le)
  | cleared found settled =>
    have held := promised.share_nonneg _ (List.mem_of_getElem? found)
    have freed := promised.setSlot found none 0 le_rfl (by simpa [CcSlot.share] using held)
    rwa [add_zero] at freed

/-- What `rt_maxsec` grants the first call of the prepaid account for two calls: half the amount. -/
def prepaidHalf : Racc where
  rtm := .clg
  bacc := { id := 1, billingDay := 1, pcardPtr := some (prepaidCard 2) }
  bplan :=
    { id := 1, ratesPtr := some [⟨1, 1, "&", 1, 0, 0, 0⟩], calcFuncs := some [⟨1, 1, 1, 0⟩] }
  pre :=
    { prepaidRequest.withMode .clg with
      tariffId := 1, rateId := 1, prefixId := 1, limit := 50, maxsec := 50 }

/-- The balance of the prepaid account after its first call. -/
def halfConsumed : Db where
  balance := SerialTable.empty.insert ⟨1, "2024-01-01", "2025-01-01", true, 50⟩

end RateEngine
