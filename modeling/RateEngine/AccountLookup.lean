import Mathlib.Data.List.Basic
import Mathlib.Tactic.Common
import RateEngine.Db

/-!
# Account lookup

The lookup modes of `rt_data_q_racc_sql`, the leg functions `rt_racc_*` that try them and the mode
table of the DuckDB engine.  `rt_data_q_racc_sql` returns success when it finds no row, so the leg
functions never see a failed lookup and never fall back.  This file states when the mode that is
tried happens to be the one that the fallback order asks for.
-/

namespace RateEngine

/-! ## The lookup of one mode -/

/-- The lookup tables. -/
inductive AcctTable where
  | callingNumber
  | accountCode
  | srcContext
  | dstContext
  | srcTgroup
  | dstTgroup
deriving DecidableEq, Repr

/-- The table of a mode. -/
def RtMode.table : RtMode → AcctTable
  | clg => .callingNumber
  | acode => .accountCode
  | srcc => .srcContext
  | dstc => .dstContext
  | srctg => .srcTgroup
  | dsttg => .dstTgroup
  | sms => .callingNumber

/-- The value that a mode looks up. -/
def RtMode.cond : RtMode → Rating → String
  | clg, pre => pre.clg
  | acode, pre => pre.accountCode
  | srcc, pre => pre.srcContext
  | dstc, pre => pre.dstContext
  | srctg, pre => pre.srcTgroup
  | dsttg, pre => pre.dstTgroup
  | sms, pre => pre.clg

/-- `clg_nadi` and `cld_nadi` of `rt_data_q_racc_sql`; the pairs `-1` and `-2`
choose the statement. -/
def RtMode.nadi : RtMode → Rating → ℤ × ℤ
  | srctg, pre => (pre.clgNadi, pre.cldNadi)
  | dsttg, pre => (pre.clgNadi, pre.cldNadi)
  | sms, _ => (-2, -2)
  | _, _ => (-1, -1)

/-- Conversion of an `int` to an unsigned field of `bits` bits. -/
def asUnsigned (bits : ℕ) (n : ℤ) : ℕ := (n % 2 ^ bits).toNat

/-- The columns of the statement, in order. -/
def raccColumns (nadi : ℤ × ℤ) (row : RaccRow) : List ℕ :=
  if nadi = (-1, -1) ∨ nadi = (-2, -2) then
    [row.baccId, row.bplanId, row.startPeriod, row.endPeriod, row.billingDay, row.roundModeId,
      row.dayOfPayment]
  else
    [row.baccId, row.bplanId, asUnsigned 32 row.clgNadi, asUnsigned 32 row.cldNadi,
      row.startPeriod, row.endPeriod, row.billingDay, row.roundModeId]

/-- Store the columns of one row by their index. -/
def Racc.load (rtp : Racc) (columns : List ℕ) : Racc :=
  { rtp with
    bacc := { rtp.bacc with
      id := columns[0]?.getD 0
      billingDay := asUnsigned 16 (columns[4]?.getD 0 : ℕ)
      roundModeId := columns[5]?.getD 0
      dayOfPayment := asUnsigned 16 (columns[6]?.getD 0 : ℕ) }
    bplan := { rtp.bplan with
      id := columns[1]?.getD 0
      bplanStartPeriod := columns[2]?.getD 0
      bplanEndPeriod := columns[3]?.getD 0 } }

/-- `rt_data_q_racc_sql`: load every row in turn; the return code is `DB_OK` with or without rows.
The key fields are short enough for `db_sql_escape` never to run out of room. -/
def rtDataQRaccSql (env : Env) (rtp : Racc) : ℤ × Racc :=
  match env.racc rtp.rtm rtp.pre with
  | none => (0, rtp)
  | some rows =>
      (0, rows.foldl (fun rtp row => rtp.load (raccColumns (rtp.rtm.nadi rtp.pre) row)) rtp)

/-- `pre->rating_mode_id = mode`. -/
def Rating.withMode (pre : Rating) (mode : RtMode) : Rating := { pre with ratingModeId := mode.id }

/-- `rt_data_q_racc` for a mode. -/
def rtDataQRacc (env : Env) (mode : RtMode) (pre : Rating) : Option Racc :=
  match rtDataQRaccSql env { rtm := mode, pre := pre.withMode mode } with
  | (ret, rtp) => if ret < 0 then none else some rtp

/-! ## The legs -/

/-- `rt_racc_voip_av_a`. -/
def rtRaccVoipAvA (env : Env) (pre : Rating) : Option Racc :=
  match rtDataQRacc env .clg pre with
  | some rtp => some rtp
  | none => rtDataQRacc env .acode pre

/-- `rt_racc_voip_t_a`. -/
def rtRaccVoipTA (env : Env) (pre : Rating) : Option Racc :=
  match rtDataQRacc env .acode pre with
  | some rtp => some rtp
  | none => rtDataQRacc env .srcc pre

/-- `rt_racc_voip_t_b`. -/
def rtRaccVoipTB (env : Env) (pre : Rating) : Option Racc := rtDataQRacc env .dstc pre

/-- `rt_racc_isup_a`. -/
def rtRaccIsupA (env : Env) (pre : Rating) : Option Racc := rtDataQRacc env .srctg pre

/-- `rt_racc_isup_b`. -/
def rtRaccIsupB (env : Env) (pre : Rating) : Option Racc := rtDataQRacc env .dsttg pre

/-- `rt_racc_sms_a`. -/
def rtRaccSmsA (env : Env) (pre : Rating) : Option Racc := rtDataQRacc env .sms pre

/-- `rt_racc_sms_b`. -/
def rtRaccSmsB (env : Env) (pre : Rating) : Option Racc := rtDataQRacc env .sms pre

/-- `rt_racc_unkn_a`. -/
def rtRaccUnknA (env : Env) (pre : Rating) : Option Racc :=
  match rtDataQRacc env .clg pre with
  | some rtp => some rtp
  | none =>
      match rtDataQRacc env .acode pre with
      | some rtp => some rtp
      | none =>
          match rtDataQRacc env .srcc pre with
          | some rtp => some rtp
          | none => rtDataQRacc env .srctg pre

/-- `rt_racc_unkn_b`. -/
def rtRaccUnknB (env : Env) (pre : Rating) : Option Racc :=
  match if pre.dstContext ≠ "" then rtDataQRacc env .dstc pre else none with
  | some rtp => some rtp
  | none => if pre.dstTgroup ≠ "" then rtDataQRacc env .dsttg pre else none

/-- The lookup of `rt_main`. -/
def rtMainRacc (env : Env) (leg : Leg) (recType : CdrRecType) (pre : Rating) : Option Racc :=
  match leg, recType with
  | .a, .unkn => rtRaccUnknA env pre
  | .a, .isup => rtRaccIsupA env pre
  | .a, .voipA => rtRaccVoipAvA env pre
  | .a, .voipV => none
  | .a, .voipT => rtRaccVoipTA env pre
  | .a, .sms => rtRaccSmsA env pre
  | .b, .unkn => rtRaccUnknB env pre
  | .b, .isup => rtRaccIsupB env pre
  | .b, .voipA => rtRaccVoipAvA env pre
  | .b, .voipV => none
  | .b, .voipT => rtRaccVoipTB env pre
  | .b, .sms => rtRaccSmsB env pre

/-- `rt_cdr_to_rating` on a record that `rt_rating_init` cleared. -/
def rtCdrToRating (env : Env) (cdr : Cdr) : Rating where
  cdrServerId := cdr.cdrServerId
  clg := cdr.callingNumber
  cld := cdr.calledNumber
  billsec := cdr.billsec
  cdrId := cdr.id
  timestamp := cdr.startTs
  dow := (env.localtime (env.convertTsToEpoch cdr.startTs)).wday
  ts := cdr.startEpoch
  accountCode := cdr.accountCode
  srcContext := cdr.srcContext
  dstContext := cdr.dstContext
  srcTgroup := cdr.srcTgroup
  dstTgroup := cdr.dstTgroup
  epoch := env.convertTsToEpoch cdr.startTs
  clgNadi := cdr.clgNadi
  cldNadi := cdr.cldNadi
  billusec := cdr.billusec

/-- The account that classic rating resolves for a leg of a CDR; `rt_main` asks for an id. -/
def resolvedAccount (env : Env) (leg : Leg) (cdr : Cdr) : Option ℕ :=
  match rtMainRacc env leg cdr.recType (rtCdrToRating env cdr) with
  | none => none
  | some rtp => if rtp.bacc.id = 0 then none else some rtp.bacc.id

/-! ## The record of a lookup -/

theorem foldl_load_frame (rows : List RaccRow) (rtp : Racc) :
    (rows.foldl (fun rtp row => rtp.load (raccColumns (rtp.rtm.nadi rtp.pre) row)) rtp).bal =
        rtp.bal ∧
      (rows.foldl (fun rtp row => rtp.load (raccColumns (rtp.rtm.nadi rtp.pre) row))
          rtp).bacc.pcardPtr = rtp.bacc.pcardPtr ∧
        (rows.foldl (fun rtp row => rtp.load (raccColumns (rtp.rtm.nadi rtp.pre) row)) rtp).pre =
          rtp.pre := by
  induction rows generalizing rtp with
  | nil => exact ⟨rfl, rfl, rfl⟩
  | cons row rest ih => exact ih _

/-- A lookup gives a record without a balance and without a card, and keeps the call. -/
theorem fresh_of_rtDataQRacc {env : Env} {mode : RtMode} {pre : Rating} {rtp : Racc}
    (found : rtDataQRacc env mode pre = some rtp) :
    rtp.bal = {} ∧ rtp.bacc.pcardPtr = none ∧ rtp.pre = pre.withMode mode := by
  simp only [rtDataQRacc] at found
  split at found
  · cases found
  · obtain rfl := Option.some.inj found
    simp only [rtDataQRaccSql]
    split
    · exact ⟨rfl, rfl, rfl⟩
    · exact foldl_load_frame _ _

end RateEngine
