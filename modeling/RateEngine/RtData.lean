import Mathlib.Data.Rat.Defs

/-!
# The rating data model

The structures of `rt_data.h` with the fields that rating reads or writes.  Amounts are exact
rationals, seconds and return codes are integers, serial ids are natural numbers with `0` for "not
set", and a pointer that may be `NULL` is an `Option`.
-/

namespace RateEngine

/-- `rt_mode_t`: how a rating account was looked up. -/
inductive RtMode where
  | clg
  | acode
  | srcc
  | dstc
  | srctg
  | dsttg
  | sms
deriving DecidableEq, Repr

/-- The number that `rt_mode_t` gives the mode, stored as `rating_mode_id`. -/
def RtMode.id : RtMode → ℕ
  | clg => 1
  | acode => 2
  | srcc => 3
  | dstc => 4
  | srctg => 5
  | dsttg => 6
  | sms => 7

/-- `cdr_rec_type_t`: the record type of a CDR. -/
inductive CdrRecType where
  | unkn
  | isup
  | sms
  | voipA
  | voipV
  | voipT
deriving DecidableEq, Repr

/-- The leg of a call that is being rated. -/
inductive Leg where
  | a
  | b
deriving DecidableEq, Repr

/-- `calc_function_t`: one tier of a tariff. -/
structure CalcFunction where
  /-- Position in the tariff; `0` ends the array. -/
  pos : ℤ
  /-- Seconds in one unit (`delta_time`). -/
  delta : ℤ
  /-- Price of one unit. -/
  fee : ℚ
  /-- Units the tier covers; `0` makes it unbounded. -/
  iterations : ℤ
deriving DecidableEq, Repr

/-- `rate_t` without its `calc_funcs`, which `Bplan` holds. -/
structure Rate where
  id : ℕ
  prefixId : ℕ
  /-- The dialled prefix; `"&"` matches every number. -/
  prefixStr : String
  tariffId : ℕ
  startPeriod : ℕ
  endPeriod : ℕ
  freeBillsecId : ℕ
deriving DecidableEq, Repr

/-- `pcard_type_t`. -/
inductive PcardType where
  | debitCard
  | creditCard
  | unkn
deriving DecidableEq, Repr

/-- `pcard_status_t`. -/
inductive PcardStatus where
  | deactive
  | active
  | block
deriving DecidableEq, Repr

/-- `pcard_t`: a payment card. -/
structure Pcard where
  id : ℕ
  amount : ℚ
  start : String
  stop : String
  status : PcardStatus
  type : PcardType
  callNumber : ℤ
deriving DecidableEq, Repr

/-- `bacc_t`: the billing account of a call. -/
structure Bacc where
  id : ℕ := 0
  roundModeId : ℕ := 0
  billingDay : ℕ := 0
  dayOfPayment : ℕ := 0
  pcardPtr : Option Pcard := none
deriving DecidableEq, Repr

/-- `bplan_t`: the bill plan of a call, with the rates and the tariff found for it. -/
structure Bplan where
  id : ℕ := 0
  bplanStartPeriod : ℕ := 0
  bplanEndPeriod : ℕ := 0
  ratesPtr : Option (List Rate) := none
  calcFuncs : Option (List CalcFunction) := none
deriving DecidableEq, Repr

/-- `bal_t`: the balance row as it was last read. -/
structure Bal where
  id : ℕ := 0
  amount : ℚ := 0
deriving DecidableEq, Repr

/-- `rating_t`: the working record of one call, zeroed by `rt_rating_init`. -/
structure Rating where
  cdrServerId : ℕ := 0
  clg : String := ""
  cld : String := ""
  timestamp : String := ""
  /-- Start of the call for offline rating; `0` marks an online request. -/
  epoch : ℤ := 0
  clgNadi : ℤ := 0
  cldNadi : ℤ := 0
  maxsec : ℤ := 0
  billsec : ℤ := 0
  billusec : ℤ := 0
  freeId : ℕ := 0
  freeBillsec : ℤ := 0
  freeBillsecId : ℕ := 0
  freeBillsecSum : ℤ := 0
  freeBillsecLimit : ℤ := 0
  dow : ℤ := 0
  balId : ℕ := 0
  limit : ℚ := 0
  cprice : ℚ := 0
  ts : ℤ := 0
  tcId : ℕ := 0
  cdrId : ℕ := 0
  ratingId : ℤ := 0
  ratingModeId : ℕ := 0
  accountCode : String := ""
  srcContext : String := ""
  dstContext : String := ""
  srcTgroup : String := ""
  dstTgroup : String := ""
  tariffId : ℕ := 0
  rateId : ℕ := 0
  prefixId : ℕ := 0
deriving DecidableEq, Repr

/-- `cdr_t`: the fields of a CDR that rating reads. -/
structure Cdr where
  id : ℕ
  cdrServerId : ℕ
  recType : CdrRecType
  callingNumber : String
  calledNumber : String
  billsec : ℤ
  billusec : ℤ
  startTs : String
  startEpoch : ℤ
  accountCode : String
  srcContext : String
  dstContext : String
  srcTgroup : String
  dstTgroup : String
  clgNadi : ℤ
  cldNadi : ℤ
deriving DecidableEq, Repr

/-- `racc_t`: the rating account of one call and everything loaded for it. -/
structure Racc where
  rtm : RtMode
  bal : Bal := {}
  bacc : Bacc := {}
  bplan : Bplan := {}
  pre : Rating
deriving DecidableEq, Repr

end RateEngine
