import RateEngine.CallRequests
import RateEngine.Lib.TokenReader

/-!
# Fields of the text protocol

`my_cc_parser` takes the fields of a message with `strtok` and copies them into the arrays of the
request.  `strtok` skips empty fields, the copies have no bound, and a missing field leaves by a
jump that frees nothing.  This file follows the objects and the arrays and states which messages are
read by position.
-/

namespace RateEngine

open TokenReader

/-! ## What a request holds -/

/-- A text in an array of `size` characters; its terminator is in the array, too. -/
abbrev ArrayText (size : ℕ) := {text : String // text.length < size}

/-- `MY_CC_COMM_LEN`. -/
def myCcCommLen : ℕ := 16

/-- `buf_size` of the network interfaces of call control. -/
def netBufSize : ℕ := 2048

/-- `CC_CLD_LEN`. -/
def ccCldLen : ℕ := 32

/-- `cc_maxsec_t` before it is answered. -/
structure CcMaxsecT where
  clg : ArrayText ccClgLen
  cld : ArrayText ccCldLen
  callUid : ArrayText ccCallUidLen
  ts : ℤ
deriving DecidableEq

/-- `cc_rate_t` before it is answered. -/
structure CcRateT where
  clg : ArrayText ccClgLen
  cld : ArrayText ccCldLen
deriving DecidableEq

/-- `cc_balance_t` before it is answered. -/
structure CcBalanceT where
  clg : ArrayText ccClgLen
deriving DecidableEq

/-- `cc_cprice_t` before it is answered. -/
structure CcCpriceT where
  clg : ArrayText ccClgLen
  cld : ArrayText ccCldLen
  billsec : ℕ
deriving DecidableEq

/-- `cc_term_t` before it is answered; the seconds that are not read are zero. -/
structure CcTermT where
  status : CcTermStatus
  callUid : ArrayText ccCallUidLen
  billsec : ℕ := 0
  duration : ℕ := 0
deriving DecidableEq

/-- The event of a `cc_t` with its record. -/
inductive CcRecord where
  | status
  | maxsec (max : CcMaxsecT)
  | rate (rate : CcRateT)
  | balance (bal : CcBalanceT)
  | cprice (cprice : CcCpriceT)
  | term (term : CcTermT)
deriving DecidableEq

/-- `my_cc_t` with its `cc_t`, whose server is that of the message. -/
structure MyCcT where
  cdrServerId : ℕ
  transactionId : ℕ
  command : ArrayText myCcCommLen
  timestamp : ℤ
  ccPtr : CcRecord
deriving DecidableEq

/-! ## `my_cc_parser` -/

/-- What `my_cc_parser` allocates. -/
inductive MyCcObject where
  | myRequest
  | ccPtr
  | record
deriving DecidableEq, Repr

/-- Why the parser stops before a request is read. -/
inductive MyCcStop where
  | overrun
  | endFunc (left : List MyCcObject)
deriving DecidableEq, Repr

/-- A part of `my_cc_parser`, on the tokens that `strtok` has not given yet. -/
abbrev MyCcReader := TokenReader String MyCcStop

/-- `strtok`, or `goto end_func` with what is allocated. -/
def strtokNext (left : List MyCcObject) : MyCcReader String := next (.endFunc left) .ok

/-- `strtok` and the `strcpy` of its token into an array. -/
def strtokCopy (size : ℕ) (left : List MyCcObject) : MyCcReader (ArrayText size) :=
  next (.endFunc left) fun buf =>
    if fits : buf.length < size then .ok ⟨buf, fits⟩ else .error .overrun

/-- What is allocated before the command is known. -/
def requestObjects : List MyCcObject := [.myRequest, .ccPtr]

/-- What is allocated while the record of the command is filled. -/
def recordObjects : List MyCcObject := [.myRequest, .ccPtr, .record]

/-- The branch of `MY_CC_MAXSEC`. -/
def readMaxsec (now : ℤ) : MyCcReader CcMaxsecT := do
  let clg ← strtokCopy ccClgLen recordObjects
  let cld ← strtokCopy ccCldLen recordObjects
  let callUid ← strtokCopy ccCallUidLen recordObjects
  return { clg, cld, callUid, ts := now }

/-- The branch of `MY_CC_RATE`. -/
def readRate : MyCcReader CcRateT := do
  let clg ← strtokCopy ccClgLen recordObjects
  let cld ← strtokCopy ccCldLen recordObjects
  return { clg, cld }

/-- The branch of `MY_CC_BALANCE`. -/
def readBalance : MyCcReader CcBalanceT := do
  let clg ← strtokCopy ccClgLen recordObjects
  return { clg }

/-- The branch of `MY_CC_CPRICE`. -/
def readCprice : MyCcReader CcCpriceT := do
  let clg ← strtokCopy ccClgLen recordObjects
  let cld ← strtokCopy ccCldLen recordObjects
  let billsec ← strtokNext recordObjects
  return { clg, cld, billsec := atoiUnsigned 32 billsec }

/-- The branch of `MY_CC_TERM`. -/
def readTerm : MyCcReader CcTermT := do
  let code ← strtokNext recordObjects
  let status := ccTermStatus code
  let callUid ← strtokCopy ccCallUidLen recordObjects
  if status = .normalClear then
    let billsec ← strtokNext recordObjects
    let duration ← strtokNext recordObjects
    return { status, callUid, billsec := atoiUnsigned 32 billsec,
             duration := atoiUnsigned 32 duration }
  else return { status, callUid }

/-- The branches of `my_cc_parser`; nothing for a command that it does not know. -/
def readRecord (now : ℤ) (command : String) : MyCcReader (Option CcRecord) :=
  if command = "status" then return some .status
  else if command = "maxsec" then return some (.maxsec (← readMaxsec now))
  else if command = "rate" then return some (.rate (← readRate))
  else if command = "balance" then return some (.balance (← readBalance))
  else if command = "cprice" then return some (.cprice (← readCprice))
  else if command = "term" then return some (.term (← readTerm))
  else return none

/-- The request of the first four fields and a record. -/
def requestOf (cdrServerId transactionId : String) (command : ArrayText myCcCommLen)
    (timestamp : String) (ccPtr : CcRecord) : MyCcT where
  cdrServerId := atoiUnsigned 16 cdrServerId
  transactionId := atoiUnsigned 32 transactionId
  command
  timestamp := atoi timestamp
  ccPtr

/-- `my_cc_parser` on a message that is not empty, up to the release of its objects. -/
def readMyCc (now : ℤ) : MyCcReader (Option MyCcT) := do
  let cdrServerId ← strtokNext requestObjects
  let transactionId ← strtokNext requestObjects
  let command ← strtokCopy myCcCommLen requestObjects
  let timestamp ← strtokNext requestObjects
  let ccPtr ← readRecord now command
  return ccPtr.map (requestOf cdrServerId transactionId command timestamp)

/-- How `my_cc_parser` ends: with a request and the tokens that it was read from, with `NULL` and
the objects that stay allocated, or with a copy past the end of an array. -/
inductive MyCcParse where
  | request (my : MyCcT) (read : List String)
  | refused (left : List MyCcObject)
  | overrun
deriving DecidableEq

/-- `my_cc_parser`. -/
def myCcParse (now : ℤ) (buffer : String) : MyCcParse :=
  if buffer = "" then .refused []
  else
    match readMyCc now (strtok buffer) with
    | .ok (some my, rest) =>
        .request my ((strtok buffer).take ((strtok buffer).length - rest.length))
    | .ok (none, _) => .refused []
    | .error (.endFunc left) => .refused left
    | .error .overrun => .overrun

/-! ## Fields by position -/

/-- The fields of a message by position, empty ones as well. -/
def positionFields (buffer : String) : List String :=
  (buffer.toList.splitOn ',').map String.ofList

/-- The record holds the fields by position; one that is missing is empty. -/
def CcRecord.OfFields (fields : List String) : CcRecord → Prop
  | status => True
  | maxsec r =>
      r.clg.1 = fields.getD 0 "" ∧ r.cld.1 = fields.getD 1 "" ∧ r.callUid.1 = fields.getD 2 ""
  | rate r => r.clg.1 = fields.getD 0 "" ∧ r.cld.1 = fields.getD 1 ""
  | balance r => r.clg.1 = fields.getD 0 ""
  | cprice r =>
      r.clg.1 = fields.getD 0 "" ∧ r.cld.1 = fields.getD 1 "" ∧
        r.billsec = atoiUnsigned 32 (fields.getD 2 "")
  | term r =>
      r.status = ccTermStatus (fields.getD 0 "") ∧ r.callUid.1 = fields.getD 1 "" ∧
        (r.status = .normalClear → r.billsec = atoiUnsigned 32 (fields.getD 2 "") ∧
          r.duration = atoiUnsigned 32 (fields.getD 3 ""))

/-- The command of an event. -/
def CcRecord.command : CcRecord → String
  | status => "status"
  | maxsec _ => "maxsec"
  | rate _ => "rate"
  | balance _ => "balance"
  | cprice _ => "cprice"
  | term _ => "term"

/-- The request holds the fields by position. -/
structure MyCcT.OfFields (fields : List String) (my : MyCcT) : Prop where
  cdrServerId : my.cdrServerId = atoiUnsigned 16 (fields.getD 0 "")
  transactionId : my.transactionId = atoiUnsigned 32 (fields.getD 1 "")
  command : my.command.1 = fields.getD 2 ""
  timestamp : my.timestamp = atoi (fields.getD 3 "")
  event : my.ccPtr.command = my.command.1
  record : my.ccPtr.OfFields (fields.drop 4)

/-- What is asked of the parser: a request holds the fields of the message by position, and the
tokens that it was read from are these fields; with no request nothing stays allocated. -/
def MyCcParse.Positional (buffer : String) : MyCcParse → Prop
  | request my read => my.OfFields (positionFields buffer) ∧ read <+: positionFields buffer
  | refused left => left = []
  | overrun => False

/-- The commands of `my_cc.h`. -/
def myCcCommands : List String := ["status", "maxsec", "rate", "balance", "cprice", "term"]

/-- The sizes of the arrays for the fields of a command; a field without one is not copied. -/
def myCcArrays (command : String) : List (Option ℕ) :=
  if command = "maxsec" then [some ccClgLen, some ccCldLen, some ccCallUidLen]
  else if command = "rate" then [some ccClgLen, some ccCldLen]
  else if command = "balance" then [some ccClgLen]
  else if command = "cprice" then [some ccClgLen, some ccCldLen, none]
  else if command = "term" then [none, some ccCallUidLen]
  else []

/-- The texts of the fields fit in their arrays. -/
def FitsArrays (command : String) (fields : List String) : Prop :=
  ∀ entry ∈ (myCcArrays command).zip fields, ∀ size ∈ entry.1, entry.2.length < size

/-- The message is empty, or it has four nonempty fields of which the third one is not a command, or
none of the fields that its command reads is empty; what is copied fits in its array. -/
def MyCcDecided (buffer : String) : Prop :=
  buffer = "" ∨
    match strtok buffer with
    | _ :: _ :: command :: _ :: fields =>
        command.length < myCcCommLen ∧
          (command ∈ myCcCommands →
            let count := myCcFieldCount command fields
            count ≤ fields.length ∧ FitsArrays command fields ∧
              ∀ field ∈ (positionFields buffer).take (4 + count), field ≠ "")
    | _ => False

/-! ## The readers -/

variable {tokens rest : List String} {now : ℤ}

theorem strtokNext_eq_ok {left : List MyCcObject} {buf : String} :
    strtokNext left tokens = .ok (buf, rest) ↔ tokens = buf :: rest := by
  simp [strtokNext, next_eq_ok]

theorem strtokCopy_eq_ok {size : ℕ} {left : List MyCcObject} {text : ArrayText size} :
    strtokCopy size left tokens = .ok (text, rest) ↔ tokens = text.1 :: rest := by
  rw [strtokCopy, next_eq_ok]
  constructor
  · rintro ⟨buf, rfl, copied⟩
    split at copied
    · cases copied
      rfl
    · cases copied
  · rintro rfl
    exact ⟨text.1, rfl, dif_pos text.2⟩

theorem readMaxsec_eq_ok {max : CcMaxsecT} : readMaxsec now tokens = .ok (max, rest) ↔
    tokens = max.clg.1 :: max.cld.1 :: max.callUid.1 :: rest ∧ max.ts = now := by
  simp only [readMaxsec, bind_eq_ok, strtokCopy_eq_ok, pure_eq_ok]
  constructor
  · rintro ⟨clg, _, rfl, cld, _, rfl, callUid, _, rfl, rfl, rfl⟩
    exact ⟨rfl, rfl⟩
  · rintro ⟨rfl, rfl⟩
    exact ⟨_, _, rfl, _, _, rfl, _, _, rfl, rfl, rfl⟩

theorem readRate_eq_ok {rate : CcRateT} : readRate tokens = .ok (rate, rest) ↔
    tokens = rate.clg.1 :: rate.cld.1 :: rest := by
  simp only [readRate, bind_eq_ok, strtokCopy_eq_ok, pure_eq_ok]
  constructor
  · rintro ⟨clg, _, rfl, cld, _, rfl, rfl, rfl⟩
    rfl
  · rintro rfl
    exact ⟨_, _, rfl, _, _, rfl, rfl, rfl⟩

theorem readBalance_eq_ok {bal : CcBalanceT} : readBalance tokens = .ok (bal, rest) ↔
    tokens = bal.clg.1 :: rest := by
  simp only [readBalance, bind_eq_ok, strtokCopy_eq_ok, pure_eq_ok]
  constructor
  · rintro ⟨clg, _, rfl, rfl, rfl⟩
    rfl
  · rintro rfl
    exact ⟨_, _, rfl, rfl, rfl⟩

theorem readCprice_eq_ok {cprice : CcCpriceT} : readCprice tokens = .ok (cprice, rest) ↔
    ∃ billsec, tokens = cprice.clg.1 :: cprice.cld.1 :: billsec :: rest ∧
      cprice.billsec = atoiUnsigned 32 billsec := by
  simp only [readCprice, bind_eq_ok, strtokCopy_eq_ok, strtokNext_eq_ok, pure_eq_ok]
  constructor
  · rintro ⟨clg, _, rfl, cld, _, rfl, billsec, _, rfl, rfl, rfl⟩
    exact ⟨billsec, rfl, rfl⟩
  · obtain ⟨clg, cld, seconds⟩ := cprice
    rintro ⟨billsec, rfl, rfl⟩
    exact ⟨_, _, rfl, _, _, rfl, _, _, rfl, rfl, rfl⟩

theorem readTerm_eq_ok {term : CcTermT} : readTerm tokens = .ok (term, rest) ↔
    ∃ code fields, tokens = code :: term.callUid.1 :: fields ∧ term.status = ccTermStatus code ∧
      if term.status = .normalClear then
        ∃ billsec duration, fields = billsec :: duration :: rest ∧
          term.billsec = atoiUnsigned 32 billsec ∧ term.duration = atoiUnsigned 32 duration
      else fields = rest ∧ term.billsec = 0 ∧ term.duration = 0 := by
  simp only [readTerm, bind_eq_ok, strtokCopy_eq_ok, strtokNext_eq_ok]
  constructor
  · rintro ⟨code, _, rfl, callUid, fields, rfl, read⟩
    refine ⟨code, fields, ?_⟩
    split at read
    · rename_i clear
      simp only [bind_eq_ok, strtokNext_eq_ok, pure_eq_ok] at read
      obtain ⟨billsec, _, rfl, duration, _, rfl, rfl, rfl⟩ := read
      exact ⟨rfl, rfl, by rw [if_pos clear]; exact ⟨_, _, rfl, rfl, rfl⟩⟩
    · rename_i other
      obtain ⟨rfl, rfl⟩ := pure_eq_ok.mp read
      exact ⟨rfl, rfl, by rw [if_neg other]; exact ⟨rfl, rfl, rfl⟩⟩
  · obtain ⟨status, callUid, seconds, total⟩ := term
    rintro ⟨code, fields, rfl, rfl, read⟩
    refine ⟨_, _, rfl, _, _, rfl, ?_⟩
    by_cases clear : ccTermStatus code = .normalClear
    · rw [if_pos clear] at read ⊢
      obtain ⟨billsec, duration, rfl, rfl, rfl⟩ := read
      simp only [bind_eq_ok, strtokNext_eq_ok, pure_eq_ok]
      exact ⟨_, _, rfl, _, _, rfl, rfl, rfl⟩
    · rw [if_neg clear] at read ⊢
      obtain ⟨rfl, rfl, rfl⟩ := read
      exact pure_eq_ok.mpr ⟨rfl, rfl⟩

/-- What the branch of a command reads, up to the fields that it leaves. -/
inductive ReadRecord (now : ℤ) (rest : List String) : String → List String → CcRecord → Prop
  | status : ReadRecord now rest "status" rest .status
  | maxsec (r : CcMaxsecT) (ts : r.ts = now) :
      ReadRecord now rest "maxsec" (r.clg.1 :: r.cld.1 :: r.callUid.1 :: rest) (.maxsec r)
  | rate (r : CcRateT) : ReadRecord now rest "rate" (r.clg.1 :: r.cld.1 :: rest) (.rate r)
  | balance (r : CcBalanceT) : ReadRecord now rest "balance" (r.clg.1 :: rest) (.balance r)
  | cprice (r : CcCpriceT) (billsec : String) (seconds : r.billsec = atoiUnsigned 32 billsec) :
      ReadRecord now rest "cprice" (r.clg.1 :: r.cld.1 :: billsec :: rest) (.cprice r)
  | clear (r : CcTermT) (billsec duration : String) (status : r.status = .normalClear)
      (seconds : r.billsec = atoiUnsigned 32 billsec)
      (total : r.duration = atoiUnsigned 32 duration) :
      ReadRecord now rest "term" ("nc" :: r.callUid.1 :: billsec :: duration :: rest) (.term r)
  | ended (r : CcTermT) (code : String) (status : r.status = ccTermStatus code)
      (other : code ≠ "nc")
      (seconds : r.billsec = 0) (total : r.duration = 0) :
      ReadRecord now rest "term" (code :: r.callUid.1 :: rest) (.term r)

/-- The branch of a command reads the record of its event. -/
theorem readEvent_eq_ok {α : Type} {reader : MyCcReader α} {event : α → CcRecord}
    {record : CcRecord} :
    (reader >>= fun r => pure (some (event r))) tokens = .ok (some record, rest) ↔
      ∃ r, reader tokens = .ok (r, rest) ∧ event r = record := by
  constructor
  · intro found
    obtain ⟨r, _, read, done⟩ := bind_eq_ok.mp found
    obtain ⟨same, rfl⟩ := pure_eq_ok.mp done
    exact ⟨r, read, Option.some.inj same⟩
  · rintro ⟨r, read, rfl⟩
    exact bind_eq_ok.mpr ⟨r, rest, read, rfl⟩

theorem readRecord_eq_some {command : String} {record : CcRecord}
    (found : readRecord now command tokens = .ok (some record, rest)) :
    ReadRecord now rest command tokens record := by
  unfold readRecord at found
  split_ifs at found with status maxsec rate balance cprice term
  · obtain ⟨record_eq, rfl⟩ := pure_eq_ok.mp found
    cases record_eq
    exact status ▸ .status
  · obtain ⟨r, read, rfl⟩ := readEvent_eq_ok.mp found
    obtain ⟨rfl, ts⟩ := readMaxsec_eq_ok.mp read
    exact maxsec ▸ .maxsec r ts
  · obtain ⟨r, read, rfl⟩ := readEvent_eq_ok.mp found
    obtain rfl := readRate_eq_ok.mp read
    exact rate ▸ .rate r
  · obtain ⟨r, read, rfl⟩ := readEvent_eq_ok.mp found
    obtain rfl := readBalance_eq_ok.mp read
    exact balance ▸ .balance r
  · obtain ⟨r, read, rfl⟩ := readEvent_eq_ok.mp found
    obtain ⟨billsec, rfl, seconds⟩ := readCprice_eq_ok.mp read
    exact cprice ▸ .cprice r billsec seconds
  · obtain ⟨r, read, rfl⟩ := readEvent_eq_ok.mp found
    obtain ⟨code, fields, rfl, status_eq, seconds⟩ := readTerm_eq_ok.mp read
    by_cases clear : r.status = .normalClear
    · rw [if_pos clear] at seconds
      obtain ⟨billsec, duration, rfl, billsec_eq, duration_eq⟩ := seconds
      obtain rfl : code = "nc" := ccTermStatus_eq_normalClear_iff.mp (status_eq ▸ clear)
      exact term ▸ .clear r billsec duration clear billsec_eq duration_eq
    · rw [if_neg clear] at seconds
      obtain ⟨rfl, billsec_eq, duration_eq⟩ := seconds
      have other : code ≠ "nc" :=
        fun same => clear (status_eq.trans (ccTermStatus_eq_normalClear_iff.mpr same))
      exact term ▸ .ended r code status_eq other billsec_eq duration_eq
  · cases (pure_eq_ok.mp found).1

/-- A record is read from the fields of its command, in order, and what is copied fits. -/
theorem ReadRecord.fields {command : String} {record : CcRecord}
    (reads : ReadRecord now rest command tokens record) :
    command ∈ myCcCommands ∧ record.command = command ∧ FitsArrays command tokens ∧
      ∃ read, read.length = myCcFieldCount command tokens ∧ tokens = read ++ rest ∧
        ∀ fields, record.OfFields (read ++ fields) := by
  cases reads with
  | status =>
      exact ⟨by decide, rfl, by simp [FitsArrays, myCcArrays], [], rfl, rfl, fun _ => trivial⟩
  | maxsec r ts =>
      refine ⟨by decide, rfl, ?_, [_, _, _], rfl, rfl, fun _ => ⟨rfl, rfl, rfl⟩⟩
      simp [FitsArrays, myCcArrays, r.clg.2, r.cld.2, r.callUid.2]
  | rate r =>
      refine ⟨by decide, rfl, ?_, [_, _], rfl, rfl, fun _ => ⟨rfl, rfl⟩⟩
      simp [FitsArrays, myCcArrays, r.clg.2, r.cld.2]
  | balance r =>
      refine ⟨by decide, rfl, ?_, [_], rfl, rfl, fun _ => rfl⟩
      simp [FitsArrays, myCcArrays, r.clg.2]
  | cprice r billsec seconds =>
      refine ⟨by decide, rfl, ?_, [_, _, _], rfl, rfl, fun _ => ⟨rfl, rfl, seconds⟩⟩
      simp [FitsArrays, myCcArrays, r.clg.2, r.cld.2]
  | clear r billsec duration status seconds total =>
      refine ⟨by decide, rfl, ?_,
        [_, _, _, _], rfl, rfl, fun _ => ⟨?_, rfl, fun _ => ⟨seconds, total⟩⟩⟩
      · simp [FitsArrays, myCcArrays, r.callUid.2]
      · exact status.trans (ccTermStatus_eq_normalClear_iff.mpr rfl).symm
  | ended r code status other =>
      refine ⟨by decide, rfl, ?_, [_, _], by simp [myCcFieldCount, other], rfl, fun _ => ?_⟩
      · simp [FitsArrays, myCcArrays, r.callUid.2]
      · refine ⟨status, rfl, fun normal => ?_⟩
        exact (other (ccTermStatus_eq_normalClear_iff.mp (status ▸ normal))).elim

theorem exists_readMaxsec (enough : 3 ≤ tokens.length) (fits : FitsArrays "maxsec" tokens) :
    ∃ max rest, readMaxsec now tokens = .ok (max, rest) := by
  obtain ⟨clg, _, rfl, two⟩ := exists_cons_of_succ_le enough
  obtain ⟨cld, _, rfl, one⟩ := exists_cons_of_succ_le two
  obtain ⟨callUid, rest, rfl, -⟩ := exists_cons_of_succ_le one
  obtain ⟨clg_fits, cld_fits, callUid_fits⟩ :
      clg.length < ccClgLen ∧ cld.length < ccCldLen ∧ callUid.length < ccCallUidLen := by
    simpa [FitsArrays, myCcArrays] using fits
  let max : CcMaxsecT := ⟨⟨clg, clg_fits⟩, ⟨cld, cld_fits⟩, ⟨callUid, callUid_fits⟩, now⟩
  exact ⟨max, rest, readMaxsec_eq_ok.mpr ⟨rfl, rfl⟩⟩

theorem exists_readRate (enough : 2 ≤ tokens.length) (fits : FitsArrays "rate" tokens) :
    ∃ rate rest, readRate tokens = .ok (rate, rest) := by
  obtain ⟨clg, _, rfl, one⟩ := exists_cons_of_succ_le enough
  obtain ⟨cld, rest, rfl, -⟩ := exists_cons_of_succ_le one
  obtain ⟨clg_fits, cld_fits⟩ : clg.length < ccClgLen ∧ cld.length < ccCldLen := by
    simpa [FitsArrays, myCcArrays] using fits
  let rate : CcRateT := ⟨⟨clg, clg_fits⟩, ⟨cld, cld_fits⟩⟩
  exact ⟨rate, rest, readRate_eq_ok.mpr rfl⟩

theorem exists_readBalance (enough : 1 ≤ tokens.length) (fits : FitsArrays "balance" tokens) :
    ∃ bal rest, readBalance tokens = .ok (bal, rest) := by
  obtain ⟨clg, rest, rfl, -⟩ := exists_cons_of_succ_le enough
  have clg_fits : clg.length < ccClgLen := by simpa [FitsArrays, myCcArrays] using fits
  let bal : CcBalanceT := ⟨⟨clg, clg_fits⟩⟩
  exact ⟨bal, rest, readBalance_eq_ok.mpr rfl⟩

theorem exists_readCprice (enough : 3 ≤ tokens.length) (fits : FitsArrays "cprice" tokens) :
    ∃ cprice rest, readCprice tokens = .ok (cprice, rest) := by
  obtain ⟨clg, _, rfl, two⟩ := exists_cons_of_succ_le enough
  obtain ⟨cld, _, rfl, one⟩ := exists_cons_of_succ_le two
  obtain ⟨billsec, rest, rfl, -⟩ := exists_cons_of_succ_le one
  obtain ⟨clg_fits, cld_fits⟩ : clg.length < ccClgLen ∧ cld.length < ccCldLen := by
    simpa [FitsArrays, myCcArrays] using fits
  let cprice : CcCpriceT := ⟨⟨clg, clg_fits⟩, ⟨cld, cld_fits⟩, atoiUnsigned 32 billsec⟩
  exact ⟨cprice, rest, readCprice_eq_ok.mpr ⟨billsec, rfl, rfl⟩⟩

theorem exists_readTerm (enough : (if tokens.head? = some "nc" then 4 else 2) ≤ tokens.length)
    (fits : FitsArrays "term" tokens) : ∃ term rest, readTerm tokens = .ok (term, rest) := by
  by_cases clear : tokens.head? = some "nc"
  · rw [if_pos clear] at enough
    obtain ⟨code, _, rfl, three⟩ := exists_cons_of_succ_le enough
    obtain ⟨callUid, _, rfl, two⟩ := exists_cons_of_succ_le three
    obtain ⟨billsec, _, rfl, one⟩ := exists_cons_of_succ_le two
    obtain ⟨duration, rest, rfl, -⟩ := exists_cons_of_succ_le one
    have status_eq : ccTermStatus code = .normalClear :=
      ccTermStatus_eq_normalClear_iff.mpr (Option.some.inj clear)
    have callUid_fits : callUid.length < ccCallUidLen := by
      simpa [FitsArrays, myCcArrays] using fits
    let term : CcTermT :=
      ⟨ccTermStatus code, ⟨callUid, callUid_fits⟩, atoiUnsigned 32 billsec,
        atoiUnsigned 32 duration⟩
    refine ⟨term, rest, readTerm_eq_ok.mpr ⟨code, _, rfl, rfl, ?_⟩⟩
    rw [if_pos status_eq]
    exact ⟨_, _, rfl, rfl, rfl⟩
  · rw [if_neg clear] at enough
    obtain ⟨code, _, rfl, one⟩ := exists_cons_of_succ_le enough
    obtain ⟨callUid, rest, rfl, -⟩ := exists_cons_of_succ_le one
    have status_ne : ccTermStatus code ≠ .normalClear :=
      fun normal => clear (congrArg some (ccTermStatus_eq_normalClear_iff.mp normal))
    have callUid_fits : callUid.length < ccCallUidLen := by
      simpa [FitsArrays, myCcArrays] using fits
    let term : CcTermT := { status := ccTermStatus code, callUid := ⟨callUid, callUid_fits⟩ }
    refine ⟨term, rest, readTerm_eq_ok.mpr ⟨code, _, rfl, rfl, ?_⟩⟩
    rw [if_neg status_ne]
    exact ⟨rfl, rfl, rfl⟩

/-- With enough fields whose texts fit, a command is read. -/
theorem exists_readRecord {command : String} (known : command ∈ myCcCommands)
    (enough : myCcFieldCount command tokens ≤ tokens.length) (fits : FitsArrays command tokens) :
    ∃ record rest, readRecord now command tokens = .ok (some record, rest) := by
  simp only [myCcCommands, List.mem_cons, List.not_mem_nil, or_false] at known
  obtain rfl | rfl | rfl | rfl | rfl | rfl := known
  · exact ⟨.status, tokens, rfl⟩
  · obtain ⟨max, rest, read⟩ := exists_readMaxsec enough fits
    exact ⟨.maxsec max, rest, readEvent_eq_ok.mpr ⟨max, read, rfl⟩⟩
  · obtain ⟨rate, rest, read⟩ := exists_readRate enough fits
    exact ⟨.rate rate, rest, readEvent_eq_ok.mpr ⟨rate, read, rfl⟩⟩
  · obtain ⟨bal, rest, read⟩ := exists_readBalance enough fits
    exact ⟨.balance bal, rest, readEvent_eq_ok.mpr ⟨bal, read, rfl⟩⟩
  · obtain ⟨cprice, rest, read⟩ := exists_readCprice enough fits
    exact ⟨.cprice cprice, rest, readEvent_eq_ok.mpr ⟨cprice, read, rfl⟩⟩
  · obtain ⟨term, rest, read⟩ := exists_readTerm enough fits
    exact ⟨.term term, rest, readEvent_eq_ok.mpr ⟨term, read, rfl⟩⟩

/-- Only a command that the parser does not know is not read. -/
theorem readRecord_eq_none {command : String} :
    readRecord now command tokens = .ok (none, rest) ↔ command ∉ myCcCommands ∧ tokens = rest := by
  have read_some : ∀ {α : Type} (reader : MyCcReader α) (record : α → CcRecord),
      (reader >>= fun r => pure (some (record r))) tokens ≠ .ok (none, rest) := by
    intro α reader record found
    obtain ⟨r, _, -, done⟩ := bind_eq_ok.mp found
    nomatch (pure_eq_ok.mp done).1
  unfold readRecord
  split_ifs with status maxsec rate balance cprice term
  · simp [pure_eq_ok, status, myCcCommands]
  · exact iff_of_false (read_some _ CcRecord.maxsec) fun unknown => unknown.1 (maxsec ▸ by decide)
  · exact iff_of_false (read_some _ CcRecord.rate) fun unknown => unknown.1 (rate ▸ by decide)
  · exact iff_of_false (read_some _ CcRecord.balance) fun unknown => unknown.1 (balance ▸ by decide)
  · exact iff_of_false (read_some _ CcRecord.cprice) fun unknown => unknown.1 (cprice ▸ by decide)
  · exact iff_of_false (read_some _ CcRecord.term) fun unknown => unknown.1 (term ▸ by decide)
  · simp [pure_eq_ok, myCcCommands, status, maxsec, rate, balance, cprice, term]

/-! ## Objects that stay allocated -/

/-- A stop leaves something behind, or a copy has run over its array. -/
def MyCcStop.Leaves (stop : MyCcStop) : Prop := stop ≠ .endFunc []

theorem strtokNext_leaves {left : List MyCcObject} (held : left ≠ []) :
    StopsWith MyCcStop.Leaves (strtokNext left) :=
  .next (fun same => held (MyCcStop.endFunc.inj same)) fun _ _ stopped => nomatch stopped

theorem strtokCopy_leaves {left : List MyCcObject} (held : left ≠ []) (size : ℕ) :
    StopsWith MyCcStop.Leaves (strtokCopy size left) := by
  refine .next (fun same => held (MyCcStop.endFunc.inj same)) fun buf stop stopped => ?_
  split at stopped
  · nomatch stopped
  · cases stopped
    exact fun same => nomatch same

theorem readRecord_leaves (now : ℤ) (command : String) :
    StopsWith MyCcStop.Leaves (readRecord now command) := by
  have next : StopsWith MyCcStop.Leaves (strtokNext recordObjects) := strtokNext_leaves (by decide)
  have copy (size : ℕ) : StopsWith MyCcStop.Leaves (strtokCopy size recordObjects) :=
    strtokCopy_leaves (by decide) size
  unfold readRecord
  split_ifs
  · exact .pure _
  · refine .bind ?_ fun _ => .pure _
    exact .bind (copy _) fun _ => .bind (copy _) fun _ => .bind (copy _) fun _ => .pure _
  · refine .bind ?_ fun _ => .pure _
    exact .bind (copy _) fun _ => .bind (copy _) fun _ => .pure _
  · refine .bind ?_ fun _ => .pure _
    exact .bind (copy _) fun _ => .pure _
  · refine .bind ?_ fun _ => .pure _
    exact .bind (copy _) fun _ => .bind (copy _) fun _ => .bind next fun _ => .pure _
  · refine .bind ?_ fun _ => .pure _
    refine .bind next fun code => .bind (copy _) fun _ => ?_
    split
    · exact .bind next fun _ => .bind next fun _ => .pure _
    · exact .pure _
  · exact .pure _

theorem readMyCc_leaves (now : ℤ) : StopsWith MyCcStop.Leaves (readMyCc now) := by
  have next : StopsWith MyCcStop.Leaves (strtokNext requestObjects) := strtokNext_leaves (by decide)
  have copy (size : ℕ) : StopsWith MyCcStop.Leaves (strtokCopy size requestObjects) :=
    strtokCopy_leaves (by decide) size
  exact .bind next fun _ => .bind next fun _ => .bind (copy _) fun command => .bind next fun _ =>
    .bind (readRecord_leaves now command) fun _ => .pure _

/-! ## Which messages are read by position -/

theorem readMyCc_eq_ok {found : Option MyCcT} : readMyCc now tokens = .ok (found, rest) ↔
    ∃ server transaction, ∃ command : ArrayText myCcCommLen, ∃ timestamp fields ccPtr,
      tokens = server :: transaction :: command.1 :: timestamp :: fields ∧
        readRecord now command fields = .ok (ccPtr, rest) ∧
          found = ccPtr.map (requestOf server transaction command timestamp) := by
  simp only [readMyCc, bind_eq_ok, strtokNext_eq_ok, strtokCopy_eq_ok, pure_eq_ok]
  constructor
  · rintro ⟨server, _, rfl, transaction, _, rfl, command, _, rfl, timestamp, fields, rfl, ccPtr, _,
      record, rfl, rfl⟩
    exact ⟨server, transaction, command, timestamp, fields, ccPtr, rfl, record, rfl⟩
  · rintro ⟨server, transaction, command, timestamp, fields, ccPtr, rfl, record, rfl⟩
    exact ⟨_, _, rfl, _, _, rfl, _, _, rfl, _, _, rfl, _, _, record, rfl, rfl⟩

theorem strtok_eq_filter (buffer : String) :
    strtok buffer = (positionFields buffer).filter (· ≠ "") := by
  rw [strtok, positionFields, List.filter_map]
  congr 1
  refine List.filter_congr fun field _ => ?_
  simp [String.ofList_eq_empty_iff]

/-- A message of which the parser makes a request is read by position as long as no field that it
reads is empty. -/
theorem positional_request_iff {buffer server transaction timestamp : String}
    {command : ArrayText myCcCommLen} {fields : List String} {record : CcRecord}
    (split : strtok buffer = server :: transaction :: command.1 :: timestamp :: fields)
    (found : readRecord now command fields = .ok (some record, rest)) :
    (MyCcParse.request (requestOf server transaction command timestamp record)
        ((strtok buffer).take ((strtok buffer).length - rest.length))).Positional buffer ↔
      ∀ field ∈ (positionFields buffer).take (4 + myCcFieldCount command fields), field ≠ "" := by
  obtain ⟨-, event, -, read, count, rfl, holds⟩ := (readRecord_eq_some found).fields
  have length :
      (strtok buffer).length - rest.length = 4 + myCcFieldCount command (read ++ rest) := by
    rw [split, ← count]
    simp
    omega
  have taken : (strtok buffer).take (4 + myCcFieldCount command (read ++ rest)) =
      server :: transaction :: command.1 :: timestamp :: read := by
    rw [split, ← count, Nat.add_comm]
    simp
  have enough : 4 + myCcFieldCount command (read ++ rest) ≤ (strtok buffer).length := by
    rw [split, ← count]
    simp
    omega
  rw [length, strtok_eq_filter] at *
  have kept := take_filter_prefix_iff enough
  simp only [decide_eq_true_eq] at kept
  rw [← kept, MyCcParse.Positional, and_iff_right_iff_imp]
  intro positional
  rw [taken] at positional
  obtain ⟨more, fields_eq⟩ := positional
  rw [← fields_eq]
  exact ⟨rfl, rfl, rfl, rfl, event, holds more⟩

/-- The parser gets to the end of a message that is decided. -/
theorem exists_readMyCc (now : ℤ) {server transaction command timestamp : String}
    {fields : List String} (short : command.length < myCcCommLen)
    (complete : command ∈ myCcCommands →
      myCcFieldCount command fields ≤ fields.length ∧ FitsArrays command fields) :
    ∃ found rest,
      readMyCc now (server :: transaction :: command :: timestamp :: fields) = .ok
        (found, rest) := by
  obtain ⟨record, rest, read⟩ : ∃ record rest, readRecord now command fields = .ok
      (record, rest) := by
    by_cases known : command ∈ myCcCommands
    · obtain ⟨record, rest, read⟩ := exists_readRecord known (complete known).1 (complete known).2
      exact ⟨some record, rest, read⟩
    · exact ⟨none, fields, readRecord_eq_none.mpr ⟨known, rfl⟩⟩
  exact ⟨_, rest, readMyCc_eq_ok.mpr ⟨_, _, ⟨command, short⟩, _, _, _, rfl, read, rfl⟩⟩

/-- The parser reads a message by position, inside its arrays, or leaves nothing behind, exactly
when no field that the command of the message reads is empty, missing or too long. -/
theorem myCcParse_positional_iff (now : ℤ) (buffer : String) :
    (myCcParse now buffer).Positional buffer ↔ MyCcDecided buffer := by
  unfold myCcParse MyCcDecided
  by_cases empty : buffer = ""
  · rw [if_pos empty]
    exact iff_of_true rfl (.inl empty)
  rw [if_neg empty, or_iff_right empty]
  cases found : readMyCc now (strtok buffer) with
  | ok result =>
      obtain ⟨my, rest⟩ := result
      obtain ⟨server, transaction, command, timestamp, fields, record, split, read, rfl⟩ :=
        readMyCc_eq_ok.mp found
      cases record with
      | none =>
          have unknown := (readRecord_eq_none.mp read).1
          rw [split]
          exact iff_of_true rfl ⟨command.2, fun known => (unknown known).elim⟩
      | some record =>
          obtain ⟨known, -, fits, read', count, fields_eq, -⟩ := (readRecord_eq_some read).fields
          have enough : myCcFieldCount command.1 fields ≤ fields.length := by
            rw [← count, fields_eq]
            simp
          refine (positional_request_iff split read).trans ?_
          rw [split]
          constructor
          · exact fun kept => ⟨command.2, fun _ => ⟨enough, fits, kept⟩⟩
          · exact fun decided => (decided.2 known).2.2
  | error stop =>
      have leaves := readMyCc_leaves now _ _ found
      refine iff_of_false ?_ ?_
      · cases stop with
        | overrun => exact id
        | endFunc left => exact fun none_left => leaves (congrArg _ none_left)
      · intro decided
        split at decided
        · rename_i command _ fields split
          obtain ⟨result, rest, read⟩ :=
            exists_readMyCc now decided.1 fun known => (decided.2 known).imp_right And.left
          rw [split, read] at found
          nomatch found
        · exact decided

/-- A `maxsec` message without a calling number: the called number is read as the calling number,
the call as the called number, and the objects stay allocated. -/
def callerlessMessage : String := "1,7,maxsec,3,,359880,call-1"

theorem not_myCcParse_positional : ¬ ∀ (now : ℤ) (buffer : String), buffer.length < netBufSize →
    (myCcParse now buffer).Positional buffer := by
  intro positional
  have left : recordObjects = [] := positional 0 callerlessMessage (by decide)
  nomatch left

/-! ## The allocations of the call protocols -/

/-- The record of a request as far as the table of calls goes. -/
def CcRecord.toRequest (cdrServerId : ℕ) : CcRecord → CcRequest
  | status => .ofStatus cdrServerId
  | maxsec r =>
      let max := { clg := r.clg.1, cld := r.cld.1, callUid := r.callUid.1, ts := r.ts }
      .ofMaxsec cdrServerId max
  | rate _ => .ofRate cdrServerId
  | balance _ => .ofBalance cdrServerId
  | cprice _ => .ofCprice cdrServerId
  | term r =>
      let term :=
        { status := r.status, callUid := r.callUid.1, billsec := r.billsec, duration := r.duration }
      .ofTerm cdrServerId term

/-- A request that fits in its arrays is the request of the parser without arrays. -/
theorem myCcParser_of_request {buffer : String} {my : MyCcT} {read : List String}
    (parsed : myCcParse now buffer = .request my read) :
    myCcParser now buffer = .request (my.ccPtr.toRequest my.cdrServerId) := by
  unfold myCcParse at parsed
  split_ifs at parsed with empty
  cases found : readMyCc now (strtok buffer) with
  | error stop => cases stop <;> simp [found] at parsed
  | ok result =>
      obtain ⟨my', rest⟩ := result
      obtain ⟨server, transaction, command, timestamp, fields, record, split, read, rfl⟩ :=
        readMyCc_eq_ok.mp found
      cases record with
      | none => simp [found] at parsed
      | some record =>
          rw [found] at parsed
          obtain ⟨rfl, -⟩ := MyCcParse.request.inj parsed
          rw [myCcParser, if_neg empty, split]
          obtain ⟨command, short⟩ := command
          cases readRecord_eq_some read with
          | status => rfl
          | maxsec r ts =>
              subst ts
              rfl
          | rate r => rfl
          | balance r => rfl
          | cprice r billsec seconds => rfl
          | clear r billsec duration status seconds total =>
              simp [myCcTerm, ccTermStatus, CcRecord.toRequest, requestOf, status, seconds, total]
          | ended r code status other seconds total =>
              have unclear : ccTermStatus code ≠ .normalClear :=
                fun normal => other (ccTermStatus_eq_normalClear_iff.mp normal)
              simp [myCcTerm, unclear, CcRecord.toRequest, requestOf, status, seconds, total]

end RateEngine
