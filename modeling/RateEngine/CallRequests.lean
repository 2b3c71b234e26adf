import RateEngine.CallTable

/-!
# Requests of the two call protocols

`my_cc` and `jsonrpc_cc` read a request, allocate a `cc_t` with the record of its event and, once
the event manager has answered, decide whether the `cc_t` is done.  The decision is coded twice, and
the parser of `my_cc` has an exit that neither returns nor frees what it has allocated.
-/

namespace RateEngine

/-! ## What a request allocates -/

/-- `cc_events_t`. -/
inductive CcEvents where
  | unkn
  | status
  | maxsec
  | balance
  | rate
  | cprice
  | term
deriving DecidableEq, Repr

/-- The `cc_t` of a request, with its `cc_maxsec_t` or `cc_term_t`: the record of its event. -/
structure CcRequest where
  cdrServerId : ℕ := 0
  t : CcEvents
  max : Option CcMax := none
  term : Option CcTerm := none
  max_iff : max.isSome ↔ t = .maxsec := by simp
  term_iff : term.isSome ↔ t = .term := by simp
deriving DecidableEq, Repr

section Events

variable (cdrServerId : ℕ)

/-- The requests of the events, each with the record that its event has. -/
abbrev CcRequest.ofUnkn : CcRequest := { cdrServerId, t := .unkn }
abbrev CcRequest.ofStatus : CcRequest := { cdrServerId, t := .status }
abbrev CcRequest.ofMaxsec (max : CcMax) : CcRequest :=
  { cdrServerId, t := .maxsec, max := some max }
abbrev CcRequest.ofBalance : CcRequest := { cdrServerId, t := .balance }
abbrev CcRequest.ofRate : CcRequest := { cdrServerId, t := .rate }
abbrev CcRequest.ofCprice : CcRequest := { cdrServerId, t := .cprice }
abbrev CcRequest.ofTerm (term : CcTerm) : CcRequest :=
  { cdrServerId, t := .term, term := some term }

end Events

/-- How a parser ends: with a request for the event manager, with nothing after it has freed the
`cc_t`, or with nothing while the objects of the request stay allocated. -/
inductive CcParse where
  | request (r : CcRequest)
  | freed (r : CcRequest)
  | abandoned (r : CcRequest)
deriving DecidableEq, Repr

/-- The objects that a parser has allocated. -/
def CcParse.objects : CcParse → CcRequest
  | request r | freed r | abandoned r => r

/-! ## `my_cc` -/

/-- `strtok` with `MY_CC_SEPARATOR`: the nonempty parts of the buffer. -/
def strtok (buffer : String) : List String :=
  ((buffer.toList.splitOn ',').filter (· ≠ [])).map String.ofList

/-- The digits at the start of a text as a number. -/
def leadingNat (chars : List Char) : ℕ :=
  (chars.takeWhile Char.isDigit).foldl (fun n c => 10 * n + (c.toNat - 48)) 0

/-- `atoi`. -/
def atoi (text : String) : ℤ :=
  match text.toList.dropWhile Char.isWhitespace with
  | '-' :: digits => -leadingNat digits
  | '+' :: digits => leadingNat digits
  | digits => leadingNat digits

/-- `atoi` stored in an `unsigned` field of `bits` bits. -/
def atoiUnsigned (bits : ℕ) (text : String) : ℕ := (atoi text % 2 ^ bits).toNat

/-- The codes of `MY_CC_TERM_*` and `JSONRPC_CC_TERM_*`. -/
def ccTermStatus (code : String) : CcTermStatus :=
  if code = "nc" then .normalClear
  else if code = "c" then .cancel
  else if code = "b" then .busy
  else if code = "e" then .error
  else .unknStatus

/-- The fields of a `maxsec` request. -/
def myCcMaxsec (now : ℤ) (cdrServerId : ℕ) : List String → CcParse
  | clg :: cld :: callUid :: _ =>
      .request (.ofMaxsec cdrServerId { clg, cld, callUid, ts := now })
  | fields =>
      let max := { clg := fields.getD 0 "", cld := fields.getD 1 "", callUid := "", ts := 0 }
      .abandoned (.ofMaxsec cdrServerId max)

/-- The fields of a `term` request; the seconds are read for a normal clear only. -/
def myCcTerm (cdrServerId : ℕ) : List String → CcParse
  | code :: callUid :: fields =>
      let status := ccTermStatus code
      if status = .normalClear then
        match fields with
        | billsec :: duration :: _ =>
            let term :=
              { status, callUid, billsec := atoiUnsigned 32 billsec,
                duration := atoiUnsigned 32 duration }
            .request (.ofTerm cdrServerId term)
        | fields =>
            let billsec := atoiUnsigned 32 (fields.getD 0 "")
            .abandoned (.ofTerm cdrServerId { status, callUid, billsec, duration := 0 })
      else
        .request (.ofTerm cdrServerId { status, callUid, billsec := 0, duration := 0 })
  | fields =>
      let status := (fields.head?.map ccTermStatus).getD .unknStatus
      .abandoned (.ofTerm cdrServerId { status, callUid := "", billsec := 0, duration := 0 })

/-- The fields of a request whose record is of no further use here. -/
def myCcOther (r : CcRequest) (count : ℕ) (fields : List String) : CcParse :=
  if count ≤ fields.length then .request r else .abandoned r

/-- `my_cc_parser`. -/
def myCcParser (now : ℤ) (buffer : String) : CcParse :=
  if buffer = "" then .freed (.ofUnkn 0)
  else
    match strtok buffer with
    | server :: _ :: command :: _ :: fields =>
        let cdrServerId := atoiUnsigned 16 server
        if command = "status" then .request (.ofStatus cdrServerId)
        else if command = "maxsec" then myCcMaxsec now cdrServerId fields
        else if command = "rate" then myCcOther (.ofRate cdrServerId) 2 fields
        else if command = "balance" then myCcOther (.ofBalance cdrServerId) 1 fields
        else if command = "cprice" then myCcOther (.ofCprice cdrServerId) 3 fields
        else if command = "term" then myCcTerm cdrServerId fields
        else .freed (.ofUnkn 0)
    | _ => .abandoned (.ofUnkn 0)

/-- The number of fields that a command reads. -/
def myCcFieldCount (command : String) (fields : List String) : ℕ :=
  if command = "maxsec" then 3
  else if command = "rate" then 2
  else if command = "balance" then 1
  else if command = "cprice" then 3
  else if command = "term" then if fields.head? = some "nc" then 4 else 2
  else 0

/-- The buffer is empty, or it has the four fields of every request and those of its command. -/
def MyCcComplete (buffer : String) : Prop :=
  buffer = "" ∨
    match strtok buffer with
    | _ :: _ :: command :: _ :: fields => myCcFieldCount command fields ≤ fields.length
    | _ => False

theorem ccTermStatus_eq_normalClear_iff {code : String} :
    ccTermStatus code = .normalClear ↔ code = "nc" := by
  unfold ccTermStatus
  split_ifs <;> simp_all

theorem myCcMaxsec_abandoned_iff {now : ℤ} {cdrServerId : ℕ} {fields : List String} :
    (∃ r, myCcMaxsec now cdrServerId fields = .abandoned r) ↔ fields.length < 3 := by
  rcases fields with - | ⟨clg, - | ⟨cld, - | ⟨callUid, rest⟩⟩⟩ <;> simp [myCcMaxsec]

theorem myCcTerm_abandoned_iff {cdrServerId : ℕ} {fields : List String} :
    (∃ r, myCcTerm cdrServerId fields = .abandoned r) ↔
      fields.length < if fields.head? = some "nc" then 4 else 2 := by
  rcases fields with - | ⟨code, - | ⟨callUid, fields⟩⟩
  · simp [myCcTerm]
  · simp only [myCcTerm, CcParse.abandoned.injEq, exists_eq', List.length_singleton, true_iff]
    split <;> decide
  · by_cases clear : code = "nc"
    · have status : ccTermStatus code = .normalClear := ccTermStatus_eq_normalClear_iff.mpr clear
      rcases fields with - | ⟨billsec, - | ⟨duration, rest⟩⟩ <;> simp [myCcTerm,
        clear, ccTermStatus]
    · have status : ccTermStatus code ≠ .normalClear :=
        fun normal => clear (ccTermStatus_eq_normalClear_iff.mp normal)
      simp [myCcTerm, clear, status]

theorem myCcOther_abandoned_iff {r : CcRequest} {count : ℕ} {fields : List String} :
    (∃ r', myCcOther r count fields = .abandoned r') ↔ fields.length < count := by
  unfold myCcOther
  split <;> simp <;> omega

/-- The parser leaves its objects behind exactly when a field of the request is missing. -/
theorem myCcParser_abandoned_iff {now : ℤ} {buffer : String} :
    (∃ r, myCcParser now buffer = .abandoned r) ↔ ¬ MyCcComplete buffer := by
  unfold myCcParser MyCcComplete
  by_cases empty : buffer = ""
  · simp [empty]
  rw [if_neg empty, or_iff_right empty]
  split
  · rename_i command _ fields _
    simp only [not_le]
    unfold myCcFieldCount
    split_ifs with status maxsec rate balance cprice term
    all_goals simp_all [myCcMaxsec_abandoned_iff, myCcTerm_abandoned_iff, myCcOther_abandoned_iff]
  · simp_all

/-! ## `jsonrpc_cc` -/

/-- The parameters of a request; a parameter of another type is not found. -/
structure JsonParams where
  str : String → Option String
  num : String → Option ℤ
  ushrt : String → Option ℕ

/-- `strncpy` of at most `n` characters into a zeroed field. -/
def strncpy (n : ℕ) (text : Option String) : String :=
  text.elim "" fun text => String.ofList (text.toList.take n)

/-- `CC_CLG_LEN`, also the length of a called number. -/
def ccClgLen : ℕ := 32

/-- `CC_CALL_UID`. -/
def ccCallUidLen : ℕ := 128

/-- `jsonrpc_cc_build_cc`. -/
def jsonrpcCcBuildCc (now : ℤ) (method : String) (params : JsonParams) : CcParse :=
  let cdrServerId := (params.ushrt "cdr_server_id").getD 0
  let clg := strncpy (ccClgLen - 1) (params.str "clg")
  let cld := strncpy (ccClgLen - 1) (params.str "cld")
  let callUid := strncpy (ccCallUidLen - 1) (params.str "call-uid")
  if method = "maxsec" then
    .request (.ofMaxsec cdrServerId { clg, cld, callUid, ts := now })
  else if method = "balance" then .request (.ofBalance cdrServerId)
  else if method = "rate" then .request (.ofRate cdrServerId)
  else if method = "cprice" then .request (.ofCprice cdrServerId)
  else if method = "term" then
    let status := ((params.str "status").map ccTermStatus).getD .unknStatus
    let billsec := ((params.num "billsec").getD 0) % 2 ^ 32
    let duration := ((params.num "duration").getD 0) % 2 ^ 32
    .request (.ofTerm cdrServerId { status, callUid, billsec, duration })
  else if method = "state" then .request (.ofStatus cdrServerId)
  else .freed (.ofUnkn cdrServerId)

/-! ## The end of a request -/

/-- The reply sets `CC_STATUS_DEACTIVE`: always, except after a grant and after a termination that
found its call.  The two protocols differ in the seconds that count as a refusal. -/
def CcEvents.done (refusal : ℤ → Bool) (maxsec tblIdx : Option ℤ) : CcEvents → Bool
  | .maxsec => maxsec.elim true refusal
  | .term => tblIdx.elim true (· < 0)
  | _ => true

/-- `my_cc_comp_ack`, with the seconds or the table index of the record of the request. -/
def myCcCompAck : (maxsec tblIdx : Option ℤ) → CcEvents → Bool := CcEvents.done (· < 0)

/-- `jsonrpc_cc_comp_resp`. -/
def jsonrpcCcCompResp : (maxsec tblIdx : Option ℤ) → CcEvents → Bool := CcEvents.done (· ≤ 0)

/-! ## Both protocols -/

/-- The protocol modules. -/
inductive CcProto where
  | myCc
  | jsonrpcCc
deriving DecidableEq, Repr

/-- A request as it arrives. -/
inductive CcInput where
  | myCc (now : ℤ) (buffer : String)
  | jsonrpcCc (now : ℤ) (method : String) (params : JsonParams)

/-- The module that a request is for. -/
def CcInput.proto : CcInput → CcProto
  | myCc .. => .myCc
  | jsonrpcCc .. => .jsonrpcCc

/-- The parser of the module. -/
def CcInput.parse : CcInput → CcParse
  | myCc now buffer => myCcParser now buffer
  | jsonrpcCc now method params => jsonrpcCcBuildCc now method params

/-- The reply of the module ends the request. -/
def CcProto.compAck : CcProto → (maxsec tblIdx : Option ℤ) → CcEvents → Bool
  | myCc => myCcCompAck
  | jsonrpcCc => jsonrpcCcCompResp

/-- No field of the request is missing.  `jsonrpc_cc` reads a missing parameter as empty. -/
def CcInput.IsComplete : CcInput → Prop
  | myCc _ buffer => MyCcComplete buffer
  | jsonrpcCc .. => True

/-- Only an incomplete request leaves objects behind. -/
theorem CcInput.parse_abandoned_iff (input : CcInput) :
    (∃ r, input.parse = .abandoned r) ↔ ¬ input.IsComplete := by
  cases input with
  | myCc now buffer => exact myCcParser_abandoned_iff
  | jsonrpcCc now method params =>
      simp only [parse, IsComplete, not_true, iff_false, not_exists, jsonrpcCcBuildCc]
      intro r
      split_ifs <;> simp

/-- A `cc_t` that the parser frees itself is of no event, so it has no record. -/
theorem CcInput.freed_unkn {input : CcInput} {r : CcRequest} (freed : input.parse = .freed r) :
    r.t = .unkn := by
  cases input with
  | myCc now buffer =>
      simp only [parse, myCcParser, myCcMaxsec, myCcTerm, myCcOther] at freed
      repeat' split at freed
      all_goals cases freed
      all_goals rfl
  | jsonrpcCc now method params =>
      simp only [parse, jsonrpcCcBuildCc] at freed
      split_ifs at freed
      cases freed
      rfl

end RateEngine
