import RateEngine.JsonrpcReply
import RateEngine.MyCcParser
import RateEngine.Lib.Buffer
import RateEngine.Lib.EachStep

/-!
# The buffer of a worker

A worker of `net_parallel_server` has one buffer for all its connections.  It clears the buffer
before each `recv`, which may fill all of it, and the handlers take what they find for a C string:
they measure it, clear it and write the reply in its place.
-/

namespace RateEngine

open Buffer

/-! ## Replies of `my_cc` -/

/-- `%d`. -/
def decimal (n : ℤ) : String := if n < 0 then "-" ++ n.natAbs.repr else n.natAbs.repr

/-- A text of `%f`: a double has 309 digits before the point at most, and six follow it. -/
abbrev FixedText := {text : String // text.length ≤ 317}

/-- The fields of a `cc_t` that the event manager sets and `my_cc_comp_ack` prints. -/
structure MyCcAnswer where
  maxsec : Int32
  amount : FixedText
  ratePrice : FixedText
  tblIdx : Int32

/-- The text of `my_cc_comp_ack`. -/
def myCcCompAckText (answer : MyCcAnswer) : CcRecord → String
  | .maxsec _ => decimal answer.maxsec.toInt
  | .balance _ => answer.amount.1
  | .rate _ => answer.ratePrice.1
  | .term _ => if 0 ≤ answer.tblIdx then "ok" else "nok"
  | .cprice _ | .status => "ok"

/-- The `ack` of `my_cc_ack`; its fields are an `unsigned short` and an `unsigned int`. -/
def myCcAck (my : MyCcT) (data : String) : String :=
  decimal (my.cdrServerId % 2 ^ 16 : ℕ) ++ "," ++
    decimal (UInt32.ofNat my.transactionId).toInt32.toInt ++ "," ++ data

/-! ## Handlers -/

/-- What a handler meets while it runs: whether the functions of call control can be bound, the
time, the answers of the event manager, and what a run goes on with after the parser has run over an
array or a pointer that was never set has been read. -/
structure CcContext where
  bound : Bool
  now : ℤ
  myAnswer : MyCcT → MyCcAnswer
  jsonAnswer : CcRequest → CcAnswer
  overrun : Option MyCcT
  unset : JsonrpcCcReply

/-- The text that `my_cc_proto_bind` writes into the buffer. -/
def myCcReply (context : CcContext) (readbuf : String) : String :=
  let my :=
    match myCcParse context.now readbuf with
    | .request my _ => some my
    | .refused _ => none
    | .overrun => context.overrun
  my.elim "error" fun my => myCcAck my (myCcCompAckText (context.myAnswer my) my.ccPtr)

/-- `my_cc_proto_bind`. -/
def myCcProtoBind (context : CcContext) (buf : List Char) : Option (List Char) :=
  if context.bound then do
    let length ← strlen '\x00' buf
    let readbuf := text '\x00' buf
    let buf ← memset '\x00' buf length
    storeAll buf 0 (myCcReply context (String.ofList readbuf)).toList
  else storeAll buf 0 "error".toList

/-- `JSONRPC_ERR_INTER`. -/
def jsonrpcErrInter : ℤ := -3

/-- What the reply of `jsonrpc_cc_proto_bind` is made from. -/
def jsonrpcCcReply (lib : JsonPrinter) (context : CcContext) (buf : List Char) :
    Option JsonrpcCcReply :=
  if context.bound then do
    let _ ← strlen '\x00' buf
    let msg := String.ofList (text '\x00' buf)
    return (jsonrpcCcProtoBind lib.toJsonLibrary context.now msg).getD context.unset
  else some (.refused jsonrpcErrInter 0)

/-- `jsonrpc_cc_proto_bind`. -/
def jsonrpcCcProtoBindBuf (lib : JsonPrinter) (context : CcContext) (buf : List Char) :
    Option (List Char) := do
  let reply ← jsonrpcCcReply lib context buf
  let resp := text '\x00' (lib.print (reply.obj context.jsonAnswer)).toList
  let length ← strlen '\x00' buf
  let buf ← memset '\x00' buf length
  strcpy '\x00' buf resp

/-- The handlers that `cc_server_proto_bind` finds. -/
inductive NetHandler where
  | myCc
  | jsonrpcCc (lib : JsonPrinter)

/-- The handler on the buffer. -/
def NetHandler.run : NetHandler → CcContext → List Char → Option (List Char)
  | myCc => myCcProtoBind
  | jsonrpcCc lib => jsonrpcCcProtoBindBuf lib

/-! ## The worker -/

/-- A connection: what the client sends, and how much of it has arrived when the
worker calls `recv`. -/
structure NetJob where
  sent : List Char
  arrived : ℕ
  context : CcContext

/-- `tcp_recv`: nothing for an error or a closed connection, and never more than fits. -/
def tcpRecv (bufSize : ℕ) (job : NetJob) : List Char := (job.sent.take job.arrived).take bufSize

/-- `memset` and `recv_msg` of `net_worker_thread`. -/
def netReceive (buf : List Char) (job : NetJob) : Option (List Char) := do
  let buf ← memset '\x00' buf netBufSize
  storeAll buf 0 (tcpRecv netBufSize job)

/-- A connection of `net_worker_thread`; nothing comes of an access outside the buffer. -/
def netWorkerJob (handler : NetHandler) (s : Option (List Char)) (job : NetJob) :
    Option (List Char) := do
  let buf ← s
  let buf ← netReceive buf job
  if tcpRecv netBufSize job = [] then return buf else handler.run job.context buf

/-- `buf` of `net_worker_thread` before the first connection. -/
def netWorkerBuffer : List Char := List.replicate netBufSize '\x00'

/-! ## What is asked of a worker -/

/-- The buffer of a handler has a terminator, has no characters besides those of the request, and
the handler stays inside. -/
def ServesString (handler : NetHandler) (s : Option (List Char)) (job : NetJob) : Prop :=
  let received := tcpRecv netBufSize job
  received ≠ [] → ∃ buf, (s.bind fun buf => netReceive buf job) = some buf ∧ '\x00' ∈ buf ∧
    buf = received ++ List.replicate (netBufSize - received.length) '\x00' ∧
      (handler.run job.context buf).isSome

/-- The chunk that `recv` gives leaves a byte of the buffer, or has a terminator itself. -/
def TerminatedChunk (job : NetJob) : Prop :=
  (tcpRecv netBufSize job).length < netBufSize ∨ '\x00' ∈ tcpRecv netBufSize job

/-! ## The length of a reply -/

theorem length_decimal_le {n : ℤ} {digits : ℕ} (positive : 0 < digits)
    (bound : n.natAbs < 10 ^ digits) : (decimal n).length ≤ digits + 1 := by
  have short := (Nat.length_repr_le_iff positive).mpr bound
  unfold decimal
  split
  · rw [String.length_append]
    change 1 + _ ≤ _
    omega
  · omega

theorem length_decimal_int32_le (n : Int32) : (decimal n.toInt).length ≤ 11 := by
  have low := n.le_toInt
  have high := n.toInt_lt
  exact length_decimal_le (by decide) (by omega)

/-- The text fits in the 512 bytes of `my_cc_comp_ack`. -/
theorem length_myCcCompAckText_le (answer : MyCcAnswer) (ccPtr : CcRecord) :
    (myCcCompAckText answer ccPtr).length ≤ 317 := by
  cases ccPtr with
  | maxsec => exact (length_decimal_int32_le answer.maxsec).trans (by decide)
  | balance => exact answer.amount.2
  | rate => exact answer.ratePrice.2
  | term =>
      rw [myCcCompAckText]
      split <;> decide
  | cprice | status => exact (by decide : "ok".length ≤ 317)

/-- The text fits in the 512 bytes of `my_cc_ack`. -/
theorem length_myCcAck_lt {my : MyCcT} {data : String} (short : data.length ≤ 317) :
    (myCcAck my data).length < 512 := by
  have server : (decimal (my.cdrServerId % 2 ^ 16 : ℕ)).length ≤ 6 :=
    length_decimal_le (by decide) (by omega)
  have transaction := length_decimal_int32_le (UInt32.ofNat my.transactionId).toInt32
  have separator : ",".length = 1 := rfl
  simp only [myCcAck, String.length_append, separator]
  omega

theorem length_myCcReply_lt (context : CcContext) (readbuf : String) :
    (myCcReply context readbuf).length < 512 := by
  unfold myCcReply
  cases (match myCcParse context.now readbuf with
    | .request my _ => some my
    | .refused _ => none
    | .overrun => context.overrun) with
  | none => exact (by decide : "error".length < 512)
  | some my => exact length_myCcAck_lt (length_myCcCompAckText_le _ _)

/-- The object of a reply needs little more room than its result or its error. -/
theorem room_reply_le {key : String} {members : List (String × Json)} (id : UInt32)
    (short : key.length ≤ 6) :
    (Json.obj [("jsonrpc", .str "2.0"), (key, .obj members), ("id", .int id.toInt32.toInt)]).room ≤
      Json.roomMembers members + 147 := by
  have number := Json.room_int32 id.toInt32
  simp only [Json.room, Json.roomMembers, Json.roomMember] at number ⊢
  have version : "2.0".length = 3 := rfl
  have jsonrpc : "jsonrpc".length = 7 := rfl
  have name : "id".length = 2 := rfl
  omega

theorem room_jsonRpcProtoErrInit_lt (error : ℤ) (id : UInt32) :
    (jsonRpcProtoErrInit error id).room < 512 := by
  obtain ⟨row, row_mem, same⟩ : ∃ row ∈ jsonrpcErrors, jsonRpcProtoErrInit error id =
      .obj [("jsonrpc", .str "2.0"), ("error", .obj (jsonExtPutStr "message" (.value row.errMsg)
        [("code", .int row.code.toInt)])), ("id", .int id.toInt32.toInt)] :=
    ⟨_, List.get_mem jsonrpcErrors (jsonRpcGetError error), rfl⟩
  have texts : ∀ row ∈ jsonrpcErrors, row.errMsg.length ≤ 26 := by decide
  have short := texts row row_mem
  have number := Json.room_int32 row.code
  have code : "code".length = 4 := rfl
  have message : "message".length = 7 := rfl
  have members : Json.roomMembers (jsonExtPutStr "message" (.value row.errMsg)
      [("code", .int row.code.toInt)]) ≤ 300 := by
    rw [jsonExtPutStr]
    split
    · simp only [Json.roomMembers, Json.roomMember]
      omega
    · have added : Json.add "message" (.str row.errMsg) [("code", .int row.code.toInt)] =
          [("code", .int row.code.toInt), ("message", .str row.errMsg)] := rfl
      rw [added]
      simp only [Json.roomMembers, Json.roomMember, Json.room] at number ⊢
      omega
  rw [same]
  exact (room_reply_le id (by decide)).trans_lt (by omega)

/-- A result has one member, with a short name. -/
theorem room_jsonRpcProtoRespInit_lt {arr : List JsonMember} {name : String} {value : Json}
    (written : jsonExtPutObj [] arr = [(name, value)]) (short : name.length ≤ 6)
    (small : value.room ≤ 32) (id : UInt32) : (jsonRpcProtoRespInit arr 0 id).room < 512 := by
  have same : jsonRpcProtoRespInit arr 0 id =
      .obj [("jsonrpc", .str "2.0"), ("result", .obj (jsonExtPutObj [] arr)),
        ("id", .int id.toInt32.toInt)] := rfl
  rw [same, written]
  refine (room_reply_le id (by decide)).trans_lt ?_
  simp only [Json.roomMembers, Json.roomMember]
  omega

theorem room_jsonrpcCcCompRespObj_lt (request : CcRequest) (answer : CcAnswer) (id : UInt32) :
    (jsonrpcCcCompRespObj request answer id).room < 512 := by
  have number : ∀ n : Int32, (Json.int n.toInt).room ≤ 32 :=
    fun n => (Json.room_int32 n).trans (by decide)
  unfold jsonrpcCcCompRespObj
  cases request.t with
  | maxsec => exact room_jsonRpcProtoRespInit_lt rfl (by decide) (number _) id
  | balance | rate | cprice => exact room_jsonRpcProtoRespInit_lt rfl (by decide) le_rfl id
  | term =>
      by_cases ended : request.term.isSome ∧ 0 ≤ answer.tblIdx
      · simp only [if_pos ended]
        exact room_jsonRpcProtoRespInit_lt rfl (by decide) (by decide) id
      · simp only [if_neg ended]
        exact room_jsonRpcProtoRespInit_lt rfl (by decide) (by decide) id
  | status => exact room_jsonRpcProtoRespInit_lt rfl (by decide) (by decide) id
  | unkn => exact room_jsonRpcProtoErrInit_lt _ id

/-- Every reply of `jsonrpc_cc` is short. -/
theorem length_print_obj_lt (lib : JsonPrinter) (eventM : CcRequest → CcAnswer)
    (reply : JsonrpcCcReply) : (lib.print (reply.obj eventM)).length < 512 := by
  refine (lib.print_le _).trans_lt ?_
  cases reply with
  | refused error id => exact room_jsonRpcProtoErrInit_lt error id
  | answered request id => exact room_jsonrpcCcCompRespObj_lt request _ id

/-! ## Handlers on a terminated buffer -/

variable {buf : List Char}

theorem myCcProtoBind_of_mem (context : CcContext) (size : buf.length = netBufSize)
    (ends : '\x00' ∈ buf) :
    ∃ after, myCcProtoBind context buf = some after ∧ after.length = netBufSize := by
  unfold myCcProtoBind
  split
  · let reply := myCcReply context (String.ofList (text '\x00' buf))
    obtain ⟨cleared, memset_eq, cleared_length⟩ := exists_memset '\x00' (length_text_le '\x00' buf)
    have short : reply.length < 512 := length_myCcReply_lt context _
    have fits : reply.toList.length ≤ cleared.length := by
      rw [String.length_toList, cleared_length, size, netBufSize]
      omega
    obtain ⟨after, store_eq, after_length⟩ := exists_storeAll_zero fits
    refine ⟨after, ?_, after_length.trans (cleared_length.trans size)⟩
    rw [strlen_of_mem '\x00' ends]
    simp only [Option.bind_eq_bind, Option.bind_some, memset_eq]
    exact store_eq
  · have fits : "error".toList.length ≤ buf.length := by
      rw [size]
      decide
    obtain ⟨after, store_eq, after_length⟩ := exists_storeAll_zero fits
    exact ⟨after, store_eq, after_length.trans size⟩

theorem jsonrpcCcProtoBindBuf_of_mem (lib : JsonPrinter) (context : CcContext)
    (size : buf.length = netBufSize) (ends : '\x00' ∈ buf) :
    ∃ after, jsonrpcCcProtoBindBuf lib context buf = some after ∧ after.length = netBufSize := by
  obtain ⟨reply, reply_eq⟩ : ∃ reply, jsonrpcCcReply lib context buf = some reply := by
    unfold jsonrpcCcReply
    split
    · rw [strlen_of_mem '\x00' ends]
      exact ⟨_, rfl⟩
    · exact ⟨_, rfl⟩
  let printed := (lib.print (reply.obj context.jsonAnswer)).toList
  obtain ⟨cleared, memset_eq, cleared_length⟩ := exists_memset '\x00' (length_text_le '\x00' buf)
  have short : printed.length < 512 := by
    rw [String.length_toList]
    exact length_print_obj_lt lib context.jsonAnswer reply
  have fits : (text '\x00' printed ++ ['\x00']).length ≤ cleared.length := by
    have part := length_text_le '\x00' printed
    rw [List.length_append, List.length_singleton, cleared_length, size, netBufSize]
    omega
  obtain ⟨after, store_eq, after_length⟩ := exists_storeAll_zero fits
  refine ⟨after, ?_, after_length.trans (cleared_length.trans size)⟩
  rw [jsonrpcCcProtoBindBuf, reply_eq, strlen_of_mem '\x00' ends]
  simp only [Option.bind_eq_bind, Option.bind_some, memset_eq]
  exact store_eq

/-- A handler that gets a terminator stays in the buffer. -/
theorem NetHandler.run_of_mem (handler : NetHandler) (context : CcContext)
    (size : buf.length = netBufSize) (ends : '\x00' ∈ buf) :
    ∃ after, handler.run context buf = some after ∧ after.length = netBufSize := by
  cases handler with
  | myCc => exact myCcProtoBind_of_mem context size ends
  | jsonrpcCc lib => exact jsonrpcCcProtoBindBuf_of_mem lib context size ends

/-! ## The connections of a worker -/

theorem length_tcpRecv_le (job : NetJob) : (tcpRecv netBufSize job).length ≤ netBufSize :=
  List.length_take_le _ _

/-- The buffer after `recv`: the bytes of the connection, and terminators up to its end. -/
def NetJob.buffer (job : NetJob) : List Char :=
  tcpRecv netBufSize job ++ List.replicate (netBufSize - (tcpRecv netBufSize job).length) '\x00'

theorem netReceive_eq (job : NetJob) (size : buf.length = netBufSize) :
    netReceive buf job = some job.buffer := by
  have fits := length_tcpRecv_le job
  rw [netReceive, ← size, memset_length, Option.bind_eq_bind, Option.bind_some, storeAll_zero, size,
    List.length_replicate, if_pos fits, List.drop_replicate, NetJob.buffer]

theorem NetJob.length_buffer (job : NetJob) : job.buffer.length = netBufSize := by
  have fits := length_tcpRecv_le job
  rw [buffer, List.length_append, List.length_replicate]
  omega

theorem NetJob.mem_buffer_iff {job : NetJob} : '\x00' ∈ job.buffer ↔ TerminatedChunk job := by
  rw [buffer, List.mem_append, List.mem_replicate, TerminatedChunk, Or.comm]
  refine or_congr_left ?_
  simp only [and_true]
  omega

/-- What a terminated connection leaves in the buffer is of its size. -/
theorem netWorkerJob_of_terminated (handler : NetHandler) {job : NetJob}
    (size : buf.length = netBufSize) (terminated : TerminatedChunk job) :
    ∃ after, netWorkerJob handler (some buf) job = some after ∧ after.length = netBufSize := by
  rw [netWorkerJob, Option.bind_eq_bind, Option.bind_some, netReceive_eq job size]
  simp only [Option.bind_some]
  split
  · exact ⟨job.buffer, rfl, job.length_buffer⟩
  · exact handler.run_of_mem job.context job.length_buffer (NetJob.mem_buffer_iff.mpr terminated)

/-- A connection is served as asked exactly when its chunk leaves room for a
terminator or has one. -/
theorem servesString_iff (handler : NetHandler) {job : NetJob} (size : buf.length = netBufSize) :
    ServesString handler (some buf) job ↔ TerminatedChunk job := by
  have seen : ((some buf).bind fun buf => netReceive buf job) = some job.buffer :=
    netReceive_eq job size
  constructor
  · intro serves
    by_cases none_received : tcpRecv netBufSize job = []
    · refine .inl ?_
      rw [none_received]
      decide
    · obtain ⟨found, found_eq, ends, -⟩ := serves none_received
      rw [seen] at found_eq
      cases found_eq
      exact NetJob.mem_buffer_iff.mp ends
  · intro terminated _
    have ends := NetJob.mem_buffer_iff.mpr terminated
    obtain ⟨after, runs, -⟩ := handler.run_of_mem job.context job.length_buffer ends
    exact ⟨job.buffer, seen, ends, rfl, Option.isSome_of_eq_some runs⟩

/-- Over all connections of a worker, its handler gets terminated strings and stays in the buffer
exactly when no `recv` fills the buffer without a terminator. -/
theorem netWorkerThread_iff (handler : NetHandler) (jobs : List NetJob) :
    EachStep (netWorkerJob handler) (ServesString handler) (some netWorkerBuffer) jobs ↔
      ∀ job ∈ jobs, TerminatedChunk job := by
  let sized (s : Option (List Char)) : Prop := ∃ buf, s = some buf ∧ buf.length = netBufSize
  have agree : ∀ {s job}, sized s → (ServesString handler s job ↔ TerminatedChunk job) := by
    rintro s job ⟨buf, rfl, size⟩
    exact servesString_iff handler size
  have kept : ∀ {s job}, sized s → ServesString handler s job →
      sized (netWorkerJob handler s job) := by
    rintro s job ⟨buf, rfl, size⟩ serves
    exact netWorkerJob_of_terminated handler size ((servesString_iff handler size).mp serves)
  have start : sized (some netWorkerBuffer) := ⟨_, rfl, List.length_replicate⟩
  exact (EachStep.congr sized agree kept start).trans EachStep.iff_forall_mem

/-- A request that fills the buffer. -/
def fullJob : NetJob where
  sent := List.replicate netBufSize '1'
  arrived := netBufSize
  context :=
    { bound := true, now := 0, myAnswer := fun _ => ⟨0, ⟨"", by decide⟩, ⟨"", by decide⟩, 0⟩,
      jsonAnswer := fun _ => ⟨0, 0, 0, 0, 0⟩, overrun := none, unset := .refused jsonrpcErrInter 0 }

theorem not_netWorkerThread : ¬ ∀ (handler : NetHandler) (jobs : List NetJob),
    EachStep (netWorkerJob handler) (ServesString handler) (some netWorkerBuffer) jobs := by
  intro served
  have received : tcpRecv netBufSize fullJob = List.replicate netBufSize '1' := by
    simp [tcpRecv, fullJob]
  have serves := served .myCc [fullJob] [] fullJob [] rfl
  rw [ServesString, received] at serves
  have nonempty : List.replicate netBufSize '1' ≠ [] :=
    List.ne_nil_of_length_pos (by rw [List.length_replicate]; decide)
  obtain ⟨buf, -, ends, rfl, -⟩ := serves nonempty
  rw [List.length_replicate, Nat.sub_self, List.replicate_zero, List.append_nil,
    List.mem_replicate] at ends
  exact absurd ends.2 (by decide)

end RateEngine
