import RateEngine.BilledTime
import RateEngine.WorkerBuffer

/-!
# The switch in front of the text protocol

`my_cc_proto_bind` answers a message with the server of the message, its transaction and what the
event manager made of it.  The application for the switch sends the message of an older protocol and
takes the number at the start of the reply.  This file puts it in front of the server, with an event
manager of any kind behind it.
-/

namespace RateEngine

/-! ## The server -/

/-- `%d`. -/
def intText (n : ℤ) : String := String.ofList (columnText n)

/-- What `cc_event_manager` writes into the record of an event. -/
structure EventAnswer where
  maxsec : Int32
  tblIdx : Int32

/-- `%f` of zero. -/
def zeroText : FixedText := ⟨"0.000000", by decide⟩

/-- The record as it is printed: the amount and the price are written nowhere. -/
def EventAnswer.printed (answer : EventAnswer) : MyCcAnswer :=
  ⟨answer.maxsec, zeroText, zeroText, answer.tblIdx⟩

/-- `cc_event_manager` on the state that it works on. -/
abbrev CcEventManager (σ : Type) := σ → MyCcT → EventAnswer × σ

/-- `my_cc_proto_bind` on a text: the reply; nothing when a copy of the parser runs over its
array. -/
def myCcServe {σ : Type} (manager : CcEventManager σ) (now : ℤ) (s : σ) (readbuf : String) :
    Option (String × σ) :=
  match myCcParse now readbuf with
  | .request my _ =>
      let managed := manager s my
      some (myCcAck my (myCcCompAckText managed.1.printed my.ccPtr), managed.2)
  | .refused _ => some ("error", s)
  | .overrun => none

/-- The buffer of a worker with a reply in it. -/
def replyBuffer (reply : String) : List Char :=
  reply.toList ++ List.replicate (netBufSize - reply.length) '\x00'

/-- `net_worker_thread` on a connection: what it sends for what it has received.  It sends its whole
buffer, and nothing for nothing. -/
def netWorkerReply {σ : Type} (manager : CcEventManager σ) (now : ℤ) (s : σ) (received : String) :
    Option (List Char × σ) :=
  if received = "" then some ([], s)
  else (myCcServe manager now s received).map fun reply => (replyBuffer reply.1, reply.2)

theorem decimal_eq_intText (n : ℤ) : decimal n = intText n := by
  unfold decimal intText columnText
  split
  · exact String.toList_inj.mp (by simp [Nat.repr])
  · rfl

/-- What the handler meets with this event manager behind it. -/
def CcContext.managed {σ : Type} (context : CcContext) (manager : CcEventManager σ) (now : ℤ)
    (s : σ) : CcContext :=
  { context with bound := true, now := now, myAnswer := fun my => (manager s my).1.printed }

/-- The reply is what `my_cc_proto_bind` leaves in the buffer of the worker. -/
theorem myCcProtoBind_of_serve {σ : Type} {manager : CcEventManager σ} {now : ℤ} {s s' : σ}
    {received reply : String} (context : CcContext) (plain : '\x00' ∉ received.toList)
    (fits : received.length < netBufSize)
    (served : myCcServe manager now s received = some (reply, s')) :
    myCcProtoBind (context.managed manager now s) (replyBuffer received) =
      some (replyBuffer reply) := by
  have written : myCcReply (context.managed manager now s) received = reply := by
    unfold myCcServe at served
    unfold myCcReply
    cases parsed : myCcParse now received with
    | overrun =>
        rw [parsed] at served
        nomatch served
    | refused left | request my left =>
        rw [parsed] at served
        have parsed' : myCcParse (context.managed manager now s).now received = _ := parsed
        rw [parsed']
        exact congrArg Prod.fst (Option.some.inj served)
  have short : reply.length < 512 := written ▸ length_myCcReply_lt _ received
  have full : (replyBuffer received).length = netBufSize := by
    rw [replyBuffer, List.length_append, String.length_toList, List.length_replicate]
    omega
  have holds : Buffer.Holds '\x00' netBufSize received.toList (replyBuffer received) := by
    refine ⟨full, plain, List.replicate (netBufSize - received.length - 1) '\x00', ?_⟩
    obtain ⟨k, room⟩ := Nat.exists_eq_add_of_lt fits
    rw [replyBuffer, ← List.replicate_succ]
    congr 2
    omega
  have cleared : Buffer.memset '\x00' (replyBuffer received) received.toList.length =
      some (List.replicate netBufSize '\x00') := by
    rw [Buffer.memset, Buffer.storeAll_zero, List.length_replicate, String.length_toList,
      if_pos (by omega), replyBuffer, List.drop_left' String.length_toList,
      List.replicate_append_replicate]
    congr 2
    omega
  have ends : '\x00' ∈ replyBuffer received := by
    obtain ⟨rest, split⟩ := holds.ends
    rw [split]
    exact List.mem_append_right _ List.mem_cons_self
  have bound : (context.managed manager now s).bound = true := rfl
  rw [myCcProtoBind, if_pos bound, Buffer.strlen_of_mem '\x00' ends, holds.text_eq]
  simp only [Option.bind_eq_bind, Option.bind_some, cleared, String.ofList_toList, written]
  rw [Buffer.storeAll_zero, List.length_replicate, String.length_toList,
    if_pos (short.le.trans (by decide)), List.drop_replicate, replyBuffer]

/-! ## The application for the switch -/

/-- `globals` of the application as far as a message has them. -/
structure CallControlGlobals where
  ccserverId : Int32
  command : String
  getUuidMode : Bool

/-- A connection of a client: it is not made, or the worker receives the first characters of the
message, and the client the first characters of the reply. -/
inductive Connection where
  | failed
  | up (sent received : ℕ)

/-- A call that comes to the application, with the time at the server. -/
structure SwitchCall where
  data : String
  uuid : Option String
  connection : Connection
  now : ℤ

/-- The message of `call_control_function`; `%s` of no text is `(null)`. -/
def callControlMessage (globals : CallControlGlobals) (call : SwitchCall) : String :=
  let uuid := if globals.getUuidMode then call.uuid else none
  ",".intercalate
    [intText globals.ccserverId.toInt, globals.command, call.data, uuid.getD "(null)"]

/-- The first characters of a text. -/
def firstChars (n : ℕ) (text : String) : String := String.ofList (text.toList.take n)

/-- `tcp_client` of the application, whose buffer has 256 characters. -/
def tcpClient {σ : Type} (manager : CcEventManager σ) (now : ℤ) (s : σ) (arg3 : String) :
    Connection → Option (ℤ × σ)
  | .failed => some (0, s)
  | .up sent received =>
      if 256 ≤ arg3.length then none
      else
        (netWorkerReply manager now s (firstChars sent arg3)).map fun reply =>
          (atoi (String.ofList (reply.1.take (min received 255))), reply.2)

/-- The seconds that `call_control_function` sets for a call; a call without seconds is hung up. -/
def callControlFunction {σ : Type} (globals : CallControlGlobals) (manager : CcEventManager σ)
    (s : σ) (call : SwitchCall) : Option (ℤ × σ) :=
  if call.data = "" then some (0, s)
  else if 512 ≤ (callControlMessage globals call).length then none
  else tcpClient manager call.now s (callControlMessage globals call) call.connection

/-- The calls one after the other, until a copy runs over its array. -/
def callControlRun {σ : Type} (globals : CallControlGlobals) (manager : CcEventManager σ) :
    σ → List SwitchCall → Option (List ℤ × σ)
  | s, [] => some ([], s)
  | s, call :: calls =>
      (callControlFunction globals manager s call).bind fun first =>
        (callControlRun globals manager first.2 calls).map fun rest =>
          (first.1 :: rest.1, rest.2)

/-- The seconds of a message that the worker has received, told by the message alone. -/
def messageSeconds (now : ℤ) (received : String) (n : ℕ) : Option ℤ :=
  if received = "" then some 0
  else
    match myCcParse now received with
    | .request my _ => some (atoi (firstChars n (intText (my.cdrServerId % 2 ^ 16 : ℕ))))
    | .refused _ => some 0
    | .overrun => none

/-- The seconds of a call, told by its message and its connection. -/
def callSeconds (globals : CallControlGlobals) (call : SwitchCall) : Option ℤ :=
  let message := callControlMessage globals call
  if call.data = "" then some 0
  else if 512 ≤ message.length then none
  else
    match call.connection with
    | .failed => some 0
    | .up sent received =>
        if 256 ≤ message.length then none
        else messageSeconds call.now (firstChars sent message) (min received 255)

/-! ## Numbers at the start of a reply -/

/-- What follows the digits does not matter, however many characters are read. -/
theorem leadingNat_take_append {digits : List Char} (all : ∀ c ∈ digits, c.isDigit)
    {rest : List Char} (stops : ∀ c ∈ rest.head?, c.isDigit = false) (n : ℕ) :
    leadingNat ((digits ++ rest).take n) = leadingNat (digits.take n) := by
  have taken : ((digits ++ rest).take n).takeWhile Char.isDigit =
      (digits.take n).takeWhile Char.isDigit := by
    have front : ∀ c ∈ digits.take n, c.isDigit :=
      fun c member => all c (List.mem_of_mem_take member)
    rw [List.take_append, List.takeWhile_append_of_pos front,
      List.takeWhile_eq_self_iff.mpr front]
    have none_left : (rest.take (n - digits.length)).takeWhile Char.isDigit = [] := by
      cases rest with
      | nil => simp
      | cons c rest =>
          cases n - digits.length with
          | zero => rfl
          | succ k => exact List.takeWhile_cons_of_neg (by simp [stops c rfl])
    rw [none_left, List.append_nil]
  rw [leadingNat, leadingNat, taken]

/-- A text that starts with neither a space nor a sign is read from its first character on. -/
theorem atoi_eq_leadingNat {chars : List Char}
    (start : ∀ c ∈ chars.head?, c.isWhitespace = false ∧ c ≠ '-' ∧ c ≠ '+') :
    atoi (String.ofList chars) = leadingNat chars := by
  cases chars with
  | nil => rfl
  | cons c rest =>
      obtain ⟨unspaced, minus, plus⟩ := start c rfl
      rw [atoi, String.toList_ofList, List.dropWhile_cons_of_neg (by simp [unspaced])]
      split
      · rename_i same
        exact absurd (List.cons.inj same).1 minus
      · rename_i same
        exact absurd (List.cons.inj same).1 plus
      · rfl

theorem columnText_natCast (n : ℕ) : columnText n = Nat.toDigits 10 n := by
  rw [columnText, if_neg (by omega), Int.natAbs_natCast]

theorem isDigit_columnText {n : ℕ} {c : Char} (member : c ∈ columnText n) : c.isDigit :=
  Nat.isDigit_of_mem_toDigits (by decide) (by decide) (columnText_natCast n ▸ member)

theorem isDigit_start {c : Char} (digit : c.isDigit) :
    c.isWhitespace = false ∧ c ≠ '-' ∧ c ≠ '+' := by
  refine ⟨?_, ?_, ?_⟩
  · by_contra space
    simp only [Char.isWhitespace, Char.isDigit, Bool.not_eq_false, Bool.or_eq_true,
      decide_eq_true_eq, Bool.and_eq_true] at space digit
    rcases space with ((rfl | rfl) | rfl) | rfl <;> exact absurd digit (by decide)
  · rintro rfl
    exact absurd digit (by decide)
  · rintro rfl
    exact absurd digit (by decide)

theorem atoi_take_columnText_append (number n : ℕ) {rest : List Char}
    (stops : ∀ c ∈ rest.head?, c.isDigit = false ∧ c.isWhitespace = false ∧ c ≠ '-' ∧ c ≠ '+') :
    atoi (String.ofList ((columnText number ++ rest).take n)) =
      atoi (firstChars n (intText number)) := by
  have digits : ∀ c ∈ columnText number, c.isDigit := fun c member => isDigit_columnText member
  have digits_start : ∀ c ∈ ((columnText number).take n).head?,
      c.isWhitespace = false ∧ c ≠ '-' ∧ c ≠ '+' := fun c first =>
    isDigit_start (digits c (List.mem_of_mem_take (List.mem_of_mem_head? first)))
  have start : ∀ c ∈ ((columnText number ++ rest).take n).head?,
      c.isWhitespace = false ∧ c ≠ '-' ∧ c ≠ '+' := by
    intro c first
    cases n with
    | zero => nomatch first
    | succ n =>
        rw [List.head?_take, if_neg (Nat.succ_ne_zero n)] at first
        cases shown : columnText number with
        | nil => exact (stops c (by simpa [shown] using first)).2
        | cons d more =>
            rw [shown] at first
            obtain rfl : d = c := Option.some.inj first
            exact isDigit_start (digits d (shown ▸ List.mem_cons_self))
  rw [firstChars, intText, String.toList_ofList, atoi_eq_leadingNat start,
    atoi_eq_leadingNat digits_start, leadingNat_take_append digits fun c first => (stops c first).1]

/-! ## The event manager is not asked -/

section Seconds

variable {σ : Type} {manager : CcEventManager σ} {now : ℤ} {s : σ}

/-- The reply of a request starts with its server. -/
theorem toList_myCcAck (my : MyCcT) (data : String) :
    ∃ rest : List Char, (myCcAck my data).toList =
      columnText (my.cdrServerId % 2 ^ 16 : ℕ) ++ ',' :: rest := by
  rw [myCcAck, decimal_eq_intText, decimal_eq_intText, intText]
  generalize my.cdrServerId % 2 ^ 16 = server
  generalize intText (UInt32.ofNat my.transactionId).toInt32.toInt = transaction
  exact ⟨transaction.toList ++ ',' :: data.toList, by simp⟩

/-- The start of a reply is the server of the message, whatever the event manager answers. -/
theorem atoi_replyBuffer_ack (my : MyCcT) (data : String) (n : ℕ) :
    atoi (String.ofList ((replyBuffer (myCcAck my data)).take n)) =
      atoi (firstChars n (intText (my.cdrServerId % 2 ^ 16 : ℕ))) := by
  obtain ⟨rest, ack⟩ := toList_myCcAck my data
  rw [replyBuffer, ack, List.append_assoc, List.cons_append]
  generalize my.cdrServerId % 2 ^ 16 = server
  refine atoi_take_columnText_append server n fun c first => ?_
  obtain rfl : ',' = c := Option.some.inj first
  decide

/-- A text that starts with no number is read as zero. -/
theorem atoi_take_of_start {c : Char}
    (start : c.isDigit = false ∧ c.isWhitespace = false ∧ c ≠ '-' ∧ c ≠ '+') (rest : List Char)
    (n : ℕ) : atoi (String.ofList ((c :: rest).take n)) = 0 := by
  cases n with
  | zero => rfl
  | succ n =>
      rw [List.take_succ_cons, atoi_eq_leadingNat (by simpa using start.2), leadingNat,
        List.takeWhile_cons_of_neg (by simp [start.1])]
      rfl

theorem atoi_replyBuffer_error (n : ℕ) :
    atoi (String.ofList ((replyBuffer "error").take n)) = 0 := by
  have letters : "error".toList = 'e' :: "rror".toList := rfl
  rw [replyBuffer, letters]
  exact atoi_take_of_start (by decide) _ n

theorem netWorkerReply_seconds (received : String) (n : ℕ) :
    (netWorkerReply manager now s received).map
        (fun reply => atoi (String.ofList (reply.1.take n))) =
      messageSeconds now received n := by
  unfold netWorkerReply messageSeconds
  by_cases empty : received = ""
  · simp [empty]
    rfl
  rw [if_neg empty, if_neg empty, myCcServe]
  cases myCcParse now received with
  | request my read =>
      exact congrArg some (atoi_replyBuffer_ack my _ n)
  | refused left => exact congrArg some (atoi_replyBuffer_error n)
  | overrun => rfl

theorem callControlFunction_seconds (globals : CallControlGlobals) (call : SwitchCall) :
    (callControlFunction globals manager s call).map Prod.fst = callSeconds globals call := by
  unfold callControlFunction callSeconds
  by_cases empty : call.data = ""
  · simp [empty]
  rw [if_neg empty]
  simp only [empty, if_false]
  by_cases long : 512 ≤ (callControlMessage globals call).length
  · simp [long]
  rw [if_neg long, if_neg long]
  cases call.connection with
  | failed => rfl
  | up sent received =>
      rw [tcpClient]
      by_cases long : 256 ≤ (callControlMessage globals call).length
      · simp [long]
      · simp only [long, if_false, Option.map_map]
        exact netWorkerReply_seconds _ _

/-- The seconds of a run are those of its calls, each by itself. -/
theorem callControlRun_seconds (globals : CallControlGlobals) (calls : List SwitchCall) :
    (callControlRun globals manager s calls).map Prod.fst = calls.mapM (callSeconds globals) := by
  induction calls generalizing s with
  | nil => rfl
  | cons call calls ih =>
      have first : (callControlFunction globals manager s call).map Prod.fst = _ :=
        callControlFunction_seconds globals call
      rw [List.mapM_cons, ← first, callControlRun]
      cases callControlFunction globals manager s call with
      | none => rfl
      | some reply =>
          simp only [Option.bind_some, Option.map_some, Option.map_map]
          rw [← ih (s := reply.2)]
          cases callControlRun globals manager reply.2 calls <;> rfl

end Seconds

/-! ## The tokens of a message that arrives in part -/

theorem strtok_cons {field : String} (nonempty : field ≠ "") (plain : ',' ∉ field.toList)
    (rest : String) : strtok (field ++ "," ++ rest) = field :: strtok rest := by
  have chars : (field ++ "," ++ rest).toList = field.toList ++ ',' :: rest.toList := by simp
  have kept : field.toList ≠ [] := by simpa [String.toList_eq_nil_iff] using nonempty
  rw [strtok, chars, List.splitOn_append_cons_self_of_not_mem plain,
    List.filter_cons_of_pos (by simpa using kept), List.map_cons, String.ofList_toList]
  rfl

/-- Two tokens of the front of a message: the first field has arrived whole. -/
theorem strtok_firstChars {field rest first second : String} {more : List String} {n : ℕ}
    (nonempty : field ≠ "") (plain : ',' ∉ field.toList)
    (tokens : strtok (firstChars n (field ++ "," ++ rest)) = first :: second :: more) :
    first = field ∧ ∃ k, strtok (firstChars k rest) = second :: more := by
  have chars : (field ++ "," ++ rest).toList = field.toList ++ ',' :: rest.toList := by simp
  rcases Nat.lt_or_ge field.toList.length n with whole | cut
  · obtain ⟨k, rfl⟩ := Nat.exists_eq_add_of_lt whole
    have front : firstChars (field.toList.length + k + 1) (field ++ "," ++ rest) =
        field ++ "," ++ firstChars k rest := by
      rw [firstChars, chars, List.take_append, List.take_of_length_le (by omega),
        show field.toList.length + k + 1 - field.toList.length = k + 1 by omega,
        List.take_succ_cons]
      apply String.toList_inj.mp
      simp [firstChars]
    rw [front, strtok_cons nonempty plain] at tokens
    obtain ⟨rfl, others⟩ := List.cons.inj tokens
    exact ⟨rfl, k, others⟩
  · have front : firstChars n (field ++ "," ++ rest) = String.ofList (field.toList.take n) := by
      rw [firstChars, chars, List.take_append_of_le_length cut]
    have no_comma : ',' ∉ field.toList.take n := fun member => plain (List.mem_of_mem_take member)
    rw [front, strtok, String.toList_ofList, List.splitOn_eq_singleton no_comma] at tokens
    have short := congrArg List.length tokens
    have most := List.length_filter_le (fun chars => decide (chars ≠ [])) [field.toList.take n]
    simp only [List.length_map, List.length_cons, List.length_nil] at short most
    omega

/-- A token at the start of a text starts with its first character. -/
theorem head_strtok {c : Char} {chars : List Char} (plain : c ≠ ',') {token : String}
    {more : List String} (tokens : strtok (String.ofList (c :: chars)) = token :: more) :
    token.toList.head? = some c := by
  rw [strtok, String.toList_ofList, List.splitOn_cons_eq_if_modifyHead,
    if_neg (by simpa using plain)] at tokens
  cases parts : chars.splitOn ',' with
  | nil => exact absurd parts (List.splitOn_ne_nil _ _)
  | cons part parts' =>
      rw [parts, List.modifyHead_cons, List.filter_cons_of_pos (by simp), List.map_cons] at tokens
      rw [← (List.cons.inj tokens).1, String.toList_ofList]
      rfl

/-! ## What the switch is told -/

theorem intText_ne_empty (n : ℤ) : intText n ≠ "" := by
  rw [intText, Ne, String.ofList_eq_empty_iff, columnText]
  split
  · exact List.cons_ne_nil _ _
  · exact Nat.toDigits_ne_nil

theorem comma_notMem_intText (n : ℤ) : ',' ∉ (intText n).toList := by
  have digits : ',' ∉ Nat.toDigits 10 n.natAbs := fun member =>
    absurd (Nat.isDigit_of_mem_toDigits (by decide) (by decide) member) (by decide)
  rw [intText, String.toList_ofList, columnText]
  split
  · simpa using digits
  · exact digits

theorem atoi_intText (n : ℤ) : atoi (intText n) = n := atoi_columnText n

/-- A request comes from four tokens and those of its record. -/
theorem myCcParse_request {now : ℤ} {buffer : String} {my : MyCcT} {read : List String}
    (parsed : myCcParse now buffer = .request my read) :
    ∃ server transaction, ∃ command : ArrayText myCcCommLen, ∃ timestamp fields record rest,
      strtok buffer = server :: transaction :: command.1 :: timestamp :: fields ∧
        readRecord now command fields = .ok (some record, rest) ∧
          my = requestOf server transaction command timestamp record := by
  unfold myCcParse at parsed
  split_ifs at parsed
  cases found : readMyCc now (strtok buffer) with
  | error stop => cases stop <;> simp [found] at parsed
  | ok result =>
      obtain ⟨my', rest⟩ := result
      obtain ⟨server, transaction, command, timestamp, fields, record, split, read, rfl⟩ :=
        readMyCc_eq_ok.mp found
      cases record with
      | none => simp [found] at parsed
      | some record =>
          rw [found] at parsed
          obtain ⟨rfl, -⟩ := MyCcParse.request.inj parsed
          exact ⟨server, transaction, command, timestamp, fields, record, rest, split, read, rfl⟩

theorem callControlMessage_eq (globals : CallControlGlobals) (call : SwitchCall) :
    ∃ uuid, callControlMessage globals call =
      intText globals.ccserverId.toInt ++ "," ++
        (globals.command ++ "," ++ (call.data ++ "," ++ uuid)) := by
  refine ⟨(if globals.getUuidMode then call.uuid else none).getD "(null)", ?_⟩
  apply String.toList_inj.mp
  simp [callControlMessage]

section Message

variable {globals : CallControlGlobals} {call : SwitchCall} {sent : ℕ} {my : MyCcT}
  {read : List String}

/-- A request that the worker makes of a message of the switch names the server of the switch. -/
theorem cdrServerId_of_message
    (parsed : myCcParse call.now (firstChars sent (callControlMessage globals call)) =
      .request my read) :
    ((my.cdrServerId % 2 ^ 16 : ℕ) : ℤ) = globals.ccserverId.toInt % 2 ^ 16 := by
  obtain ⟨server, transaction, command, timestamp, fields, record, rest, tokens, -, rfl⟩ :=
    myCcParse_request parsed
  obtain ⟨uuid, message⟩ := callControlMessage_eq globals call
  rw [message] at tokens
  obtain ⟨rfl, -⟩ := strtok_firstChars (intText_ne_empty _) (comma_notMem_intText _) tokens
  change ((atoiUnsigned 16 (intText globals.ccserverId.toInt) % 2 ^ 16 : ℕ) : ℤ) = _
  rw [atoiUnsigned, atoi_intText]
  omega

/-- The third token of a message is of the data of the call, behind a command of one word. -/
theorem command_of_message (nonempty : globals.command ≠ "") (plain : ',' ∉ globals.command.toList)
    (parsed : myCcParse call.now (firstChars sent (callControlMessage globals call)) =
      .request my read) {c : Char} (starts : call.data.toList.head? = some c) (letter : c ≠ ',') :
    my.command.1.toList.head? = some c ∧ my.command.1 ∈ myCcCommands := by
  obtain ⟨server, transaction, command, timestamp, fields, record, rest, tokens, found, rfl⟩ :=
    myCcParse_request parsed
  obtain ⟨uuid, message⟩ := callControlMessage_eq globals call
  rw [message] at tokens
  obtain ⟨-, k, tokens⟩ := strtok_firstChars (intText_ne_empty _) (comma_notMem_intText _) tokens
  obtain ⟨-, k, tokens⟩ := strtok_firstChars nonempty plain tokens
  refine ⟨?_, (readRecord_eq_some found).fields.1⟩
  obtain ⟨chars, shown⟩ : ∃ chars, (call.data ++ "," ++ uuid).toList = c :: chars := by
    obtain ⟨chars, shown⟩ := List.head?_eq_some_iff.mp starts
    exact ⟨chars ++ ',' :: uuid.toList, by simp [shown]⟩
  rw [firstChars, shown] at tokens
  cases k with
  | zero => nomatch tokens
  | succ k => exact head_strtok letter (List.take_succ_cons ▸ tokens)

/-- A call gets seconds only when the worker makes a request of its message. -/
theorem callSeconds_some {maxsec : ℤ} (told : callSeconds globals call = some maxsec) :
    maxsec = 0 ∨ ∃ sent n my read,
      myCcParse call.now (firstChars sent (callControlMessage globals call)) = .request my read ∧
        maxsec = atoi (firstChars n (intText (my.cdrServerId % 2 ^ 16 : ℕ))) := by
  have nothing {x : ℤ} (told : some 0 = some x) : x = 0 := (Option.some.inj told).symm
  simp only [callSeconds] at told
  split at told
  · exact .inl (nothing told)
  split at told
  · nomatch told
  split at told
  · exact .inl (nothing told)
  split at told
  · nomatch told
  rw [messageSeconds] at told
  split at told
  · exact .inl (nothing told)
  split at told
  · rename_i parsed
    exact .inr ⟨_, _, _, _, parsed, (Option.some.inj told).symm⟩
  · exact .inl (nothing told)
  · nomatch told

/-- The seconds of a call are read off the number of the call server, or none. -/
theorem callSeconds_eq {maxsec : ℤ} (told : callSeconds globals call = some maxsec) :
    ∃ n, maxsec = atoi (firstChars n (intText (globals.ccserverId.toInt % 2 ^ 16))) := by
  obtain rfl | ⟨sent, n, my, read, parsed, rfl⟩ := callSeconds_some told
  · exact ⟨0, rfl⟩
  · exact ⟨n, by rw [cdrServerId_of_message parsed]⟩

/-- A call whose data starts with a digit gets no seconds behind a command of one word. -/
theorem callSeconds_eq_zero (nonempty : globals.command ≠ "")
    (plain : ',' ∉ globals.command.toList) {c : Char} (starts : call.data.toList.head? = some c)
    (digit : c.isDigit) {maxsec : ℤ} (told : callSeconds globals call = some maxsec) :
    maxsec = 0 := by
  obtain rfl | ⟨sent, n, my, read, parsed, rfl⟩ := callSeconds_some told
  · rfl
  have letter : c ≠ ',' := by
    rintro rfl
    exact absurd digit (by decide)
  obtain ⟨first, known⟩ := command_of_message nonempty plain parsed starts letter
  exfalso
  simp only [myCcCommands, List.mem_cons, List.not_mem_nil, or_false] at known
  rcases known with known | known | known | known | known | known <;> rw [known] at first <;>
    exact absurd (Option.some.inj first ▸ digit) (by decide)

end Message

theorem exists_of_mem_mapM {α β : Type} {f : α → Option β} {l : List α} {found : List β}
    (all : l.mapM f = some found) {b : β} (member : b ∈ found) : ∃ a ∈ l, f a = some b := by
  induction l generalizing found with
  | nil =>
      obtain rfl : [] = found := Option.some.inj all
      nomatch member
  | cons a l ih =>
      rw [List.mapM_cons] at all
      obtain ⟨first, first_eq, all⟩ := Option.bind_eq_some_iff.mp all
      obtain ⟨rest, rest_eq, all⟩ := Option.bind_eq_some_iff.mp all
      obtain rfl : first :: rest = found := Option.some.inj all
      rcases List.mem_cons.mp member with rfl | later
      · exact ⟨a, List.mem_cons_self, first_eq⟩
      · obtain ⟨a', a'_mem, found⟩ := ih rest_eq later
        exact ⟨a', List.mem_cons_of_mem _ a'_mem, found⟩

/-- What the switch is told does not depend on the event manager at all: every call gets the front
of the number of the call server, or no second.  With a command of one word and data that start with
a digit, every call is hung up. -/
theorem callControl_ignores_manager {σ τ : Type} (globals : CallControlGlobals)
    (manager : CcEventManager σ) (other : CcEventManager τ) (s : σ) (t : τ)
    (calls : List SwitchCall) :
    (callControlRun globals manager s calls).map Prod.fst =
        (callControlRun globals other t calls).map Prod.fst ∧
      ∀ results ∈ (callControlRun globals manager s calls).map Prod.fst,
        (∀ maxsec ∈ results, ∃ n,
          maxsec = atoi (firstChars n (intText (globals.ccserverId.toInt % 2 ^ 16)))) ∧
        (globals.command ≠ "" ∧ ',' ∉ globals.command.toList ∧
            (∀ call ∈ calls, ∃ c ∈ call.data.toList.head?, c.isDigit) →
          ∀ maxsec ∈ results, maxsec = 0) := by
  rw [callControlRun_seconds, callControlRun_seconds]
  refine ⟨rfl, fun results told => ?_⟩
  have each : ∀ maxsec ∈ results, ∃ call ∈ calls, callSeconds globals call = some maxsec :=
    fun maxsec member => exists_of_mem_mapM told member
  refine ⟨fun maxsec member => ?_, ?_⟩
  · obtain ⟨call, -, told⟩ := each maxsec member
    exact callSeconds_eq told
  · rintro ⟨nonempty, plain, digits⟩ maxsec member
    obtain ⟨call, call_mem, told⟩ := each maxsec member
    obtain ⟨c, starts, digit⟩ := digits call call_mem
    exact callSeconds_eq_zero nonempty plain starts digit told

end RateEngine
