import RateEngine.CallClients

/-!
# The client in PHP

`myCC_client` sends all the fields of a message and takes the third field of the reply.  Through the
protocol it asks the event manager itself, as far as it reads the reply.
-/

namespace RateEngine

/-! ## The client -/

/-- A text that a message carries: it is not empty, has no comma and fits in its array. -/
structure FieldText (size : ℕ) where
  text : ArrayText size
  nonempty : text.1 ≠ ""
  plain : ',' ∉ text.1.toList

/-- The calls of `myCC_client`; the seconds are those of a call that has ended. -/
inductive MyCcCommand where
  | status
  | maxsec (clg : FieldText ccClgLen) (cld : FieldText ccCldLen) (uuid : FieldText ccCallUidLen)
  | balance (clg : FieldText ccClgLen)
  | term (uuid : FieldText ccCallUidLen) (billsec duration : Fin (2 ^ 31))

namespace MyCcCommand

/-- `$comm`. -/
def comm : MyCcCommand → ArrayText myCcCommLen
  | status => ⟨"status", by decide⟩
  | maxsec .. => ⟨"maxsec", by decide⟩
  | balance .. => ⟨"balance", by decide⟩
  | term .. => ⟨"term", by decide⟩

/-- The fields behind the time. -/
def fields : MyCcCommand → List String
  | status => []
  | maxsec clg cld uuid => [clg.text.1, cld.text.1, uuid.text.1]
  | balance clg => [clg.text.1]
  | term uuid billsec duration =>
      ["nc", uuid.text.1, intText (billsec : ℕ), intText (duration : ℕ)]

/-- The record that the client means. -/
def record (now : ℤ) : MyCcCommand → CcRecord
  | status => .status
  | maxsec clg cld uuid => .maxsec ⟨clg.text, cld.text, uuid.text, now⟩
  | balance clg => .balance ⟨clg.text⟩
  | term uuid billsec duration => .term ⟨.normalClear, uuid.text, billsec, duration⟩

end MyCcCommand

/-- A use of `myCC_client` at the time `ts`: the connection to both addresses fails, or the message
arrives and the client receives the first characters of the reply. -/
structure MyCcUse where
  command : MyCcCommand
  ts : ℕ
  now : ℤ
  received : Option ℕ

namespace MyCcUse

/-- `$write_buf`, with `ID` and `$tid`. -/
def writeBuf (use : MyCcUse) : String :=
  ",".intercalate
    ("4" :: "1" :: use.command.comm.1 :: intText use.ts :: use.command.fields)

/-- The request that the client means. -/
def request (use : MyCcUse) : MyCcT where
  cdrServerId := 4
  transactionId := 1
  command := use.command.comm
  timestamp := use.ts
  ccPtr := use.command.record use.now

end MyCcUse

/-- What `myCC_client` returns. -/
inductive MyCcValue where
  | code (n : ℤ)
  | text (ret : String)
  | null
deriving DecidableEq

/-- The end of `myCC_client`, on `$arr[2]`. -/
def myCcClientReturn : Option String → MyCcValue
  | none => .null
  | some ret =>
      if ret = "ok" then .code 0
      else if ret = "nok" ∨ ret = "error" ∨ ret = "empty" then .code (-9)
      else .text ret

/-- `myCC_client` on what it has read; with nothing read it writes to the closed socket. -/
def myCcClientRead (readBuf : List Char) : MyCcValue :=
  if readBuf = [] then .code (-998)
  else myCcClientReturn (((readBuf.splitOn ',')[2]?).map String.ofList)

/-- `myCC_client`. -/
def myCcClient {σ : Type} (manager : CcEventManager σ) (s : σ) (use : MyCcUse) :
    Option (MyCcValue × σ) :=
  match use.received with
  | none => some (.code (-996), s)
  | some received =>
      (netWorkerReply manager use.now s use.writeBuf).map fun reply =>
        (myCcClientRead (reply.1.take (min received 256)), reply.2)

/-- Uses of the client one after the other. -/
def myCcClientRun {σ : Type} (manager : CcEventManager σ) :
    σ → List MyCcUse → Option (List MyCcValue × σ)
  | s, [] => some ([], s)
  | s, use :: uses =>
      (myCcClient manager s use).bind fun first =>
        (myCcClientRun manager first.2 uses).map fun rest => (first.1 :: rest.1, rest.2)

/-! ## The event manager behind the client -/

/-- What the client makes of a reply with these data: the front of the data and of the zeros behind
them. -/
def myCcClientAnswer (received : ℕ) (data : String) : MyCcValue :=
  if received = 0 then .code (-998)
  else if received < 4 then .null
  else
    myCcClientReturn (some (String.ofList
      ((data.toList ++ List.replicate (netBufSize - 4 - data.length) '\x00').take
        (min received 256 - 4))))

/-- A use of the client that asks the event manager itself. -/
def MyCcUse.managed {σ : Type} (manager : CcEventManager σ) (s : σ) (use : MyCcUse) :
    MyCcValue × σ :=
  match use.received with
  | none => (.code (-996), s)
  | some received =>
      let answer := manager s use.request
      (myCcClientAnswer received (myCcCompAckText answer.1.printed use.request.ccPtr), answer.2)

/-- Uses that ask the event manager itself, one after the other. -/
def managedRun {σ : Type} (manager : CcEventManager σ) : σ → List MyCcUse → List MyCcValue × σ
  | s, [] => ([], s)
  | s, use :: uses =>
      let first := use.managed manager s
      let rest := managedRun manager first.2 uses
      (first.1 :: rest.1, rest.2)

theorem strtok_intercalate {fields : List String} (some_field : fields ≠ [])
    (plain : ∀ field ∈ fields, field ≠ "" ∧ ',' ∉ field.toList) :
    strtok (",".intercalate fields) = fields := by
  have chars : (",".intercalate fields).toList = [','].intercalate (fields.map String.toList) := by
    simp
  have apart : ∀ part ∈ fields.map String.toList, ',' ∉ part := by
    intro part member
    obtain ⟨field, field_mem, rfl⟩ := List.mem_map.mp member
    exact (plain field field_mem).2
  have kept : (fields.map String.toList).filter (· ≠ []) = fields.map String.toList := by
    refine List.filter_eq_self.mpr fun part member => ?_
    obtain ⟨field, field_mem, rfl⟩ := List.mem_map.mp member
    simpa [String.toList_eq_nil_iff] using (plain field field_mem).1
  rw [strtok, chars, List.splitOn_intercalate ',' apart (by simpa using some_field), kept,
    List.map_map]
  simp

theorem MyCcCommand.comm_mem (command : MyCcCommand) : command.comm.1 ∈ myCcCommands := by
  cases command <;> simp [comm, myCcCommands]

namespace MyCcUse

variable (use : MyCcUse)

/-- Every field of a message is a token of it. -/
theorem strtok_writeBuf : strtok use.writeBuf =
    "4" :: "1" :: use.command.comm.1 :: intText use.ts :: use.command.fields := by
  refine strtok_intercalate (List.cons_ne_nil _ _) fun field member => ?_
  have number (n : ℤ) : intText n ≠ "" ∧ ',' ∉ (intText n).toList :=
    ⟨intText_ne_empty n, comma_notMem_intText n⟩
  have command : ∀ comm ∈ myCcCommands, comm ≠ "" ∧ ',' ∉ comm.toList := by decide
  simp only [List.mem_cons] at member
  rcases member with rfl | rfl | rfl | rfl | member
  · decide
  · decide
  · exact command _ use.command.comm_mem
  · exact number _
  · cases shown : use.command with
    | status => simp [shown, MyCcCommand.fields] at member
    | maxsec clg cld uuid =>
        simp only [shown, MyCcCommand.fields, List.mem_cons, List.not_mem_nil, or_false] at member
        rcases member with rfl | rfl | rfl
        · exact ⟨clg.nonempty, clg.plain⟩
        · exact ⟨cld.nonempty, cld.plain⟩
        · exact ⟨uuid.nonempty, uuid.plain⟩
    | balance clg =>
        simp only [shown, MyCcCommand.fields, List.mem_cons, List.not_mem_nil, or_false] at member
        exact member ▸ ⟨clg.nonempty, clg.plain⟩
    | term uuid billsec duration =>
        simp only [shown, MyCcCommand.fields, List.mem_cons, List.not_mem_nil, or_false] at member
        rcases member with rfl | rfl | rfl | rfl
        · decide
        · exact ⟨uuid.nonempty, uuid.plain⟩
        · exact number _
        · exact number _

theorem atoiUnsigned_intText (n : Fin (2 ^ 31)) : atoiUnsigned 32 (intText (n : ℕ)) = n := by
  have small := n.isLt
  rw [atoiUnsigned, atoi_intText]
  omega

/-- The fields of a message are read as the record that the client means. -/
theorem readRecord_fields (now : ℤ) (command : MyCcCommand) :
    readRecord now command.comm.1 command.fields = .ok (some (command.record now), []) := by
  cases command with
  | status => rfl
  | maxsec clg cld uuid =>
      exact readEvent_eq_ok.mpr ⟨_, readMaxsec_eq_ok.mpr ⟨rfl, rfl⟩, rfl⟩
  | balance clg => exact readEvent_eq_ok.mpr ⟨_, readBalance_eq_ok.mpr rfl, rfl⟩
  | term uuid billsec duration =>
      refine readEvent_eq_ok.mpr ⟨_, readTerm_eq_ok.mpr ⟨_, _, rfl, rfl, ?_⟩, rfl⟩
      rw [if_pos rfl]
      exact ⟨_, _, rfl, (atoiUnsigned_intText billsec).symm, (atoiUnsigned_intText duration).symm⟩

/-- The server makes of a message the request that the client means. -/
theorem myCcParse_writeBuf :
    ∃ read, myCcParse use.now use.writeBuf = .request use.request read := by
  have tokens := use.strtok_writeBuf
  have nonempty : use.writeBuf ≠ "" := by
    intro empty
    rw [empty] at tokens
    nomatch tokens
  have found : readMyCc use.now (strtok use.writeBuf) = .ok (some use.request, []) := by
    refine readMyCc_eq_ok.mpr ⟨_, _, use.command.comm, _, _, some (use.command.record use.now),
      tokens, readRecord_fields _ _, ?_⟩
    have ts : atoi (intText use.ts) = use.ts := atoi_intText _
    simp only [Option.map_some, requestOf, ts]
    rfl
  rw [myCcParse, if_neg nonempty, found]
  exact ⟨_, rfl⟩

/-- The reply to a message has its data behind the server and the transaction. -/
theorem myCcAck_request (data : String) : (myCcAck use.request data).toList =
    ['4', ',', '1', ','] ++ data.toList := by
  have server : (decimal ((4 % 2 ^ 16 : ℕ) : ℤ)).toList = ['4'] := by decide
  have transaction : (decimal (UInt32.ofNat 1).toInt32.toInt).toList = ['1'] := by decide
  change (decimal ((4 % 2 ^ 16 : ℕ) : ℤ) ++ "," ++ decimal (UInt32.ofNat 1).toInt32.toInt ++ "," ++
    data).toList = _
  simp only [String.toList_append, server, transaction]
  simp

end MyCcUse

/-- The client takes the data out of the front of a reply. -/
theorem myCcClientRead_reply {data reply : String} (plain : ',' ∉ data.toList)
    (shown : reply.toList = ['4', ',', '1', ','] ++ data.toList) (received : ℕ) :
    myCcClientRead ((replyBuffer reply).take (min received 256)) =
      myCcClientAnswer received data := by
  have length : reply.length = data.length + 4 := by
    rw [← String.length_toList, shown]
    simp only [List.length_append, List.length_cons, List.length_nil, String.length_toList]
    omega
  have zeros : netBufSize - reply.length = netBufSize - 4 - data.length := by omega
  rw [replyBuffer, shown, zeros, List.append_assoc, myCcClientAnswer]
  generalize tail_eq : data.toList ++ List.replicate _ _ = tail
  have tail_plain : ',' ∉ tail := by
    rw [← tail_eq]
    simpa using plain
  rcases Nat.lt_or_ge received 4 with cut | whole
  · rw [min_eq_left (by omega)]
    interval_cases received <;> rfl
  · obtain ⟨k, front⟩ : ∃ k, min received 256 = k + 4 := ⟨min received 256 - 4, by omega⟩
    have data_plain : ',' ∉ tail.take k := fun member => tail_plain (List.mem_of_mem_take member)
    have three : ('4' :: ',' :: '1' :: ',' :: tail.take k).splitOn ',' =
        [['4'], ['1'], tail.take k] := by
      have joined : '4' :: ',' :: '1' :: ',' :: tail.take k =
          [','].intercalate [['4'], ['1'], tail.take k] := by
        simp [List.intercalate]
      rw [joined, List.splitOn_intercalate ',' (by simpa using data_plain) (by simp)]
    rw [if_neg (by omega), if_neg (by omega), front, Nat.add_sub_cancel]
    simp only [List.cons_append, List.nil_append, List.take_succ_cons]
    rw [myCcClientRead, if_neg (List.cons_ne_nil _ _), three]
    rfl

/-! ## What the client is told -/

theorem length_intText_le (n : Int32) : (intText n.toInt).length ≤ 11 :=
  decimal_eq_intText n.toInt ▸ length_decimal_int32_le n

/-- The data of a reply are short and have no comma. -/
theorem myCcCompAckText_plain (answer : EventAnswer) (record : CcRecord) :
    ',' ∉ (myCcCompAckText answer.printed record).toList ∧
      (myCcCompAckText answer.printed record).length ≤ 11 := by
  have word : ∀ text ∈ ["ok", "nok", "0.000000"], ',' ∉ text.toList ∧ text.length ≤ 11 := by decide
  cases record with
  | maxsec =>
      rw [myCcCompAckText, decimal_eq_intText]
      exact ⟨comma_notMem_intText _, length_intText_le _⟩
  | term =>
      rw [myCcCompAckText]
      split
      · exact word "ok" (by decide)
      · exact word "nok" (by decide)
  | status | cprice => exact word "ok" (by decide)
  | balance | rate => exact word "0.000000" (by decide)

/-- A use of the client is a question to the event manager. -/
theorem myCcClient_eq {σ : Type} (manager : CcEventManager σ) (s : σ) (use : MyCcUse) :
    myCcClient manager s use = some (use.managed manager s) := by
  unfold myCcClient MyCcUse.managed
  cases use.received with
  | none => rfl
  | some received =>
      obtain ⟨read, parsed⟩ := use.myCcParse_writeBuf
      have nonempty : use.writeBuf ≠ "" := by
        intro empty
        rw [empty] at parsed
        nomatch parsed
      simp only [netWorkerReply, if_neg nonempty, myCcServe, parsed, Option.map_some]
      rw [myCcClientRead_reply (myCcCompAckText_plain _ _).1 (use.myCcAck_request _)]

/-- A whole reply is never one of the codes: the zeros behind the data are read, too. -/
theorem myCcClientAnswer_whole {received : ℕ} {data : String} (whole : 256 ≤ received)
    (short : data.length ≤ 11) :
    myCcClientAnswer received data =
      .text (String.ofList (data.toList ++ List.replicate (252 - data.length) '\x00')) := by
  have length : data.toList.length = data.length := String.length_toList
  have front : (data.toList ++ List.replicate (netBufSize - 4 - data.length) '\x00').take
      (min received 256 - 4) = data.toList ++ List.replicate (252 - data.length) '\x00' := by
    have many : 252 - data.length ≤ netBufSize - 4 - data.length := by
      rw [netBufSize]
      omega
    rw [min_eq_right whole, List.take_append, List.take_of_length_le (by omega),
      List.take_replicate, length, min_eq_left many]
  have zero : '\x00' ∈ (String.ofList
      (data.toList ++ List.replicate (252 - data.length) '\x00')).toList := by
    rw [String.toList_ofList]
    exact List.mem_append_right _ (List.mem_replicate.mpr ⟨by omega, rfl⟩)
  rw [myCcClientAnswer, if_neg (by omega), if_neg (by omega), front, myCcClientReturn]
  have code : ∀ text ∈ ["ok", "nok", "error", "empty"], '\x00' ∉ text.toList := by decide
  rw [if_neg, if_neg]
  · rintro (same | same | same) <;> exact code _ (by decide) (same ▸ zero)
  · exact fun same => code _ (by decide) (same ▸ zero)

end RateEngine
