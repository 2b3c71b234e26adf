import RateEngine.JsonrpcCc

/-!
# JSON-RPC replies of call control

`jsonrpc_cc` turns the code of `json_rpc_proto_get` into an error of the protocol by a linear search
in a table, and the `cc_t` that the event manager has answered into a result.  This file follows the
reply up to the object that is printed and states which messages get which reply, and with which
identifier.
-/

namespace RateEngine

/-! ## Errors -/

/-- `jsonrpc_errors_t`: the internal error and the code and text of the protocol. -/
structure JsonrpcErrors where
  error : ℤ
  code : Int32
  errMsg : String
deriving DecidableEq

/-- `jsonrpc_errors`. -/
def jsonrpcErrors : List JsonrpcErrors :=
  [⟨-2, -32700, "Parse error"⟩, ⟨jsonrpcObjErr, -32700, "Parse error"⟩,
    ⟨-20, -32600, "Invalid Request"⟩, ⟨jsonrpcValidErrId, -32600, "Invalid Request"⟩,
    ⟨jsonrpcValidErrVer, -32600, "Invalid Request"⟩,
    ⟨jsonrpcValidErrMet, -32601, "Method not found"⟩,
    ⟨jsonrpcValidInvalid, -32602, "Invalid params"⟩,
    ⟨jsonrpcParamsInvalid, -32602, "Invalid params"⟩, ⟨-3, -32603, "Internal error"⟩,
    ⟨-4, -32000, "Server error"⟩, ⟨-6, -32001, "Transaction object is NULL"⟩,
    ⟨-7, -32002, "No exist transaction"⟩, ⟨-5, -32099, ""⟩]

/-- `json_rpc_get_error`: the index of the row of an error, and that of the first row for an error
without one. -/
def jsonRpcGetError (error : ℤ) : Fin jsonrpcErrors.length :=
  if error < 0 then (jsonrpcErrors.findFinIdx? fun row => error = row.error).getD ⟨0, by decide⟩
  else ⟨0, by decide⟩

/-! ## Templates of a reply -/

/-- `jsonrpc_proto_resp`. -/
def jsonrpcProtoResp : List JsonMember :=
  [.scalar .str "jsonrpc" .null, .obj "result" none, .scalar .uint "id" .null]

/-- `jsonrpc_proto_err`. -/
def jsonrpcProtoErr : List JsonMember :=
  [.scalar .str "jsonrpc" .null, .obj "error" none, .scalar .uint "id" .null]

/-- `jsonrpc_err_msg`. -/
def jsonrpcErrMsg : List JsonMember := [.scalar .int "code" .null, .scalar .str "message" .null]

/-- `json_rpc_proto_resp_init`, up to the text of the object. -/
def jsonRpcProtoRespInit (arr : List JsonMember) (numArr : ℕ) (id : UInt32) : Json :=
  let new := jsonExtNewObj jsonrpcProtoResp
  let new := jsonExtInitValue "jsonrpc" (.scalar .str "2.0") 0 new
  let new := jsonExtInitValue "result" (.obj arr) numArr new
  let new := jsonExtInitValue "id" (.scalar .uint id) 0 new
  .obj (jsonExtPutObj [] new)

/-- `json_rpc_proto_err_init`, up to the text of the object. -/
def jsonRpcProtoErrInit (error : ℤ) (id : UInt32) : Json :=
  let row := jsonrpcErrors.get (jsonRpcGetError error)
  let errMsg := jsonExtNewObj jsonrpcErrMsg
  let errMsg := jsonExtInitValue "code" (.scalar .int row.code) 0 errMsg
  let errMsg := jsonExtInitValue "message" (.scalar .str row.errMsg) 0 errMsg
  let new := jsonExtNewObj jsonrpcProtoErr
  let new := jsonExtInitValue "jsonrpc" (.scalar .str "2.0") 0 new
  let new := jsonExtInitValue "error" (.obj errMsg) 1 new
  let new := jsonExtInitValue "id" (.scalar .uint id) 0 new
  .obj (jsonExtPutObj [] new)

/-! ## Results of call control -/

/-- `maxsec_result`. -/
def maxsecResult : List JsonMember := [.scalar .int "maxsec" .null]

/-- `balance_result`. -/
def balanceResult : List JsonMember := [.scalar .double "amount" .null]

/-- `rate_result`. -/
def rateResult : List JsonMember := [.scalar .double "amount" .null]

/-- `cprice_result`. -/
def cpriceResult : List JsonMember := [.scalar .double "amount" .null]

/-- `term_result`. -/
def termResult : List JsonMember := [.scalar .str "status" .null]

/-- `state_result`. -/
def stateResult : List JsonMember := [.scalar .str "status" .null]

/-- `JSONRPC_CC_ERR_MAX_NUL`. -/
def jsonrpcCcErrMaxNul : Int32 := -51

/-- `JSONRPC_CC_ERR_EVENT_UNKN`. -/
def jsonrpcCcErrEventUnkn : ℤ := -59

/-- The fields of a `cc_t` that the event manager sets and a reply reads. -/
structure CcAnswer where
  maxsec : Int32
  amount : ℚ
  ratePrice : ℚ
  cprice : ℚ
  tblIdx : Int32

/-- `jsonrpc_cc_comp_resp`, up to the text of the object. -/
def jsonrpcCcCompRespObj (request : CcRequest) (answer : CcAnswer) (id : UInt32) : Json :=
  match request.t with
  | .maxsec =>
      let mx := if request.max.isSome then answer.maxsec else jsonrpcCcErrMaxNul
      let res := jsonExtInitValue "maxsec" (.scalar .int mx) 0 (jsonExtNewObj maxsecResult)
      jsonRpcProtoRespInit res 0 id
  | .balance =>
      let res := jsonExtInitValue "amount" (.scalar .double answer.amount) 0
        (jsonExtNewObj balanceResult)
      jsonRpcProtoRespInit res 0 id
  | .rate =>
      let res := jsonExtInitValue "amount" (.scalar .double answer.ratePrice) 0
        (jsonExtNewObj rateResult)
      jsonRpcProtoRespInit res 0 id
  | .cprice =>
      let res := jsonExtInitValue "amount" (.scalar .double answer.cprice) 0
        (jsonExtNewObj cpriceResult)
      jsonRpcProtoRespInit res 0 id
  | .term =>
      let status := if request.term.isSome ∧ 0 ≤ answer.tblIdx then "ok" else "nok"
      let res := jsonExtInitValue "status" (.scalar .str status) 0 (jsonExtNewObj termResult)
      jsonRpcProtoRespInit res 0 id
  | .status =>
      let res := jsonExtInitValue "status" (.scalar .str "idle") 0 (jsonExtNewObj stateResult)
      jsonRpcProtoRespInit res 0 id
  | .unkn => jsonRpcProtoErrInit jsonrpcCcErrEventUnkn id

/-- The object of a reply. -/
def JsonrpcCcReply.obj (eventM : CcRequest → CcAnswer) : JsonrpcCcReply → Json
  | refused error id => jsonRpcProtoErrInit error id
  | answered request id => jsonrpcCcCompRespObj request (eventM request) id

/-- `jsonrpc_cc_proto_bind` up to the text of the object, for any event manager. -/
def jsonrpcCcProtoBindObj (lib : JsonLibrary) (eventM : CcRequest → CcAnswer) (now : ℤ)
    (buf : String) : Option Json :=
  (jsonrpcCcProtoBind lib now buf).map (JsonrpcCcReply.obj eventM)

/-! ## Verdicts -/

/-- What a reply says: an error of the protocol, or a result. -/
inductive JsonrpcVerdict where
  | error (code : Int32)
  | result
deriving DecidableEq

/-- The reply is of version 2.0 and carries the identifier and either an error with its code or a
result with one member. -/
def JsonrpcVerdict.IsReply (verdict : JsonrpcVerdict) (id : Int32) (reply : Json) : Prop :=
  reply.get? "jsonrpc" = some (.str "2.0") ∧ reply.get? "id" = some (jsonObjectNewInt id) ∧
    match verdict with
    | error code =>
        reply.get? "result" = none ∧
          ∃ err, reply.get? "error" = some err ∧ err.get? "code" = some (jsonObjectNewInt code)
    | result =>
        reply.get? "error" = none ∧
          ∃ name value, reply.get? "result" = some (.obj [(name, value)])

/-- The verdict on a message and the identifier of its reply: only a request with a method is
answered with a result, and only then the identifier has been read. -/
def jsonrpcVerdict (lib : JsonLibrary) (buf : String) : JsonrpcVerdict × Int32 :=
  match lib.parse buf with
  | none => (.error (-32700), 0)
  | some jobj =>
      match jobj.get? "jsonrpc" with
      | none => (.error (-32700), 0)
      | some version =>
          if lib.getString version ≠ "2.0" then (.error (-32600), 0)
          else
            match jobj.get? "method" with
            | none => (.error (-32602), 0)
            | some _ => (.result, (jobj.get? "id").elim 0 lib.getInt)

/-! ## The table of errors -/

/-- The search finds every row of the table. -/
theorem get_jsonRpcGetError :
    ∀ row ∈ jsonrpcErrors, jsonrpcErrors.get (jsonRpcGetError row.error) = row := by
  decide

/-- An error that is not in the table is reported as a text that is no JSON. -/
theorem code_of_unlisted {error : ℤ} (unlisted : ∀ row ∈ jsonrpcErrors, row.error ≠ error) :
    (jsonrpcErrors.get (jsonRpcGetError error)).code = -32700 := by
  have none_found : (jsonrpcErrors.findFinIdx? fun row => error = row.error) = none := by
    rw [List.findFinIdx?_eq_none_iff]
    intro row listed
    simpa using (unlisted row listed).symm
  have first : jsonRpcGetError error = ⟨0, by decide⟩ := by
    rw [jsonRpcGetError, none_found, Option.getD_none, ite_self]
  rw [first]
  rfl

/-! ## The objects of the replies -/

/-- An error is reported with the code of its row. -/
theorem isReply_jsonRpcProtoErrInit (error : ℤ) (id : UInt32) :
    (JsonrpcVerdict.error (jsonrpcErrors.get (jsonRpcGetError error)).code).IsReply id.toInt32
      (jsonRpcProtoErrInit error id) := by
  let row := jsonrpcErrors.get (jsonRpcGetError error)
  let members : List JsonMember :=
    [.scalar .int "code" (.value row.code), .scalar .str "message" (.value row.errMsg)]
  have distinct : (members.map JsonMember.name).Nodup := by simp [members, JsonMember.name]
  exact ⟨rfl, rfl, rfl, _, rfl, get?_put distinct List.mem_cons_self rfl⟩

/-- A template with one member is reported as the result. -/
theorem isReply_jsonRpcProtoRespInit {arr : List JsonMember} {name : String} {value : Json}
    (written : jsonExtPutObj [] arr = [(name, value)]) (numArr : ℕ) (id : UInt32) :
    JsonrpcVerdict.result.IsReply id.toInt32 (jsonRpcProtoRespInit arr numArr id) := by
  refine ⟨rfl, rfl, rfl, name, value, ?_⟩
  rw [← written]
  rfl

/-- The answer to a request of a known event is a result. -/
theorem isReply_jsonrpcCcCompRespObj {request : CcRequest} (known : request.t ≠ .unkn)
    (answer : CcAnswer) (id : UInt32) :
    JsonrpcVerdict.result.IsReply id.toInt32 (jsonrpcCcCompRespObj request answer id) := by
  unfold jsonrpcCcCompRespObj
  cases event : request.t with
  | maxsec | balance | rate | cprice | status => exact isReply_jsonRpcProtoRespInit rfl 0 id
  | term =>
      by_cases ended : request.term.isSome ∧ 0 ≤ answer.tblIdx
      · simp only [if_pos ended]
        exact isReply_jsonRpcProtoRespInit rfl 0 id
      · simp only [if_neg ended]
        exact isReply_jsonRpcProtoRespInit rfl 0 id
  | unkn => exact absurd event known

/-! ## Requests of the table -/

/-- A method of the table gives a request of a known event. -/
theorem exists_request_of_method (now : ℤ) {method : String} {type : JsonrpcProtoType}
    (found : jsonRpcFindType ccProtoType method = some type) (params : JsonParams) :
    ∃ request, jsonrpcCcBuildCc now method params = .request request ∧ request.t ≠ .unkn := by
  have listed : method ∈ ccProtoType.map JsonrpcProtoType.method := by
    have same : method = type.method := by simpa using List.find?_some found
    exact same ▸ List.mem_map_of_mem (List.mem_of_find?_eq_some found)
  simp only [ccProtoType, List.map_cons, List.map_nil, List.mem_cons, List.not_mem_nil,
    or_false] at listed
  rcases listed with rfl | rfl | rfl | rfl | rfl | rfl <;> exact ⟨_, rfl, nofun⟩

variable {lib : JsonLibrary}

/-- A complete request is answered under its identifier. -/
theorem jsonrpcCcProtoBind_eq_answered (now : ℤ) {buf : String} {jobj version method : Json}
    (parsed : lib.parse buf = some jobj) (hasVersion : jobj.get? "jsonrpc" = some version)
    (current : lib.getString version = "2.0") (hasMethod : jobj.get? "method" = some method)
    (complete : JsonrpcMembers lib jobj) :
    ∃ request id, jsonrpcCcProtoBind lib now buf = some (.answered request id) ∧
      request.t ≠ .unkn ∧ id.toInt32 = (jobj.get? "id").elim 0 lib.getInt := by
  rw [JsonrpcMembers, hasMethod] at complete
  obtain ⟨type, found, hasId, present⟩ := complete
  obtain ⟨id, idEq⟩ := Option.ne_none_iff_exists'.mp hasId
  obtain ⟨params, read, deleted⟩ :=
    (jsonExtDeleteObj_params_iff lib (jobj.get? "params") type.reqProtoType).mpr present
  obtain ⟨request, built, known⟩ := exists_request_of_method now found (.ofMembers params)
  refine ⟨request, (lib.getInt id).toUInt32, ?_, known, ?_⟩
  · have get : jsonRpcProtoGet lib ccProtoType buf =
        some (jsonrpcOk, requestJrpc (lib.getString version) (lib.getString method) params
          (lib.getInt id).toUInt32) := by
      simp [jsonRpcProtoGet, parsed, hasVersion, current, hasMethod,
        jsonRpcRequest_eq ccProtoType hasVersion hasMethod, found, idEq, read, requestJrpc]
    rw [jsonrpcCcProtoBind, get]
    exact (jsonrpcCcAnswer_of_delete now _ _ _ deleted).trans (congrArg _ (by rw [built]; rfl))
  · rw [idEq]
    simp

/-- A message that is refused before its template is made gets the code of its error. -/
theorem exists_reply_of_refused (eventM : CcRequest → CcAnswer) {now : ℤ} {buf : String} (ret : ℤ)
    (t : Option JsonrpcType) (code : Int32)
    (get : jsonRpcProtoGet lib ccProtoType buf = some (ret, { t := t }))
    (refused : ret ≠ jsonrpcOk ∨ t ≠ some .request)
    (verdict : jsonrpcVerdict lib buf = (.error code, 0))
    (reported : (jsonrpcErrors.get (jsonRpcGetError
      (if ret < 0 then ret else jsonrpcValidInvalid))).code = code) :
    ∃ reply, jsonrpcCcProtoBindObj lib eventM now buf = some reply ∧
      (jsonrpcVerdict lib buf).1.IsReply (jsonrpcVerdict lib buf).2 reply := by
  have bind : jsonrpcCcProtoBind lib now buf =
      some (.refused (if ret < 0 then ret else jsonrpcValidInvalid) 0) := by
    rw [jsonrpcCcProtoBind, get]
    exact jsonrpcCcAnswer_eq_refused now refused
  rw [jsonrpcCcProtoBindObj, bind, verdict, ← reported]
  exact ⟨_, rfl, isReply_jsonRpcProtoErrInit _ 0⟩

/-- A message whose members are all there gets the reply of its verdict. -/
theorem jsonrpcCcProtoBindObj_verdict (lib : JsonLibrary) (eventM : CcRequest → CcAnswer) (now : ℤ)
    {buf : String} (complete : JsonrpcComplete lib buf) :
    ∃ reply, jsonrpcCcProtoBindObj lib eventM now buf = some reply ∧
      (jsonrpcVerdict lib buf).1.IsReply (jsonrpcVerdict lib buf).2 reply := by
  cases parsed : lib.parse buf with
  | none =>
      exact exists_reply_of_refused eventM jsonrpcObjErr none (-32700)
        (by simp [jsonRpcProtoGet, parsed]) (by decide) (by simp [jsonrpcVerdict, parsed])
        (by decide)
  | some jobj =>
      cases hasVersion : jobj.get? "jsonrpc" with
      | none =>
          exact exists_reply_of_refused eventM jsonrpcObjErr none (-32700)
            (by simp [jsonRpcProtoGet, parsed, hasVersion]) (by decide)
            (by simp [jsonrpcVerdict, parsed, hasVersion]) (by decide)
      | some version =>
          by_cases current : lib.getString version = "2.0"
          · have members : JsonrpcMembers lib jobj := by
              simpa [JsonrpcComplete, parsed, hasVersion, current] using complete
            cases hasMethod : jobj.get? "method" with
            | some method =>
                obtain ⟨request, id, bind, known, idEq⟩ :=
                  jsonrpcCcProtoBind_eq_answered now parsed hasVersion current hasMethod members
                have verdict : jsonrpcVerdict lib buf = (.result, id.toInt32) := by
                  simp [jsonrpcVerdict, parsed, hasVersion, current, hasMethod, idEq]
                rw [jsonrpcCcProtoBindObj, bind, verdict]
                exact ⟨_, rfl, isReply_jsonrpcCcCompRespObj known (eventM request) id⟩
            | none =>
                have noResult : jobj.get? "result" = none := by
                  simpa [JsonrpcMembers, hasMethod] using members
                have verdict : jsonrpcVerdict lib buf = (.error (-32602), 0) := by
                  simp [jsonrpcVerdict, parsed, hasVersion, current, hasMethod]
                -- an error message is no request, and any other message is invalid
                cases hasError : jobj.get? "error" with
                | some error =>
                    exact exists_reply_of_refused eventM jsonrpcOk (some .error) (-32602)
                      (by simp [jsonRpcProtoGet, parsed, hasVersion, current, hasMethod, noResult,
                        hasError]) (by decide) verdict (by decide)
                | none =>
                    exact exists_reply_of_refused eventM jsonrpcValidInvalid none (-32602)
                      (by simp [jsonRpcProtoGet, parsed, hasVersion, current, hasMethod, noResult,
                        hasError]) (by decide) verdict (by decide)
          · exact exists_reply_of_refused eventM jsonrpcValidErrVer none (-32600)
              (by simp [jsonRpcProtoGet, parsed, hasVersion, current]) (by decide)
              (by simp [jsonrpcVerdict, parsed, hasVersion, current]) (by decide)

/-- The request for the state in the description of the protocol. -/
def stateJson : Json :=
  .obj [("jsonrpc", .str "2.0"), ("method", .str "state"),
    ("params", .obj [("cdr_server_id", .int 1)]), ("id", .int 62)]

/-- The text of `stateJson`. -/
def stateText : String :=
  "\x7b\"jsonrpc\":\"2.0\",\"method\":\"state\"," ++
    "\"params\":\x7b\"cdr_server_id\":1\x7d,\"id\":62\x7d"

/-- The state is reported under the identifier `62`. -/
theorem jsonrpcCcProtoBindObj_state :
    ∃ reply, jsonrpcCcProtoBindObj (.ofText stateText stateJson) (fun _ => ⟨0, 0, 0, 0, 0⟩) 0
        stateText = some reply ∧ JsonrpcVerdict.result.IsReply 62 reply := by
  have complete : JsonrpcComplete (.ofText stateText stateJson) stateText := by
    simp only [JsonrpcComplete, JsonLibrary.parse_ofText]
    refine fun _ => ⟨⟨"state", stateParams⟩, rfl, Option.some_ne_none _, fun params same => ?_⟩
    obtain rfl := Option.some.inj same
    exact ⟨Option.some_ne_none _, trivial⟩
  have verdict : jsonrpcVerdict (.ofText stateText stateJson) stateText = (.result, 62) := by
    simp only [jsonrpcVerdict, JsonLibrary.parse_ofText]
    rfl
  have reply := jsonrpcCcProtoBindObj_verdict (.ofText stateText stateJson)
    (fun _ => ⟨0, 0, 0, 0, 0⟩) 0 complete
  rwa [verdict] at reply

/-! ## The table of the protocol -/

/-- The verdict of the protocol table: a message is invalid without an identifier, and one without a
method is answered. -/
def tableVerdict (lib : JsonLibrary) (buf : String) : JsonrpcVerdict :=
  match lib.parse buf with
  | none => .error (-32700)
  | some jobj =>
      match jobj.get? "jsonrpc" with
      | none => .error (-32700)
      | some version =>
          if lib.getString version ≠ "2.0" ∨ (jobj.get? "id").isNone then .error (-32600)
          else
            match jobj.get? "method" with
            | none => .result
            | some method =>
                if (jsonRpcFindType ccProtoType (lib.getString method)).isSome then .result
                else .error (-32601)

/-- The identifier that a message carries, if it carries one. -/
def jsonrpcId? (lib : JsonLibrary) (buf : String) : Option Int32 :=
  ((lib.parse buf).bind (Json.get? "id")).map lib.getInt

/-- A message that asks for nothing. -/
def methodlessJson : Json := .obj [("jsonrpc", .str "2.0"), ("id", .int 7)]

/-- The text of `methodlessJson`. -/
def methodlessText : String := "\x7b\"jsonrpc\":\"2.0\",\"id\":7\x7d"

/-- A message without a method is not answered with a result, and its identifier is not repeated. -/
theorem not_tableVerdict_methodless :
    ¬ ∀ (lib : JsonLibrary) (eventM : CcRequest → CcAnswer) (now : ℤ) (buf : String),
      ∃ reply id, jsonrpcCcProtoBindObj lib eventM now buf = some reply ∧
        (tableVerdict lib buf).IsReply id reply ∧ ∀ own, jsonrpcId? lib buf = some own →
          id = own := by
  intro follows
  obtain ⟨reply, id, bound, isReply, -⟩ :=
    follows (.ofText methodlessText methodlessJson) (fun _ => ⟨0, 0, 0, 0, 0⟩) 0 methodlessText
  have verdict : tableVerdict (.ofText methodlessText methodlessJson) methodlessText = .result := by
    simp only [tableVerdict, JsonLibrary.parse_ofText]
    rfl
  rw [verdict] at isReply
  obtain ⟨-, -, noError, -⟩ := isReply
  have refused : jsonrpcCcProtoBindObj (.ofText methodlessText methodlessJson)
      (fun _ => ⟨0, 0, 0, 0, 0⟩) 0 methodlessText =
        some (jsonRpcProtoErrInit jsonrpcValidInvalid 0) := rfl
  obtain rfl := Option.some.inj (refused.symm.trans bound)
  cases noError

end RateEngine
