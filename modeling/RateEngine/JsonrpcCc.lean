import RateEngine.CallRequests
import RateEngine.JsonMissing

/-!
# JSON-RPC requests of call control

`json_rpc_proto_get` reads a request in two passes over the same object: the first finds the method,
the second reads the parameters that the method declares.  `jsonrpc_cc` builds a `cc_t` from them,
answers and frees the template.  This file follows the pointers of the template through both modules
and states which requests are answered without a read of a pointer that was never set.
-/

namespace RateEngine

/-! ## Pointers of a template -/

/-- The pointer of a member of a type. -/
def JsonMember.ptr (t : JsonScalar) : JsonMember → Option (JsonPtr t.Value)
  | scalar t' _ u => if same : t' = t then some (same ▸ u) else none
  | _ => none

/-- The pointer of the member that `json_ext_find_obj` finds. -/
def jsonExtPtr (obj : List JsonMember) (t : JsonScalar) (name : String) :
    Option (JsonPtr t.Value) :=
  (jsonExtFindObj obj (.scalar t) name).bind fun q => obj[q]?.bind (JsonMember.ptr t)

/-! ## `json_rpc` -/

/-- `jsonrpc_type_t`. -/
inductive JsonrpcType where
  | request
  | response
  | error
deriving DecidableEq, Repr

/-- `jsonrpc_proto_type_t`: a method and the template of its parameters. -/
structure JsonrpcProtoType where
  method : String
  reqProtoType : List JsonMember

/-- `jsonrpc_t`: the type of the message and its template, `NULL` until the type is known. -/
structure Jsonrpc where
  t : Option JsonrpcType := none
  obj : Option (List JsonMember) := none

/-- `jsonrpc_proto_req`. -/
def jsonrpcProtoReq : List JsonMember :=
  [.scalar .str "jsonrpc" .null, .scalar .str "method" .null, .obj "params" none,
    .scalar .uint "id" .null]

/-- `JSONRPC_OK`. -/
def jsonrpcOk : ℤ := 0

/-- `JSONRPC_OBJ_ERR`. -/
def jsonrpcObjErr : ℤ := -1

/-- `JSONRPC_VALID_ERR_VER`. -/
def jsonrpcValidErrVer : ℤ := -10

/-- `JSONRPC_VALID_ERR_MET`. -/
def jsonrpcValidErrMet : ℤ := -11

/-- `JSONRPC_VALID_INVALID`. -/
def jsonrpcValidInvalid : ℤ := -12

/-- `JSONRPC_VALID_ERR_ID`. -/
def jsonrpcValidErrId : ℤ := -13

/-- `JSONRPC_PARAMS_INVALID`. -/
def jsonrpcParamsInvalid : ℤ := -21

variable (lib : JsonLibrary)

/-- Attach a copy of the template of the parameters and read the object again. -/
def jsonRpcSecondPass (jobj : Json) (reqProtoType obj : List JsonMember) :
    Option (ℤ × List JsonMember) :=
  match jsonExtFindObj obj .obj "params" with
  | none => some (jsonrpcValidErrMet, obj)
  | some p =>
      if 0 < p then
        (jsonExtGetMembers lib jobj
          (obj.set p (.obj "params" (some (jsonExtNewObj reqProtoType))))).map (jsonrpcOk, ·)
      else some (jsonrpcOk, obj)

/-- The identifier is there. -/
def jsonRpcCheckId (obj : List JsonMember) : Option ℤ :=
  match jsonExtPtr obj .uint "id" with
  | none => some jsonrpcValidErrId
  | some ui => ui.read.map fun ui => if ui.isSome then jsonrpcOk else jsonrpcValidErrId

/-- The row of a method in the table. -/
def jsonRpcFindType (types : List JsonrpcProtoType) (method : String) : Option JsonrpcProtoType :=
  types.find? fun type => method = type.method

/-- A request whose method has been read.  The index `p` is set for a method of the table only, and
it is compared for every method. -/
def jsonRpcMethod (types : List JsonrpcProtoType) (jobj : Json) (obj : List JsonMember)
    (method : String) : Option (ℤ × List JsonMember) :=
  (jsonRpcFindType types method).bind fun type =>
    (jsonRpcSecondPass lib jobj type.reqProtoType obj).bind fun (ret, obj) =>
      if ret = jsonrpcOk then (jsonRpcCheckId obj).map fun ret => (ret, obj) else some (ret, obj)

/-- The branch of `json_rpc_proto_get` for a request, in `JSONRPC_MODE_SYNC`. -/
def jsonRpcRequest (types : List JsonrpcProtoType) (jobj : Json) :
    Option (ℤ × List JsonMember) :=
  (jsonExtGetMembers lib jobj (jsonExtNewObj jsonrpcProtoReq)).bind fun obj =>
    match jsonExtPtr obj .str "method" with
    | none => some (jsonrpcValidErrMet, obj)
    | some method => method.deref.bind (jsonRpcMethod lib types jobj obj)

/-- `json_rpc_proto_get`: its code and the message; nothing comes of a run that reads a
variable or a pointer that was never set.  A response reads the list of transactions, which no
assignment sets. -/
def jsonRpcProtoGet (types : List JsonrpcProtoType) (msg : String) : Option (ℤ × Jsonrpc) :=
  match lib.parse msg with
  | none => some (jsonrpcObjErr, {})
  | some jobj =>
      match jobj.get? "jsonrpc" with
      | none => some (jsonrpcObjErr, {})
      | some version =>
          if lib.getString version ≠ "2.0" then some (jsonrpcValidErrVer, {})
          else
            match jobj.get? "method", jobj.get? "result", jobj.get? "error" with
            | some _, _, _ =>
                (jsonRpcRequest lib types jobj).map fun (ret, obj) =>
                  (ret, { t := some .request, obj := some obj })
            | none, some _, _ => none
            | none, none, some _ => some (jsonrpcOk, { t := some .error })
            | none, none, none => some (jsonrpcValidInvalid, {})

/-- `json_rpc_jrpc_get_id`. -/
def jsonRpcJrpcGetId (jrpc : Jsonrpc) : Option UInt32 :=
  match jrpc.obj.bind fun obj => jsonExtPtr obj .uint "id" with
  | none => some 0
  | some ui => ui.read.map fun (ui : Option UInt32) => ui.getD 0

/-- `json_rpc_jrpc_get_method`. -/
def jsonRpcJrpcGetMethod (jrpc : Jsonrpc) : Option (Option String) :=
  match jrpc.obj.bind fun obj => jsonExtPtr obj .str "method" with
  | none => some none
  | some str => str.read

/-- `json_rpc_jrpc_free`. -/
def jsonRpcJrpcFree (jrpc : Jsonrpc) : Option Unit := jrpc.obj.elim (some ()) jsonExtDeleteObj

/-! ## `jsonrpc_cc` -/

/-- `maxsec_params`. -/
def maxsecParams : List JsonMember :=
  [.scalar .ushrt "cdr_server_id" .null, .scalar .str "call-uid" .null, .scalar .str "clg" .null,
    .scalar .str "cld" .null]

/-- `balance_params`. -/
def balanceParams : List JsonMember :=
  [.scalar .ushrt "cdr_server_id" .null, .scalar .str "clg" .null]

/-- `rate_params`. -/
def rateParams : List JsonMember :=
  [.scalar .ushrt "cdr_server_id" .null, .scalar .str "clg" .null, .scalar .str "cld" .null]

/-- `cprice_params`. -/
def cpriceParams : List JsonMember :=
  [.scalar .ushrt "cdr_server_id" .null, .scalar .str "clg" .null, .scalar .str "cld" .null,
    .scalar .int "billsec" .null]

/-- `term_params`. -/
def termParams : List JsonMember :=
  [.scalar .ushrt "cdr_server_id" .null, .scalar .str "call-uid" .null, .scalar .str "status" .null,
    .scalar .int "billsec" .null, .scalar .int "duration" .null]

/-- `state_params`. -/
def stateParams : List JsonMember := [.scalar .ushrt "cdr_server_id" .null]

/-- `cc_proto_type`. -/
def ccProtoType : List JsonrpcProtoType :=
  [⟨"maxsec", maxsecParams⟩, ⟨"balance", balanceParams⟩, ⟨"rate", rateParams⟩,
    ⟨"cprice", cpriceParams⟩, ⟨"term", termParams⟩, ⟨"state", stateParams⟩]

/-- `jcc_pstr`. -/
def jccPstr (p : List JsonMember) (name : String) : Option (Option String) :=
  match jsonExtPtr p .str name with
  | none => some none
  | some str => str.read

/-- `jcc_pushrt`. -/
def jccPushrt (p : List JsonMember) (name : String) : Option UInt16 :=
  match jsonExtPtr p .ushrt name with
  | none => some 0
  | some us => us.read.map fun (us : Option UInt16) => us.getD 0

/-- `jcc_pint`. -/
def jccPint (p : List JsonMember) (name : String) : Option Int32 :=
  match jsonExtPtr p .int name with
  | none => some 0
  | some num => num.read.map fun (num : Option Int32) => num.getD 0

/-- `jsonrpc_cc_build_cc` on the template of the parameters. -/
def jsonrpcCcBuild (now : ℤ) (method : String) (params : List JsonMember) : Option CcParse := do
  let server ← jccPushrt params "cdr_server_id"
  let cdrServerId := server.toNat
  if method = "maxsec" then
    let clg ← jccPstr params "clg"
    let cld ← jccPstr params "cld"
    let callUid ← jccPstr params "call-uid"
    let max : CcMax :=
      { clg := strncpy (ccClgLen - 1) clg, cld := strncpy (ccClgLen - 1) cld,
        callUid := strncpy (ccCallUidLen - 1) callUid, ts := now }
    return .request (.ofMaxsec cdrServerId max)
  else if method = "balance" then
    let _ ← jccPstr params "clg"
    return .request (.ofBalance cdrServerId)
  else if method = "rate" then
    let _ ← jccPstr params "clg"
    let _ ← jccPstr params "cld"
    return .request (.ofRate cdrServerId)
  else if method = "cprice" then
    let _ ← jccPstr params "clg"
    let _ ← jccPstr params "cld"
    let _ ← jccPint params "billsec"
    return .request (.ofCprice cdrServerId)
  else if method = "term" then
    let code ← jccPstr params "status"
    let callUid ← jccPstr params "call-uid"
    let billsec ← jccPint params "billsec"
    let duration ← jccPint params "duration"
    let term : CcTerm :=
      { status := (code.map ccTermStatus).getD .unknStatus,
        callUid := strncpy (ccCallUidLen - 1) callUid,
        billsec := billsec.toInt % 2 ^ 32, duration := duration.toInt % 2 ^ 32 }
    return .request (.ofTerm cdrServerId term)
  else if method = "state" then return .request (.ofStatus cdrServerId)
  else return .freed (.ofUnkn cdrServerId)

/-- What a reply is made from: an error, or the request that the event manager answers. -/
inductive JsonrpcCcReply where
  | refused (error : ℤ) (id : UInt32)
  | answered (request : CcRequest) (id : UInt32)

/-- The reply to a request whose `cc_t` was built. -/
def JsonrpcCcReply.ofParse (id : UInt32) : CcParse → JsonrpcCcReply
  | .request r => answered r id
  | .freed _ | .abandoned _ => refused jsonrpcParamsInvalid id

/-- The template of the parameters, empty for `NULL`. -/
def jsonrpcCcParams (jrpc : Jsonrpc) : List JsonMember :=
  let obj := jrpc.obj.getD []
  match (jsonExtFindObj obj .obj "params").bind fun p => obj[p]? with
  | some (.obj _ (some params)) => params
  | _ => []

/-- Answer a message that `json_rpc_proto_get` has read, and free it. -/
def jsonrpcCcAnswer (now ret : ℤ) (jrpc : Jsonrpc) : Option JsonrpcCcReply :=
  if ret ≠ jsonrpcOk ∨ jrpc.t ≠ some .request then do
    let id ← jsonRpcJrpcGetId jrpc
    jsonRpcJrpcFree jrpc
    return .refused (if ret < 0 then ret else jsonrpcValidInvalid) id
  else do
    let method ← jsonRpcJrpcGetMethod jrpc
    let id ← jsonRpcJrpcGetId jrpc
    let parse ← method.elim (some (.freed (.ofUnkn 0)))
      fun method => jsonrpcCcBuild now method (jsonrpcCcParams jrpc)
    jsonRpcJrpcFree jrpc
    return .ofParse id parse

/-- `jsonrpc_cc_proto_bind` up to the text of the reply. -/
def jsonrpcCcProtoBind (now : ℤ) (buf : String) : Option JsonrpcCcReply :=
  (jsonRpcProtoGet lib ccProtoType buf).bind fun (ret, jrpc) => jsonrpcCcAnswer now ret jrpc

/-! ## Reading the parameters -/

theorem mem_of_jsonExtPtr {obj : List JsonMember} {t : JsonScalar} {name : String}
    {u : JsonPtr t.Value} (found : jsonExtPtr obj t name = some u) :
    ∃ name, JsonMember.scalar t name u ∈ obj := by
  obtain ⟨q, -, found⟩ := Option.bind_eq_some_iff.mp found
  obtain ⟨member, at_q, found⟩ := Option.bind_eq_some_iff.mp found
  match member with
  | .scalar t' name u' =>
      rw [JsonMember.ptr] at found
      split at found
      · rename_i same
        subst same
        obtain rfl := Option.some.inj found
        exact ⟨name, List.mem_of_getElem? at_q⟩
      · nomatch found

theorem jsonExtDeleteMember_of_mem {obj : List JsonMember}
    (deleted : jsonExtDeleteObj obj = some ())
    {member : JsonMember} (mem : member ∈ obj) : jsonExtDeleteMember member = some () := by
  induction obj with
  | nil => nomatch mem
  | cons first obj induction =>
      obtain ⟨⟨⟩, deletedFirst, deletedRest⟩ := Option.bind_eq_some_iff.mp deleted
      rcases List.mem_cons.mp mem with rfl | later
      · exact deletedFirst
      · exact induction deletedRest later

/-- A pointer of a template that can be freed was set. -/
theorem exists_read_of_delete {obj : List JsonMember} (deleted : jsonExtDeleteObj obj = some ())
    (t : JsonScalar) (freed : t ≠ .datetime) {name : String} {u : JsonPtr t.Value}
    (found : jsonExtPtr obj t name = some u) : ∃ held, u.read = some held := by
  obtain ⟨name, mem⟩ := mem_of_jsonExtPtr found
  cases u with
  | null => exact ⟨none, rfl⟩
  | value a => exact ⟨some a, rfl⟩
  | unset =>
      have undefined := JsonMember.delete_unset freed name
      rw [jsonExtDeleteMember_of_mem deleted mem] at undefined
      nomatch undefined

/-- The parameters that are read from a template. -/
def JsonParams.ofMembers (params : List JsonMember) : JsonParams where
  str name := (jccPstr params name).join
  num name := (jccPint params name).map Int32.toInt
  ushrt name := (jccPushrt params name).map UInt16.toNat

section Params

variable {params : List JsonMember} (deleted : jsonExtDeleteObj params = some ())
include deleted

theorem jccPstr_of_delete (name : String) :
    jccPstr params name = some ((JsonParams.ofMembers params).str name) := by
  have read : ∃ str, jccPstr params name = some str := by
    unfold jccPstr
    split
    · exact ⟨none, rfl⟩
    · rename_i str found
      exact exists_read_of_delete deleted .str nofun found
  obtain ⟨str, read⟩ := read
  simp only [JsonParams.ofMembers, read, Option.join_some]

theorem exists_jccPint_of_delete (name : String) : ∃ num, jccPint params name = some num := by
  unfold jccPint
  split
  · exact ⟨0, rfl⟩
  · rename_i num found
    obtain ⟨held, read⟩ := exists_read_of_delete deleted .int nofun found
    exact ⟨_, congrArg (Option.map fun (num : Option Int32) => num.getD 0) read⟩

theorem exists_jccPushrt_of_delete (name : String) : ∃ us, jccPushrt params name = some us := by
  unfold jccPushrt
  split
  · exact ⟨0, rfl⟩
  · rename_i us found
    obtain ⟨held, read⟩ := exists_read_of_delete deleted .ushrt nofun found
    exact ⟨_, congrArg (Option.map fun (us : Option UInt16) => us.getD 0) read⟩

/-- When every pointer was set, the `cc_t` is the one that is built from the values. -/
theorem jsonrpcCcBuild_of_delete (now : ℤ) (method : String) :
    jsonrpcCcBuild now method params =
      some (jsonrpcCcBuildCc now method (JsonParams.ofMembers params)) := by
  obtain ⟨server, readServer⟩ := exists_jccPushrt_of_delete deleted "cdr_server_id"
  obtain ⟨billsec, readBillsec⟩ := exists_jccPint_of_delete deleted "billsec"
  obtain ⟨duration, readDuration⟩ := exists_jccPint_of_delete deleted "duration"
  have readStr := jccPstr_of_delete deleted
  have ushrt : (JsonParams.ofMembers params).ushrt "cdr_server_id" = some server.toNat := by
    simp only [JsonParams.ofMembers, readServer, Option.map_some]
  have num1 : (JsonParams.ofMembers params).num "billsec" = some billsec.toInt := by
    simp only [JsonParams.ofMembers, readBillsec, Option.map_some]
  have num2 : (JsonParams.ofMembers params).num "duration" = some duration.toInt := by
    simp only [JsonParams.ofMembers, readDuration, Option.map_some]
  simp only [jsonrpcCcBuild, jsonrpcCcBuildCc, readServer, readBillsec, readDuration,
    readStr, ushrt,
    num1, num2]
  split_ifs <;> rfl

end Params

/-! ## The two passes -/

/-- The template of a request with its pointers. -/
def requestObj (version method : JsonPtr String) (params : Option (List JsonMember))
    (id : JsonPtr UInt32) : List JsonMember :=
  [.scalar .str "jsonrpc" version, .scalar .str "method" method, .obj "params" params,
    .scalar .uint "id" id]

variable {lib}

/-- The first pass leaves the parameters out. -/
theorem jsonExtGetMembers_first {jobj version method : Json}
    (hasVersion : jobj.get? "jsonrpc" = some version)
    (hasMethod : jobj.get? "method" = some method) :
    jsonExtGetMembers lib jobj (jsonExtNewObj jsonrpcProtoReq) =
      some (requestObj (.value (lib.getString version)) (.value (lib.getString method)) none
        (jsonExtGetUint lib "id" jobj)) := by
  rw [← jsonExtGet_of_found lib.getString hasVersion, ← jsonExtGet_of_found lib.getString hasMethod]
  rfl

/-- The second pass reads the parameters, if there are any, and the pointer of the identifier. -/
theorem jsonExtGetMembers_second (jobj : Json) (version method : String) (new : List JsonMember)
    (id : UInt32) :
    jsonExtGetMembers lib jobj
        (requestObj (.value version) (.value method) (some new) (.value id)) =
      (jsonExtGetObj lib (jobj.get? "params") new).map fun params =>
        requestObj (.value version) (.value method) (some params) (.value id) := by
  cases found : jobj.get? "params" with
  | none =>
      simp [requestObj, jsonExtGetMembers, jsonExtGetMember, jsonExtGetObj, JsonPtr.read, found]
  | some tmp =>
      cases got : jsonExtGetMembers lib tmp new <;>
        simp [requestObj, jsonExtGetMembers, jsonExtGetMember, jsonExtGetObj,
          JsonPtr.read, found, got]

theorem jsonExtGetMembers_second_unset (jobj : Json) (version method : String)
    (new : List JsonMember) :
    jsonExtGetMembers lib jobj (requestObj (.value version) (.value method) (some new) .unset) =
      none := by
  cases found : jobj.get? "params" with
  | none => simp [requestObj, jsonExtGetMembers, jsonExtGetMember, JsonPtr.read, found]
  | some tmp =>
      cases got : jsonExtGetMembers lib tmp new <;>
        simp [requestObj, jsonExtGetMembers, jsonExtGetMember, JsonPtr.read, found, got]

/-- A request is read when its method is in the table and it has an identifier. -/
theorem jsonRpcRequest_eq (types : List JsonrpcProtoType) {jobj version method : Json}
    (hasVersion : jobj.get? "jsonrpc" = some version)
    (hasMethod : jobj.get? "method" = some method) :
    jsonRpcRequest lib types jobj =
      (jsonRpcFindType types (lib.getString method)).bind fun type =>
        (jobj.get? "id").bind fun id =>
          (jsonExtGetObj lib (jobj.get? "params")
            (jsonExtNewObj type.reqProtoType)).map fun params =>
            (jsonrpcOk, requestObj (.value (lib.getString version)) (.value (lib.getString method))
              (some params) (.value (lib.getInt id).toUInt32)) := by
  have first : jsonRpcRequest lib types jobj =
      jsonRpcMethod lib types jobj (requestObj (.value (lib.getString version))
        (.value (lib.getString method)) none (jsonExtGetUint lib "id" jobj))
        (lib.getString method) := by
    rw [jsonRpcRequest, jsonExtGetMembers_first hasVersion hasMethod]
    rfl
  rw [first, jsonRpcMethod]
  refine Option.bind_congr fun type _ => ?_
  have second (id : JsonPtr UInt32) : jsonRpcSecondPass lib jobj type.reqProtoType
      (requestObj (.value (lib.getString version)) (.value (lib.getString method)) none id) =
    (jsonExtGetMembers lib jobj (requestObj (.value (lib.getString version))
      (.value (lib.getString method)) (some (jsonExtNewObj type.reqProtoType)) id)).map
        (jsonrpcOk, ·) := rfl
  rw [second]
  cases hasId : jobj.get? "id" with
  | none =>
      have unset : jsonExtGetUint lib "id" jobj = .unset := by
        rw [jsonExtGetUint, jsonExtGet, hasId, Option.elim_none]
      rw [unset, jsonExtGetMembers_second_unset]
      rfl
  | some id =>
      have value : jsonExtGetUint lib "id" jobj = .value (lib.getInt id).toUInt32 :=
        jsonExtGet_of_found _ hasId
      rw [value, jsonExtGetMembers_second, Option.bind_some]
      cases jsonExtGetObj lib (jobj.get? "params") (jsonExtNewObj type.reqProtoType) <;> rfl

/-! ## Requests with all their members -/

/-- A message with a method is a request for a method of the table, with an identifier and either no
parameters at all or all those of the method; one without a method is no response. -/
def JsonrpcMembers (lib : JsonLibrary) (jobj : Json) : Prop :=
  match jobj.get? "method" with
  | some method =>
      ∃ type, jsonRpcFindType ccProtoType (lib.getString method) = some type ∧
        jobj.get? "id" ≠ none ∧
        ∀ params, jobj.get? "params" = some params →
          jsonPresent params (jsonExtNewObj type.reqProtoType)
  | none => jobj.get? "result" = none

/-- A message of version 2.0 has the members that are read. -/
def JsonrpcComplete (lib : JsonLibrary) (buf : String) : Prop :=
  match lib.parse buf with
  | none => True
  | some jobj =>
      match jobj.get? "jsonrpc" with
      | none => True
      | some version => lib.getString version = "2.0" → JsonrpcMembers lib jobj

/-- A request that was read. -/
def requestJrpc (version method : String) (params : List JsonMember) (id : UInt32) : Jsonrpc where
  t := some .request
  obj := some (requestObj (.value version) (.value method) (some params) (.value id))

/-- A request that was read is built and answered, unless freeing its parameters reads a pointer
that was never set. -/
theorem jsonrpcCcAnswer_requestJrpc (now : ℤ) (version method : String) (params : List JsonMember)
    (id : UInt32) :
    jsonrpcCcAnswer now jsonrpcOk (requestJrpc version method params id) =
      (jsonrpcCcBuild now method params).bind fun parse =>
        ((jsonExtDeleteObj params).bind fun _ => some ()).bind fun _ => some (.ofParse id parse) :=
  rfl

theorem jsonrpcCcAnswer_of_delete (now : ℤ) (version method : String) (id : UInt32)
    {params : List JsonMember} (deleted : jsonExtDeleteObj params = some ()) :
    jsonrpcCcAnswer now jsonrpcOk (requestJrpc version method params id) =
      some (.ofParse id (jsonrpcCcBuildCc now method (JsonParams.ofMembers params))) := by
  rw [jsonrpcCcAnswer_requestJrpc, jsonrpcCcBuild_of_delete deleted, deleted]
  rfl

/-- A request that was read is answered exactly when the pointers of its parameters were set. -/
theorem jsonrpcCcAnswer_request (now : ℤ) (version method : String) (params : List JsonMember)
    (id : UInt32) :
    (jsonrpcCcAnswer now jsonrpcOk (requestJrpc version method params id)).isSome ↔
      jsonExtDeleteObj params = some () := by
  cases deleted : jsonExtDeleteObj params with
  | none => simp [jsonrpcCcAnswer_requestJrpc, deleted]
  | some _ => simp [jsonrpcCcAnswer_of_delete now version method id deleted]

variable (lib) in
/-- The parameters are read and can be freed when none of them is missing, or all are. -/
theorem jsonExtDeleteObj_params_iff (jobj : Option Json) (src : List JsonMember) :
    (∃ params, jsonExtGetObj lib jobj (jsonExtNewObj src) = some params ∧
        jsonExtDeleteObj params = some ()) ↔
      ∀ tmp, jobj = some tmp → jsonPresent tmp (jsonExtNewObj src) := by
  have fresh := jsonFresh_new src
  cases jobj with
  | none =>
      refine ⟨fun _ => nofun, fun _ => ⟨_, rfl, jsonExtDeleteObj_of_fresh _ fresh⟩⟩
  | some jobj =>
      rw [jsonExtGetObj, jsonExtDeleteObj_get_iff fresh]
      exact ⟨fun present tmp same => Option.some.inj same ▸ present,
        fun present => present jobj rfl⟩

/-- A message without a template is refused, with the identifier zero. -/
theorem jsonrpcCcAnswer_eq_refused (now : ℤ) {ret : ℤ} {t : Option JsonrpcType}
    (refused : ret ≠ jsonrpcOk ∨ t ≠ some .request) :
    jsonrpcCcAnswer now ret { t := t, obj := none } =
      some (.refused (if ret < 0 then ret else jsonrpcValidInvalid) 0) := by
  rw [jsonrpcCcAnswer, if_pos refused]
  rfl

theorem jsonrpcCcAnswer_refused (now : ℤ) {ret : ℤ} {t : Option JsonrpcType}
    (refused : ret ≠ jsonrpcOk ∨ t ≠ some .request) :
    (jsonrpcCcAnswer now ret { t := t, obj := none }).isSome := by
  rw [jsonrpcCcAnswer_eq_refused now refused, Option.isSome_some]

/-- A request is answered exactly when its method is in the table, it has an identifier and all or
none of the parameters. -/
theorem jsonrpcCcProtoBind_request (now : ℤ) {jobj version method : Json}
    (hasVersion : jobj.get? "jsonrpc" = some version)
    (hasMethod : jobj.get? "method" = some method) :
    (((jsonRpcRequest lib ccProtoType jobj).map fun (ret, obj) =>
        ((ret, { t := some .request, obj := some obj }) : ℤ × Jsonrpc)).bind fun (ret, jrpc) =>
          jsonrpcCcAnswer now ret jrpc).isSome ↔
      ∃ type, jsonRpcFindType ccProtoType (lib.getString method) = some type ∧
        jobj.get? "id" ≠ none ∧
        ∀ params, jobj.get? "params" = some params →
          jsonPresent params (jsonExtNewObj type.reqProtoType) := by
  rw [jsonRpcRequest_eq ccProtoType hasVersion hasMethod]
  cases found : jsonRpcFindType ccProtoType (lib.getString method) with
  | none => simp
  | some type =>
      cases hasId : jobj.get? "id" with
      | none => simp
      | some id =>
          have params := jsonExtDeleteObj_params_iff lib (jobj.get? "params") type.reqProtoType
          cases got : jsonExtGetObj lib (jobj.get? "params") (jsonExtNewObj type.reqProtoType) with
          | none =>
              rw [got] at params
              simp [got, ← params]
          | some read =>
              rw [got] at params
              have answered := jsonrpcCcAnswer_request now (lib.getString version)
                (lib.getString method) read (lib.getInt id).toUInt32
              rw [requestJrpc] at answered
              simp [got, ← params, answered]

/-- `jsonrpc_cc` answers without a read of a value that was never set exactly the messages that are
refused at once and the complete requests. -/
theorem jsonrpcCcProtoBind_iff (lib : JsonLibrary) (now : ℤ) (buf : String) :
    (jsonrpcCcProtoBind lib now buf).isSome ↔ JsonrpcComplete lib buf := by
  unfold jsonrpcCcProtoBind jsonRpcProtoGet JsonrpcComplete
  cases lib.parse buf with
  | none => simp [jsonrpcCcAnswer_refused, jsonrpcOk, jsonrpcObjErr]
  | some jobj =>
      cases hasVersion : jobj.get? "jsonrpc" with
      | none => simp [hasVersion, jsonrpcCcAnswer_refused, jsonrpcOk, jsonrpcObjErr]
      | some version =>
          by_cases current : lib.getString version = "2.0"
          · simp only [hasVersion, current, ne_eq, not_true, if_false, forall_const, JsonrpcMembers]
            cases hasMethod : jobj.get? "method" with
            | some method => exact jsonrpcCcProtoBind_request now hasVersion hasMethod
            | none =>
                cases jobj.get? "result" with
                | some result => simp
                | none =>
                    cases jobj.get? "error" with
                    | some error => simp [jsonrpcCcAnswer_refused]
                    | none => simp [jsonrpcCcAnswer_refused, jsonrpcOk, jsonrpcValidInvalid]
          · simp [hasVersion, current, jsonrpcCcAnswer_refused, jsonrpcOk, jsonrpcValidErrVer]

/-- Missing members are harmless exactly when no string or number is missing where it is looked up
and the request has the members that are read. -/
theorem missingMembers_iff (lib : JsonLibrary) :
    (∀ (columns : Bool) (jobj : Json) (src : List JsonMember),
      MissingHarmless lib jobj (jsonExtCopyObj columns src) ↔
        jsonPresent jobj (jsonExtCopyObj columns src)) ∧
      ∀ (now : ℤ) (buf : String),
        (jsonrpcCcProtoBind lib now buf).isSome ↔ JsonrpcComplete lib buf :=
  ⟨fun columns _ src => missingHarmless_iff (jsonFresh_copy columns src),
    jsonrpcCcProtoBind_iff lib⟩

/-- The parameters of a request for a balance that names no server. -/
def balanceRequest : Json := .obj [("clg", .str "359112")]

/-- The request for a balance in the description of the protocol. -/
def balanceJson : Json :=
  .obj [("jsonrpc", .str "2.0"), ("method", .str "balance"), ("params", balanceRequest),
    ("id", .int 31)]

/-- The text of `balanceJson`. -/
def balanceText : String :=
  "\x7b\"jsonrpc\":\"2.0\",\"method\":\"balance\"," ++
    "\"params\":\x7b\"clg\":\"359112\"\x7d,\"id\":31\x7d"

theorem not_missingMembers_balance :
    (¬ ∀ (lib : JsonLibrary) (columns : Bool) (jobj : Json) (src : List JsonMember),
      MissingHarmless lib jobj (jsonExtCopyObj columns src)) ∧
      ¬ ∀ (lib : JsonLibrary) (now : ℤ) (buf : String),
      (jsonrpcCcProtoBind lib now buf).isSome := by
  refine ⟨fun harmless => ?_, fun answered => ?_⟩
  · have src := harmless (.ofText balanceText balanceJson) true balanceRequest balanceParams
    exact ((missingHarmless_iff (jsonFresh_copy true _)).mp src).1 rfl
  · have undefined : jsonrpcCcProtoBind (.ofText balanceText balanceJson) 0 balanceText = none :=
      rfl
    have balance := answered (.ofText balanceText balanceJson) 0 balanceText
    rw [undefined] at balance
    nomatch balance

end RateEngine
