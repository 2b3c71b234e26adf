import RateEngine.CdrStore
import RateEngine.JsonMissing

/-!
# CDRs as JSON

`cdrm_json` writes a CDR as a JSON object and reads such an object back, both by the template
`cdr_temp`.  The reader has no case for the start time, the contexts and the trunk groups, and a CDR
without one of them leaves a pointer that was never set in the template that is freed.
-/

namespace RateEngine

/-! ## `cdrm_struct_json` -/

/-- `cdr_t` with its fields `id` and `profile_name`, which are not stored. -/
structure CdrmCdr where
  id : ℕ
  profileName : List Char
  cdr : CdrT

/-- `cdrm_json_t`, without the object that a text is parsed into. -/
structure CdrmJson where
  header : String
  msg : String

/-- `cdr_temp`. -/
def cdrTemp : List JsonMember :=
  [.scalar .str "cdr-server" .null,
    .scalar .ushrt "cdr-rec-type" .null,
    .scalar .str "call-uid" .null,
    .scalar .str "clg" .null,
    .scalar .str "cld" .null,
    .scalar .str "start_ts" .null,
    .scalar .uint "start_epoch" .null,
    .scalar .uint "answer_epoch" .null,
    .scalar .uint "end_epoch" .null,
    .scalar .uint "billsec" .null,
    .scalar .uint "duration" .null,
    .scalar .str "src_context" .null,
    .scalar .str "dst_context" .null,
    .scalar .str "src_tgroup" .null,
    .scalar .str "dst_tgroup" .null]

/-- A call of `json_ext_init_value` for a text. -/
def initText (name : String) (text : List Char) : List JsonMember → List JsonMember :=
  jsonExtInitValue name (.scalar .str (String.ofList text)) 0

/-- A call of `json_ext_init_value` for an `unsigned int`. -/
def initUint (name : String) (num : ℕ) : List JsonMember → List JsonMember :=
  jsonExtInitValue name (.scalar .uint (UInt32.ofNat num)) 0

/-- A call that is made only for a text that is not empty. -/
def initTextIf (name : String) (text : List Char) (obj : List JsonMember) : List JsonMember :=
  if text = [] then obj else initText name text obj

/-- A call that is made only for a positive number. -/
def initUintIf (name : String) (num : ℕ) (obj : List JsonMember) : List JsonMember :=
  if num = 0 then obj else initUint name num obj

/-- The start time as it is sent, with the separator in place of the blank. -/
def sentTs (ts : List Char) : List Char :=
  (strExtReplaceSymbol (String.ofList ts) ' ' 'T').toList

/-- The copy of `cdr_temp` with the values of a CDR. -/
def cdrmObj (ptr : CdrmCdr) : List JsonMember :=
  let text := ptr.cdr.text
  let num := ptr.cdr.num
  let obj := initText "cdr-server" ptr.profileName (jsonExtNewObj cdrTemp)
  let obj := jsonExtInitValue "cdr-rec-type"
    (.scalar .ushrt (UInt16.ofNat (num .cdrRecTypeId))) 0 obj
  let obj := initText "call-uid" (text .callUid) obj
  let obj := initText "clg" (text .callingNumber) obj
  let obj := initText "cld" (text .calledNumber) obj
  let obj :=
    if text .startTs = [] then obj else initText "start_ts" (sentTs (text .startTs)) obj
  let obj := initUintIf "start_epoch" (num .startEpoch) obj
  let obj := initUintIf "answer_epoch" (num .answerEpoch) obj
  let obj := initUintIf "end_epoch" (num .endEpoch) obj
  let obj := initUint "billsec" (num .billsec) obj
  let obj := initUint "duration" (num .duration) obj
  let obj := initTextIf "src_context" (text .srcContext) obj
  let obj := initTextIf "dst_context" (text .dstContext) obj
  let obj := initTextIf "src_tgroup" (text .srcTgroup) obj
  initTextIf "dst_tgroup" (text .dstTgroup) obj

/-- `cdrm_struct_json`: the message and the CDR, whose start time is changed in place. -/
def cdrmStructJson (lib : JsonLibrary) (ptr : CdrmCdr) : CdrmCdr × CdrmJson :=
  let sent := { ptr with cdr := ptr.cdr.setText .startTs (sentTs (ptr.cdr.text .startTs)) }
  (sent,
    { header := "cdr_call_" ++ String.ofList (ptr.cdr.text .callUid)
      msg := jsonExtObjCreate lib (cdrmObj ptr) })

/-! ## `cdrm_json_struct` -/

/-- Copy a text of the template into the CDR. -/
def cdrmCopyStr (ptr : CdrmCdr) (name : String) (u : JsonPtr String) : Option CdrmCdr :=
  let copy (field : CdrText) (str : String) := { ptr with cdr := ptr.cdr.setText field str.toList }
  if name = "cdr-server" then u.deref.map fun str => { ptr with id := 1, profileName := str.toList }
  else if name = "call-uid" then u.deref.map (copy .callUid)
  else if name = "clg" then u.deref.map (copy .callingNumber)
  else if name = "cld" then u.read.map fun str => str.elim ptr (copy .calledNumber)
  else some ptr

/-- Copy an `unsigned int` of the template into the CDR. -/
def cdrmCopyUint (ptr : CdrmCdr) (name : String) (u : JsonPtr UInt32) : Option CdrmCdr :=
  let copy (field : CdrNum) (ui : UInt32) := { ptr with cdr := ptr.cdr.setNum field ui.toNat }
  if name = "start_epoch" then u.read.map fun ui => ui.elim ptr (copy .startEpoch)
  else if name = "answer_epoch" then u.read.map fun ui => ui.elim ptr (copy .answerEpoch)
  else if name = "end_epoch" then u.read.map fun ui => ui.elim ptr (copy .endEpoch)
  else if name = "billsec" then u.deref.map (copy .billsec)
  else if name = "duration" then u.deref.map (copy .duration)
  else some ptr

/-- The body of the loop of `cdrm_json_struct`. -/
def cdrmCopy (ptr : CdrmCdr) : JsonMember → Option CdrmCdr
  | .scalar .str name u => cdrmCopyStr ptr name u
  | .scalar .uint name u => cdrmCopyUint ptr name u
  | .scalar .ushrt name u =>
      if name = "cdr-rec-type" then
        u.deref.map fun (us : UInt16) =>
          { ptr with cdr := ptr.cdr.setNum .cdrRecTypeId us.toNat }
      else some ptr
  | _ => some ptr

/-- The CDR that `memset` has cleared. -/
def CdrmCdr.cleared : CdrmCdr := ⟨0, [], CdrT.cleared⟩

/-- `cdrm_json_struct`, or its code for a text that is not parsed; nothing comes of a run that reads
a pointer that was never set. -/
def cdrmJsonStruct (lib : JsonLibrary) (json : CdrmJson) : Option (Except ℤ CdrmCdr) :=
  match lib.parse json.msg with
  | none => some (.error (-3))
  | some jobj => do
      let obj ← jsonExtGetMembers lib jobj (jsonExtNewObj cdrTemp)
      let ptr ← obj.foldlM cdrmCopy CdrmCdr.cleared
      jsonExtDeleteObj obj
      return .ok ptr

/-! ## The round trip -/

/-- The two CDRs agree on the fields of `cdr_temp`; start times agree up to the separator. -/
structure CdrmCdr.Same (ptr other : CdrmCdr) : Prop where
  profileName : other.profileName = ptr.profileName
  text : ∀ field ∈ [CdrText.callUid, .callingNumber, .calledNumber, .srcContext, .dstContext,
    .srcTgroup, .dstTgroup], other.cdr.text field = ptr.cdr.text field
  startTs : sentTs (other.cdr.text .startTs) = sentTs (ptr.cdr.text .startTs)
  num : ∀ field ∈ [CdrNum.cdrRecTypeId, .startEpoch, .answerEpoch, .endEpoch, .billsec, .duration],
    other.cdr.num field = ptr.cdr.num field

/-- `cdrm_json_struct` gives back the CDR that `cdrm_struct_json` was given. -/
def CdrmRoundTrips (lib : JsonLibrary) (ptr : CdrmCdr) : Prop :=
  ∃ decoded, cdrmJsonStruct lib (cdrmStructJson lib ptr).2 = some (.ok decoded) ∧ ptr.Same decoded

theorem sentTs_eq_nil {ts : List Char} : sentTs ts = [] ↔ ts = [] := by
  simp [sentTs, strExtReplaceSymbol, String.toList_map]

/-- The members of a name are not written. -/
def NotWritten (key : String) (obj : List JsonMember) : Prop :=
  ∀ member ∈ obj, member.name = key → member.json = none

namespace NotWritten

variable {key name : String} {obj : List JsonMember}

theorem new (src : List JsonMember) : NotWritten key (jsonExtNewObj src) := by
  intro member mem _
  obtain ⟨old, -, rfl⟩ := List.mem_map.mp mem
  cases old <;> rfl

theorem init (notWritten : NotWritten key obj) (other : name ≠ key) (value : JsonValue)
    (numArr : ℕ) : NotWritten key (jsonExtInitValue name value numArr obj) := by
  intro member mem same
  rcases mem_jsonExtInitValue mem with old | ⟨named, -⟩
  · exact notWritten member old same
  · exact (other (named.symm.trans same)).elim

theorem initText (notWritten : NotWritten key obj) (other : name ≠ key) (text : List Char) :
    NotWritten key (initText name text obj) := notWritten.init other _ _

theorem initUint (notWritten : NotWritten key obj) (other : name ≠ key) (num : ℕ) :
    NotWritten key (initUint name num obj) := notWritten.init other _ _

theorem initTextIf (notWritten : NotWritten key obj) (other : name ≠ key) (text : List Char) :
    NotWritten key (initTextIf name text obj) := by
  rw [RateEngine.initTextIf]
  split
  · exact notWritten
  · exact notWritten.initText other text

theorem initUintIf (notWritten : NotWritten key obj) (other : name ≠ key) (num : ℕ) :
    NotWritten key (initUintIf name num obj) := by
  rw [RateEngine.initUintIf]
  split
  · exact notWritten
  · exact notWritten.initUint other num

theorem get?_eq_none (notWritten : NotWritten key obj) :
    (Json.obj (jsonExtPutObj [] obj)).get? key = none := by
  rw [jsonExtPutObj_eq]
  exact Json.get?_entries_of_none notWritten

end NotWritten

/-- A CDR without a start time is sent without it. -/
theorem notWritten_startTs {ptr : CdrmCdr} (empty : ptr.cdr.text .startTs = []) :
    NotWritten "start_ts" (cdrmObj ptr) := by
  simp only [cdrmObj, if_pos empty]
  iterate 4 refine NotWritten.initTextIf ?_ (by decide) _
  iterate 2 refine NotWritten.initUint ?_ (by decide) _
  iterate 3 refine NotWritten.initUintIf ?_ (by decide) _
  iterate 3 refine NotWritten.initText ?_ (by decide) _
  refine NotWritten.init ?_ (by decide) _ _
  exact (NotWritten.new cdrTemp).initText (by decide) _

theorem CdrT.text_setText_of_ne {field other : CdrText} (ne : other ≠ field) (cdr : CdrT)
    (txt : List Char) : (cdr.setText field txt).text other = cdr.text other :=
  Function.update_of_ne ne _ _

theorem cdrmCopyStr_startTs {ptr copied : CdrmCdr} {name : String} {u : JsonPtr String}
    (copy : cdrmCopyStr ptr name u = some copied) :
    copied.cdr.text .startTs = ptr.cdr.text .startTs := by
  simp only [cdrmCopyStr] at copy
  split_ifs at copy
  · obtain ⟨_, -, rfl⟩ := Option.map_eq_some_iff.mp copy
    rfl
  · obtain ⟨_, -, rfl⟩ := Option.map_eq_some_iff.mp copy
    exact CdrT.text_setText_of_ne (by decide) _ _
  · obtain ⟨_, -, rfl⟩ := Option.map_eq_some_iff.mp copy
    exact CdrT.text_setText_of_ne (by decide) _ _
  · obtain ⟨str, -, rfl⟩ := Option.map_eq_some_iff.mp copy
    cases str with
    | none => rfl
    | some str => exact CdrT.text_setText_of_ne (by decide) _ _
  · cases copy
    rfl

theorem cdrmCopyUint_startTs {ptr copied : CdrmCdr} {name : String} {u : JsonPtr UInt32}
    (copy : cdrmCopyUint ptr name u = some copied) :
    copied.cdr.text .startTs = ptr.cdr.text .startTs := by
  simp only [cdrmCopyUint] at copy
  split_ifs at copy
  case neg =>
    cases copy
    rfl
  all_goals obtain ⟨ui, -, rfl⟩ := Option.map_eq_some_iff.mp copy
  iterate 3
    cases ui <;> rfl
  all_goals rfl

/-- No case of the loop copies the start time. -/
theorem cdrmCopy_startTs {ptr copied : CdrmCdr} {member : JsonMember}
    (copy : cdrmCopy ptr member = some copied) :
    copied.cdr.text .startTs = ptr.cdr.text .startTs := by
  match member with
  | .scalar .str name u => exact cdrmCopyStr_startTs copy
  | .scalar .uint name u => exact cdrmCopyUint_startTs copy
  | .scalar .ushrt name u =>
      rw [cdrmCopy] at copy
      split at copy
      · obtain ⟨_, -, rfl⟩ := Option.map_eq_some_iff.mp copy
        rfl
      · cases copy
        rfl
  | .scalar .datetime _ _ | .scalar .int _ _ | .scalar .double _ _ | .obj _ _ | .arr _ _ _
  | .skipped _ =>
      cases copy
      rfl

theorem foldlM_cdrmCopy_startTs {ptr copied : CdrmCdr} {obj : List JsonMember}
    (copy : obj.foldlM cdrmCopy ptr = some copied) :
    copied.cdr.text .startTs = ptr.cdr.text .startTs := by
  induction obj generalizing ptr with
  | nil =>
      cases copy
      rfl
  | cons member obj induction =>
      rw [List.foldlM_cons] at copy
      obtain ⟨next, first, rest⟩ := Option.bind_eq_some_iff.mp copy
      exact (induction rest).trans (cdrmCopy_startTs first)

/-- What is read has no start time, and it was read from an object with every member of the
template. -/
theorem cdrmJsonStruct_eq_ok {lib : JsonLibrary} {json : CdrmJson} {jobj : Json}
    (parsed : lib.parse json.msg = some jobj) {decoded : CdrmCdr}
    (read : cdrmJsonStruct lib json = some (.ok decoded)) :
    decoded.cdr.text .startTs = [] ∧ jsonPresent jobj (jsonExtNewObj cdrTemp) := by
  rw [cdrmJsonStruct, parsed] at read
  obtain ⟨obj, got, read⟩ := Option.bind_eq_some_iff.mp read
  obtain ⟨ptr, copied, read⟩ := Option.bind_eq_some_iff.mp read
  obtain ⟨⟨⟩, deleted, read⟩ := Option.bind_eq_some_iff.mp read
  cases read
  exact ⟨foldlM_cdrmCopy_startTs copied,
    (jsonExtDeleteObj_get_iff (jsonFresh_new cdrTemp)).mp ⟨obj, got, deleted⟩⟩

/-! ## What comes back -/

/-- No text and no epoch of the CDR is empty. -/
structure CdrmCdr.Complete (ptr : CdrmCdr) : Prop where
  profileName : ptr.profileName ≠ []
  text : ∀ field ∈ [CdrText.callUid, .callingNumber, .calledNumber, .startTs, .srcContext,
    .dstContext, .srcTgroup, .dstTgroup], ptr.cdr.text field ≠ []
  num : ∀ field ∈ [CdrNum.startEpoch, .answerEpoch, .endEpoch], ptr.cdr.num field ≠ 0

/-- The template of a complete CDR. -/
def cdrmFilled (ptr : CdrmCdr) : List JsonMember :=
  let text (name : String) (txt : List Char) : JsonMember :=
    .scalar .str name (.value (String.ofList txt))
  let num (name : String) (field : CdrNum) : JsonMember :=
    .scalar .uint name (.value (UInt32.ofNat (ptr.cdr.num field)))
  [text "cdr-server" ptr.profileName,
    .scalar .ushrt "cdr-rec-type" (.value (UInt16.ofNat (ptr.cdr.num .cdrRecTypeId))),
    text "call-uid" (ptr.cdr.text .callUid),
    text "clg" (ptr.cdr.text .callingNumber),
    text "cld" (ptr.cdr.text .calledNumber),
    text "start_ts" (sentTs (ptr.cdr.text .startTs)),
    num "start_epoch" .startEpoch,
    num "answer_epoch" .answerEpoch,
    num "end_epoch" .endEpoch,
    num "billsec" .billsec,
    num "duration" .duration,
    text "src_context" (ptr.cdr.text .srcContext),
    text "dst_context" (ptr.cdr.text .dstContext),
    text "src_tgroup" (ptr.cdr.text .srcTgroup),
    text "dst_tgroup" (ptr.cdr.text .dstTgroup)]

theorem cdrmObj_of_complete {ptr : CdrmCdr} (complete : ptr.Complete) :
    cdrmObj ptr = cdrmFilled ptr := by
  have text := complete.text
  have num := complete.num
  simp only [List.forall_mem_cons] at text num
  obtain ⟨-, -, -, startTs, srcContext, dstContext, srcTgroup, dstTgroup, -⟩ := text
  obtain ⟨startEpoch, answerEpoch, endEpoch, -⟩ := num
  simp only [cdrmObj, initTextIf, initUintIf, if_neg startTs, if_neg srcContext, if_neg dstContext,
    if_neg srcTgroup, if_neg dstTgroup, if_neg startEpoch, if_neg answerEpoch, if_neg endEpoch]
  simp [initText, initUint, jsonExtInitValue, jsonExtNewObj, cdrTemp, cdrmFilled, JsonMember.name,
    JsonMember.init, JsonMember.new, JsonScalar.store]

theorem eq_of_jsonSame {obj decoded : List JsonMember} (same : jsonSame obj decoded)
    (scalars : ∀ member ∈ obj, ∃ t name u, member = .scalar t name u) : decoded = obj := by
  induction obj generalizing decoded with
  | nil =>
      cases decoded with
      | nil => rfl
      | cons _ _ => exact same.elim
  | cons member obj induction =>
      obtain ⟨⟨t, name, u, rfl⟩, rest⟩ := List.forall_mem_cons.mp scalars
      cases decoded with
      | nil => exact same.elim
      | cons first decoded => rw [same.1, induction same.2 rest]

theorem cdrmFilled_scalars (ptr : CdrmCdr) :
    ∀ member ∈ cdrmFilled ptr, ∃ t name u, member = .scalar t name u := by
  simp [cdrmFilled]

theorem jsonNoRows_of_scalars {obj : List JsonMember}
    (scalars : ∀ member ∈ obj, ∃ t name u, member = .scalar t name u) : jsonNoRows obj := by
  induction obj with
  | nil => trivial
  | cons member obj induction =>
      obtain ⟨⟨t, name, u, rfl⟩, rest⟩ := List.forall_mem_cons.mp scalars
      exact ⟨trivial, induction rest⟩

theorem filled_text {txt : List Char} (nonEmpty : txt ≠ []) (name : String) :
    (JsonMember.scalar .str name (.value (String.ofList txt))).Filled := by
  refine ⟨nofun, _, rfl, fun empty => nonEmpty ?_⟩
  exact String.ofList_injective empty

theorem jsonFilled_cdrmFilled {ptr : CdrmCdr} (complete : ptr.Complete) :
    jsonFilled (cdrmFilled ptr) := by
  have text := complete.text
  simp only [List.forall_mem_cons] at text
  obtain ⟨callUid, clg, cld, startTs, srcContext, dstContext, srcTgroup, dstTgroup, -⟩ := text
  have sent : sentTs (ptr.cdr.text .startTs) ≠ [] := fun empty => startTs (sentTs_eq_nil.mp empty)
  have uint (name : String) (field : CdrNum) :
      (JsonMember.scalar .uint name (.value (UInt32.ofNat (ptr.cdr.num field)))).Filled :=
    ⟨nofun, _, rfl, trivial⟩
  exact ⟨filled_text complete.profileName _, ⟨nofun, _, rfl, trivial⟩, filled_text callUid _,
    filled_text clg _, filled_text cld _, filled_text sent _, uint _ _, uint _ _, uint _ _,
    uint _ _, uint _ _, filled_text srcContext _, filled_text dstContext _,
    filled_text srcTgroup _, filled_text dstTgroup _, trivial⟩

theorem jsonDistinct_cdrmFilled (ptr : CdrmCdr) : jsonDistinct (cdrmFilled ptr) := by
  simp [cdrmFilled, jsonDistinct, JsonMember.Distinct, JsonMember.name]

theorem asUnsigned_num (cdr : CdrT) (field : CdrNum) {modulus : ℤ}
    (width : modulus = 2 ^ field.bits) :
    asUnsigned field.bits (cdr.num field % modulus) = cdr.num field := by
  have below : (cdr.num field : ℤ) < 2 ^ field.bits := by exact_mod_cast cdr.num_lt field
  rw [asUnsigned, width, Int.emod_emod, Int.emod_eq_of_lt (Int.natCast_nonneg _) below,
    Int.toNat_natCast]

/-- The loop of `cdrm_json_struct` on the template of a complete CDR. -/
theorem foldlM_cdrmFilled (ptr : CdrmCdr) :
    ∃ decoded, (cdrmFilled ptr).foldlM cdrmCopy CdrmCdr.cleared = some decoded ∧
      decoded.profileName = ptr.profileName ∧
      (∀ field ∈ [CdrText.callUid, .callingNumber, .calledNumber],
        decoded.cdr.text field = ptr.cdr.text field) ∧
      (∀ field ∈ [CdrText.startTs, .srcContext, .dstContext, .srcTgroup, .dstTgroup],
        decoded.cdr.text field = []) ∧
      ∀ field ∈ [CdrNum.cdrRecTypeId, .startEpoch, .answerEpoch, .endEpoch, .billsec, .duration],
        decoded.cdr.num field = ptr.cdr.num field := by
  refine ⟨_, rfl, String.toList_ofList, ?_, ?_, ?_⟩
  · simp [CdrT.setText, CdrT.setNum]
  · simp [CdrT.setText, CdrT.setNum, CdrmCdr.cleared, CdrT.cleared]
  · simp [CdrT.setText, CdrT.setNum]
    exact ⟨asUnsigned_num _ _ rfl, asUnsigned_num _ _ rfl, asUnsigned_num _ _ rfl,
      asUnsigned_num _ _ rfl, asUnsigned_num _ _ rfl, asUnsigned_num _ _ rfl⟩

/-- A complete CDR comes back without its start time, its contexts and its trunk groups. -/
theorem cdrmJsonStruct_of_complete {lib : JsonLibrary} {ptr : CdrmCdr} (complete : ptr.Complete)
    (parsed : lib.parse (cdrmStructJson lib ptr).2.msg =
      some (.obj (jsonExtPutObj [] (cdrmObj ptr)))) :
    ∃ decoded, cdrmJsonStruct lib (cdrmStructJson lib ptr).2 = some (.ok decoded) ∧
      decoded.profileName = ptr.profileName ∧
      (∀ field ∈ [CdrText.callUid, .callingNumber, .calledNumber],
        decoded.cdr.text field = ptr.cdr.text field) ∧
      (∀ field ∈ [CdrText.startTs, .srcContext, .dstContext, .srcTgroup, .dstTgroup],
        decoded.cdr.text field = []) ∧
      ∀ field ∈ [CdrNum.cdrRecTypeId, .startEpoch, .answerEpoch, .endEpoch, .billsec, .duration],
        decoded.cdr.num field = ptr.cdr.num field := by
  have filled := jsonFilled_cdrmFilled complete
  have distinct := jsonDistinct_cdrmFilled ptr
  have scalars := cdrmFilled_scalars ptr
  rw [cdrmObj_of_complete complete] at parsed
  have found : ∀ member ∈ cdrmFilled ptr,
      (Json.obj (jsonExtPutObj [] (cdrmFilled ptr))).get? member.name = member.json :=
    fun member mem => by
      obtain ⟨value, written⟩ := JsonMember.exists_json (jsonFilled_iff.mp filled member mem)
      rw [written]
      exact get?_put (nodup_of_jsonDistinct distinct) mem written
  have read : ∃ decoded, jsonExtGetMembers lib _ (jsonExtCopyObj false (cdrmFilled ptr)) =
      some decoded ∧ jsonSame (cdrmFilled ptr) decoded :=
    jsonExtGetMembers_copy false _ filled distinct (jsonNoRows_of_scalars scalars) found
  obtain ⟨obj, got, same⟩ := read
  obtain rfl := eq_of_jsonSame same scalars
  obtain ⟨decoded, copied, fields⟩ := foldlM_cdrmFilled ptr
  refine ⟨decoded, ?_, fields⟩
  have temp : jsonExtCopyObj false (cdrmFilled ptr) = jsonExtNewObj cdrTemp := rfl
  have deleted : jsonExtDeleteObj (cdrmFilled ptr) = some () := rfl
  rw [temp] at got
  simp [cdrmJsonStruct, parsed, got, copied, deleted]

/-- No CDR makes the round trip: the start time is not read back, and a CDR without one is
not read at all. -/
theorem not_cdrmRoundTrips {lib : JsonLibrary} {ptr : CdrmCdr}
    (parsed : lib.parse (cdrmStructJson lib ptr).2.msg =
      some (.obj (jsonExtPutObj [] (cdrmObj ptr)))) :
    ¬ CdrmRoundTrips lib ptr := by
  rintro ⟨decoded, read, same⟩
  obtain ⟨unread, present⟩ := cdrmJsonStruct_eq_ok parsed read
  have empty : ptr.cdr.text .startTs = [] := by
    have sent := same.startTs
    rw [unread] at sent
    exact sentTs_eq_nil.mp (sent.symm.trans (sentTs_eq_nil.mpr rfl))
  have absent := (notWritten_startTs empty).get?_eq_none
  exact present.2.2.2.2.2.1 absent

/-- A CDR with a value in every field. -/
def callCdr : CdrmCdr :=
  let text (field : CdrText) (txt : String) (cdr : CdrT) : CdrT := cdr.setText field txt.toList
  let num (field : CdrNum) (n : ℤ) (cdr : CdrT) : CdrT := cdr.setNum field n
  let cdr := text .callUid "1111" (text .callingNumber "359112" (text .calledNumber "359111"
    (text .startTs "2013-05-20 13:45:45" CdrT.cleared)))
  let cdr := num .cdrRecTypeId 3 (num .startEpoch 1369046745 (num .answerEpoch 1369046755
    (num .endEpoch 1369046775 (num .billsec 20 (num .duration 30 cdr)))))
  let cdr := text .srcContext "in" (text .dstContext "out" (text .srcTgroup "a"
    (text .dstTgroup "b" cdr)))
  ⟨7, "pgsql".toList, cdr⟩

/-- The message of `callCdr`. -/
def callText : String :=
  "\x7b\"cdr-server\":\"pgsql\",\"cdr-rec-type\":3,\"call-uid\":\"1111\"," ++
    "\"clg\":\"359112\",\"cld\":\"359111\",\"start_ts\":\"2013-05-20T13:45:45\"," ++
    "\"start_epoch\":1369046745,\"answer_epoch\":1369046755,\"end_epoch\":1369046775," ++
    "\"billsec\":20,\"duration\":30,\"src_context\":\"in\",\"dst_context\":\"out\"," ++
    "\"src_tgroup\":\"a\",\"dst_tgroup\":\"b\"\x7d"

/-- A library that writes and reads the message of `callCdr`. -/
def callLibrary : JsonLibrary := .ofText callText (.obj (jsonExtPutObj [] (cdrmObj callCdr)))

theorem parse_callText :
    callLibrary.parse (cdrmStructJson callLibrary callCdr).2.msg =
      some (.obj (jsonExtPutObj [] (cdrmObj callCdr))) :=
  JsonLibrary.parse_ofText callText _

theorem not_cdrmRoundTrips_call : ¬ CdrmRoundTrips callLibrary callCdr :=
  not_cdrmRoundTrips parse_callText

theorem not_forall_cdrmRoundTrips :
    ¬ ∀ (lib : JsonLibrary) (ptr : CdrmCdr),
      lib.parse (cdrmStructJson lib ptr).2.msg = some (.obj (jsonExtPutObj [] (cdrmObj ptr))) →
      CdrmRoundTrips lib ptr := by
  intro roundTrips
  obtain ⟨decoded, read, same⟩ := roundTrips callLibrary callCdr parse_callText
  have sent := same.startTs
  rw [(cdrmJsonStruct_eq_ok parse_callText read).1, sentTs_eq_nil.mpr rfl] at sent
  have startTs : callCdr.cdr.text .startTs ≠ [] := by decide
  exact startTs (sentTs_eq_nil.mp sent.symm)

end RateEngine
