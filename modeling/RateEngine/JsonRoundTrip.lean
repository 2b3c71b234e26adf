import RateEngine.JsonExt

/-!
# Round trips through a template

A template whose members have values is written as a JSON object and read back into a fresh copy of
the template.  Scalars and nested objects of any depth come back.  The rows of an array do not: an
array is read only when its pointer is `NULL`, and then there are no columns to read it into.
-/

namespace RateEngine

/-! ## What a template writes -/

/-- The JSON value that is written for a text, if any. -/
def jsonText (str : String) : Option Json := if str = "" then none else some (.str str)

/-- The JSON value that is written for a value, if any. -/
def JsonScalar.json : (t : JsonScalar) → t.Value → Option Json
  | str, s | datetime, s => jsonText s
  | ushrt, num => some (jsonObjectNewInt num.toUInt32.toInt32)
  | int, num => some (jsonObjectNewInt num)
  | uint, ui => some (jsonObjectNewInt ui.toInt32)
  | double, dnum => some (.double dnum)

/-- The JSON value that is written for a pointer, if any. -/
def JsonPtr.json {α : Type} (write : α → Option Json) : JsonPtr α → Option Json
  | value a => write a
  | null | unset => none

/-- The JSON value that is written for a member, if any. -/
def JsonMember.json : JsonMember → Option Json
  | scalar t _ u => u.json t.json
  | obj _ (some members) => some (.obj (jsonExtPutObj [] members))
  | arr _ numArr (some columns) => some (.arr (jsonRows columns numArr))
  | _ => none

theorem jsonExtPutStr_eq (name : String) (u : JsonPtr String) (jobj : List (String × Json)) :
    jsonExtPutStr name u jobj =
      (u.json jsonText).elim jobj fun value => Json.add name value jobj := by
  cases u with
  | value str =>
      rw [jsonExtPutStr, JsonPtr.json, jsonText]
      split <;> rfl
  | _ => rfl

theorem jsonExtPut_eq {α : Type} (write : α → Json) (name : String) (u : JsonPtr α)
    (jobj : List (String × Json)) :
    jsonExtPut write name u jobj =
      (u.json fun a => some (write a)).elim jobj fun value => Json.add name value jobj := by
  cases u <;> rfl

theorem isValue_of_jsonText {str : String} {value : Json} (written : jsonText str = some value) :
    value.IsValue := by
  rw [jsonText] at written
  split at written
  · nomatch written
  · cases written
    trivial

theorem JsonScalar.put_eq (t : JsonScalar) (name : String) (u : JsonPtr t.Value)
    (jobj : List (String × Json)) :
    t.put name u jobj = (u.json t.json).elim jobj fun value => Json.add name value jobj := by
  cases t with
  | str | datetime => exact jsonExtPutStr_eq name u jobj
  | _ => exact jsonExtPut_eq _ name u jobj

theorem JsonScalar.isValue_of_json {t : JsonScalar} {a : t.Value} {value : Json}
    (written : t.json a = some value) : value.IsValue := by
  cases t with
  | str | datetime => exact isValue_of_jsonText written
  | _ =>
      cases written
      trivial

theorem JsonMember.isValue_of_json {member : JsonMember} {value : Json}
    (written : member.json = some value) : value.IsValue := by
  match member with
  | .scalar _ _ (.value _) => exact JsonScalar.isValue_of_json written
  | .scalar _ _ .null | .scalar _ _ .unset | .obj _ none | .arr _ _ none | .skipped _ =>
      nomatch written
  | .obj _ (some _) | .arr _ _ (some _) =>
      cases written
      trivial

theorem jsonExtPutMember_eq (jobj : List (String × Json)) (member : JsonMember) :
    jsonExtPutMember jobj member =
      member.json.elim jobj fun value => Json.add member.name value jobj := by
  match member with
  | .scalar t name u => exact t.put_eq name u jobj
  | .obj _ none | .obj _ (some _) | .arr _ _ none | .arr _ _ (some _) | .skipped _ => rfl

/-- A template is written by adding its entries in turn. -/
theorem jsonExtPutObj_eq (jobj : List (String × Json)) (obj : List JsonMember) :
    jsonExtPutObj jobj obj = Json.addAll jobj
      (Json.entries JsonMember.name JsonMember.json obj) := by
  induction obj generalizing jobj with
  | nil => rfl
  | cons member obj induction =>
      rw [jsonExtPutObj, induction, jsonExtPutMember_eq, Json.entries, Json.entries,
        List.filterMap_cons]
      cases member.json <;> rfl

/-- With distinct names every member that is written is found. -/
theorem get?_put {obj : List JsonMember} (distinct : (obj.map JsonMember.name).Nodup)
    {member : JsonMember} (mem : member ∈ obj) {value : Json} (written : member.json = some value) :
    (Json.obj (jsonExtPutObj [] obj)).get? member.name = some value := by
  rw [jsonExtPutObj_eq]
  exact Json.get?_entries distinct mem written (JsonMember.isValue_of_json written)

/-! ## Templates with values -/

/-- The value is not the empty text. -/
def JsonScalar.NonEmpty : (t : JsonScalar) → t.Value → Prop
  | str, s | datetime, s => s ≠ ""
  | ushrt, _ | int, _ | uint, _ | double, _ => True

/-- The cell is not the empty text. -/
def JsonColumnType.NonEmpty : (t : JsonColumnType) → t.Value → Prop
  | strArr, s => s ≠ ""
  | intArr, _ | double, _ | doubleArr, _ => True

/-- A column of strings, integers or doubles with a value in each row. -/
def JsonColumn.Filled (numArr : ℕ) : JsonColumn → Prop
  | column t _ (.inline cells) =>
      t ≠ .doubleArr ∧ cells.length = numArr ∧ ∀ cell ∈ cells, t.NonEmpty cell
  | _ => False

/-- The column cut down to one row. -/
def JsonColumn.row (c : ℕ) : JsonColumn → JsonColumn
  | column t name u => column t name (.pointers [u.cell c])
  | skipped name => skipped name

mutual

/-- A string, a number, an object or an array, with values that are not empty. -/
def JsonMember.Filled : JsonMember → Prop
  | .scalar t _ u => t ≠ .datetime ∧ ∃ a, u = .value a ∧ t.NonEmpty a
  | .obj _ (some members) => jsonFilled members
  | .obj _ none => False
  | .arr _ numArr (some columns) => ∀ column ∈ columns, column.Filled numArr
  | .arr _ _ none => False
  | .skipped _ => False

/-- Every member of the template has values that are not empty. -/
def jsonFilled : List JsonMember → Prop
  | [] => True
  | member :: obj => member.Filled ∧ jsonFilled obj

end

mutual

/-- The member is no array with rows and holds none. -/
def JsonMember.NoRows : JsonMember → Prop
  | .obj _ (some members) => jsonNoRows members
  | .arr _ numArr _ => numArr = 0
  | .scalar _ _ _ | .obj _ none | .skipped _ => True

/-- No array of the template, at any depth, has rows. -/
def jsonNoRows : List JsonMember → Prop
  | [] => True
  | member :: obj => member.NoRows ∧ jsonNoRows obj

end

mutual

/-- The two members have the same values. -/
def JsonMember.Same : JsonMember → JsonMember → Prop
  | .scalar t name u, other => other = .scalar t name u
  | .obj name (some members), .obj name' (some members') => name = name' ∧ jsonSame members members'
  | .obj _ none, .obj _ none => True
  | .arr name numArr u, .arr name' numArr' u' =>
      name = name' ∧ numArr = numArr' ∧
        ∀ c < numArr, u.map (List.map (JsonColumn.row c)) = u'.map (List.map (JsonColumn.row c))
  | .skipped name, .skipped name' => name = name'
  | _, _ => False

/-- The two templates have the same values. -/
def jsonSame : List JsonMember → List JsonMember → Prop
  | [], [] => True
  | member :: obj, member' :: obj' => member.Same member' ∧ jsonSame obj obj'
  | _, _ => False

end

mutual

/-- The names in a nested object differ. -/
def JsonMember.Distinct : JsonMember → Prop
  | .obj _ (some members) => jsonDistinct members
  | .scalar _ _ _ | .obj _ none | .arr _ _ _ | .skipped _ => True

/-- The names of the template differ at every depth. -/
def jsonDistinct : List JsonMember → Prop
  | [] => True
  | member :: obj => member.name ∉ obj.map JsonMember.name ∧ member.Distinct ∧ jsonDistinct obj

end

mutual

/-- The fresh copy of a member; `columns` tells whether the template of an array is attached. -/
def JsonMember.copy (columns : Bool) : JsonMember → JsonMember
  | .scalar t name _ => .scalar t name .null
  | .obj name (some members) => .obj name (some (jsonExtCopyObj columns members))
  | .obj name none => .obj name none
  | .arr name _ u => .arr name 0 (if columns then u.map (List.map JsonColumn.new) else none)
  | .skipped name => .skipped name

/-- A fresh copy of a template: `json_ext_new_obj` at each level, the copies of nested templates
attached by `json_ext_init_value`. -/
def jsonExtCopyObj (columns : Bool) : List JsonMember → List JsonMember
  | [] => []
  | member :: obj => member.copy columns :: jsonExtCopyObj columns obj

end

theorem nodup_of_jsonDistinct {obj : List JsonMember} (distinct : jsonDistinct obj) :
    (obj.map JsonMember.name).Nodup := by
  induction obj with
  | nil => exact List.nodup_nil
  | cons member obj induction =>
      rw [List.map_cons, List.nodup_cons]
      exact ⟨distinct.1, induction distinct.2.2⟩

theorem jsonFilled_iff {obj : List JsonMember} :
    jsonFilled obj ↔ ∀ member ∈ obj, member.Filled := by
  induction obj with
  | nil => simp [jsonFilled]
  | cons member obj induction => rw [jsonFilled, List.forall_mem_cons, induction]

/-! ## Reading back -/

variable {lib : JsonLibrary}

theorem jsonExtGet_of_found {α : Type} (convert : Json → α) {name : String} {jobj value : Json}
    (found : jobj.get? name = some value) :
    jsonExtGet convert name jobj = .value (convert value) := by
  rw [jsonExtGet, found, Option.elim_some]

theorem getInt_new (n : Int32) : lib.getInt (jsonObjectNewInt n) = n := lib.getInt_int n

theorem getUint_new (ui : UInt32) : (lib.getInt (jsonObjectNewInt ui.toInt32)).toUInt32 = ui := by
  rw [getInt_new, UInt32.toUInt32_toInt32]

theorem getUshrt_new (num : UInt16) :
    (lib.getInt (jsonObjectNewInt num.toUInt32.toInt32)).toUInt32.toUInt16 = num := by
  rw [getUint_new, UInt16.toUInt16_toUInt32]

theorem getString_text {str : String} {value : Json} (written : jsonText str = some value) :
    lib.getString value = str := by
  rw [jsonText] at written
  split at written
  · nomatch written
  · cases written
    exact lib.getString_str str

/-- The getter of a type inverts the writer. -/
theorem JsonScalar.get_of_json {t : JsonScalar} (read : t ≠ .datetime) {a : t.Value} {value : Json}
    (written : t.json a = some value) {name : String} {jobj : Json}
    (found : jobj.get? name = some value) : t.get lib name jobj = some (.value a) := by
  cases t with
  | datetime => exact (read rfl).elim
  | str =>
      have got := jsonExtGet_of_found lib.getString found
      exact congrArg some (got.trans (congrArg JsonPtr.value (getString_text written)))
  | int =>
      obtain rfl := Option.some.inj written
      have got := jsonExtGet_of_found lib.getInt found
      exact congrArg some (got.trans (congrArg JsonPtr.value (getInt_new a)))
  | uint =>
      obtain rfl := Option.some.inj written
      have got := jsonExtGet_of_found (fun tmp => (lib.getInt tmp).toUInt32) found
      exact congrArg some (got.trans (congrArg JsonPtr.value (getUint_new a)))
  | ushrt =>
      obtain rfl := Option.some.inj written
      have got := jsonExtGet_of_found (fun tmp => (lib.getInt tmp).toUInt32.toUInt16) found
      exact congrArg some (got.trans (congrArg JsonPtr.value (getUshrt_new a)))
  | double =>
      obtain rfl := Option.some.inj written
      have got := jsonExtGet_of_found lib.getDouble found
      exact congrArg some (got.trans (congrArg JsonPtr.value (lib.getDouble_double a)))

theorem JsonMember.exists_json {member : JsonMember} (filled : member.Filled) :
    ∃ value, member.json = some value := by
  match member with
  | .scalar t _ u =>
      obtain ⟨-, a, rfl, nonEmpty⟩ := filled
      cases t with
      | str | datetime => exact ⟨_, if_neg nonEmpty⟩
      | _ => exact ⟨_, rfl⟩
  | .obj _ (some _) | .arr _ _ (some _) => exact ⟨_, rfl⟩

mutual

/-- A member without rows is read back from the object that holds its JSON value. -/
theorem JsonMember.get_copy (columns : Bool) {jobj : Json} (member : JsonMember)
    (filled : member.Filled) (distinct : member.Distinct) (noRows : member.NoRows)
    (found : jobj.get? member.name = member.json) :
    ∃ decoded, jsonExtGetMember lib jobj (member.copy columns) = some decoded ∧
      member.Same decoded := by
  match member with
  | .scalar t name u =>
      obtain ⟨value, written⟩ := JsonMember.exists_json filled
      obtain ⟨read, a, rfl, -⟩ := filled
      have got : t.get lib name jobj = some (.value a) :=
        JsonScalar.get_of_json read written (found.trans written)
      refine ⟨.scalar t name (.value a), ?_, rfl⟩
      simp [JsonMember.copy, jsonExtGetMember, JsonPtr.read, got]
  | .obj name (some members) =>
      have inner := jsonExtGetMembers_copy columns members filled distinct noRows
        fun _ mem => by
          obtain ⟨value, written⟩ := JsonMember.exists_json (jsonFilled_iff.mp filled _ mem)
          rw [written]
          exact get?_put (nodup_of_jsonDistinct distinct) mem written
      obtain ⟨decoded, got, same⟩ := inner
      refine ⟨.obj name (some decoded), ?_, rfl, same⟩
      simp only [JsonMember.name, JsonMember.json] at found
      simp [JsonMember.copy, jsonExtGetMember, found, got]
  | .arr name numArr u =>
      obtain rfl : numArr = 0 := noRows
      have none_below : ∀ c < 0, ∀ u u' : Option (List JsonColumn),
          u.map (List.map (JsonColumn.row c)) = u'.map (List.map (JsonColumn.row c)) :=
        fun c below => absurd below (Nat.not_lt_zero c)
      rcases columns with - | -
      · exact ⟨.arr name 0 none, rfl, rfl, rfl, fun c below => none_below c below _ _⟩
      · cases u with
        | none => exact filled.elim
        | some columns =>
            exact ⟨_, rfl, rfl, rfl, fun c below => none_below c below _ _⟩

/-- A template without rows is read back from an object that holds the JSON values
of its members. -/
theorem jsonExtGetMembers_copy (columns : Bool) {jobj : Json} (obj : List JsonMember)
    (filled : jsonFilled obj) (distinct : jsonDistinct obj) (noRows : jsonNoRows obj)
    (found : ∀ member ∈ obj, jobj.get? member.name = member.json) :
    ∃ decoded, jsonExtGetMembers lib jobj (jsonExtCopyObj columns obj) = some decoded ∧
      jsonSame obj decoded := by
  match obj with
  | [] => exact ⟨[], rfl, trivial⟩
  | member :: obj =>
      obtain ⟨first, gotFirst, sameFirst⟩ :=
        JsonMember.get_copy columns member filled.1 distinct.2.1 noRows.1
          (found _ List.mem_cons_self)
      obtain ⟨rest, gotRest, sameRest⟩ :=
        jsonExtGetMembers_copy columns obj filled.2 distinct.2.2 noRows.2
          fun member mem => found member (List.mem_cons_of_mem _ mem)
      refine ⟨first :: rest, ?_, sameFirst, sameRest⟩
      simp [jsonExtCopyObj, jsonExtGetMembers, gotFirst, gotRest]

end

/-! ## Reading brings no rows -/

mutual

theorem JsonMember.noRows_copy (columns : Bool) (member : JsonMember) :
    (member.copy columns).NoRows := by
  match member with
  | .scalar _ _ _ | .obj _ none | .skipped _ => trivial
  | .arr _ _ _ => rfl
  | .obj _ (some members) => exact jsonNoRows_copy columns members

theorem jsonNoRows_copy (columns : Bool) (obj : List JsonMember) :
    jsonNoRows (jsonExtCopyObj columns obj) := by
  match obj with
  | [] => trivial
  | member :: obj => exact ⟨member.noRows_copy columns, jsonNoRows_copy columns obj⟩

end

mutual

/-- A template that has columns is not read into, and one that has none gets no rows. -/
theorem JsonMember.noRows_get {jobj : Json} (member : JsonMember) {decoded : JsonMember}
    (noRows : member.NoRows) (got : jsonExtGetMember lib jobj member = some decoded) :
    decoded.NoRows := by
  match member with
  | .scalar t name u =>
      obtain ⟨held, -, got⟩ := Option.bind_eq_some_iff.mp got
      cases held with
      | some _ =>
          cases got
          trivial
      | none =>
          obtain ⟨_, -, rfl⟩ := Option.map_eq_some_iff.mp got
          trivial
  | .obj name (some members) =>
      rw [jsonExtGetMember] at got
      split at got
      · cases got
        exact noRows
      · obtain ⟨inner, gotInner, rfl⟩ := Option.map_eq_some_iff.mp got
        exact jsonNoRows_get members noRows gotInner
  | .obj name none | .skipped name =>
      cases got
      trivial
  | .arr name numArr none =>
      cases got
      rfl
  | .arr name numArr (some columns) =>
      cases got
      exact noRows

theorem jsonNoRows_get {jobj : Json} (obj : List JsonMember) {decoded : List JsonMember}
    (noRows : jsonNoRows obj) (got : jsonExtGetMembers lib jobj obj = some decoded) :
    jsonNoRows decoded := by
  match obj with
  | [] =>
      cases got
      trivial
  | member :: obj =>
      obtain ⟨first, gotFirst, got⟩ := Option.bind_eq_some_iff.mp got
      obtain ⟨rest, gotRest, rfl⟩ := Option.map_eq_some_iff.mp got
      exact ⟨member.noRows_get noRows.1 gotFirst, jsonNoRows_get obj noRows.2 gotRest⟩

end

mutual

theorem JsonMember.noRows_of_same (member : JsonMember) {other : JsonMember}
    (same : member.Same other) (noRows : other.NoRows) : member.NoRows := by
  match member, other with
  | .scalar _ _ _, _ | .obj _ none, _ | .skipped _, _ => trivial
  | .arr _ _ _, .arr _ _ _ => exact same.2.1.trans noRows
  | .obj _ (some members), .obj _ (some _) => exact jsonNoRows_of_same members same.2 noRows

theorem jsonNoRows_of_same (obj : List JsonMember) {other : List JsonMember}
    (same : jsonSame obj other) (noRows : jsonNoRows other) : jsonNoRows obj := by
  match obj, other with
  | [], _ => trivial
  | member :: obj, _ :: _ =>
      exact ⟨member.noRows_of_same same.1 noRows.1, jsonNoRows_of_same obj same.2 noRows.2⟩

end

/-! ## Rows that are given columns -/

/-- The JSON value that a row gets from a column, if any. -/
def JsonColumn.json (c : ℕ) : JsonColumn → Option Json
  | column .strArr _ u => (u.cell c).json jsonText
  | column .intArr _ u => (u.cell c).json fun num => some (jsonObjectNewInt num)
  | column .double _ u => (u.cell c).json fun dnum => some (.double dnum)
  | column .doubleArr _ _ | skipped _ => none

theorem JsonColumn.put_eq (c : ℕ) (jobj : List (String × Json)) (column : JsonColumn) :
    column.put c jobj = (column.json c).elim jobj fun value => Json.add column.name value jobj := by
  match column with
  | .column .strArr name u => exact jsonExtPutStr_eq name (u.cell c) jobj
  | .column .intArr name u | .column .double name u => exact jsonExtPut_eq _ name (u.cell c) jobj
  | .column .doubleArr _ _ | .skipped _ => rfl

theorem foldl_put_eq (c : ℕ) (jobj : List (String × Json)) (columns : List JsonColumn) :
    columns.foldl (JsonColumn.put c) jobj =
      Json.addAll jobj (Json.entries JsonColumn.name (JsonColumn.json c) columns) := by
  induction columns generalizing jobj with
  | nil => rfl
  | cons column columns induction =>
      rw [List.foldl_cons, induction, JsonColumn.put_eq, Json.entries, Json.entries,
        List.filterMap_cons]
      cases column.json c <;> rfl

theorem getElem?_jsonRows (columns : List JsonColumn) {numArr c : ℕ} (below : c < numArr) :
    (jsonRows columns numArr)[c]? =
      some (.obj (Json.addAll [] (Json.entries JsonColumn.name (JsonColumn.json c) columns))) := by
  rw [jsonRows, List.getElem?_map, List.getElem?_range below, Option.map_some, foldl_put_eq]

theorem JsonCells.cell_inline {α : Type} {cells : List α} {c : ℕ} (below : c < cells.length) :
    (inline cells).cell c = .value cells[c] := by
  rw [cell, List.getElem?_eq_getElem below, Option.elim_some]

/-- A column that is read from rows in which it has the value `value`. -/
theorem JsonCells.cell_pointers {α : Type} (convert : Json → α) {name : String} {rows : List Json}
    {row value : Json} {c : ℕ} (at_c : rows[c]? = some row) (found : row.get? name = some value) :
    (pointers (rows.map (jsonExtGet convert name))).cell c = .value (convert value) := by
  rw [cell, List.getD_eq_getElem?_getD, List.getElem?_map, at_c]
  exact jsonExtGet_of_found convert found

/-- A column that is written and read by its type gets its values back in every row. -/
theorem JsonColumn.row_get {columns : List JsonColumn} {numArr c : ℕ} (below : c < numArr)
    (distinct : (columns.map JsonColumn.name).Nodup) {column : JsonColumn} (mem : column ∈ columns)
    (read : ∀ name u, column ≠ .column .double name u) (filled : column.Filled numArr) :
    (column.new.get lib (jsonRows columns numArr)).row c = column.row c := by
  have row := getElem?_jsonRows columns below
  have found (value : Json) (written : column.json c = some value) (isValue : value.IsValue) :=
    Json.get?_entries distinct mem written isValue
  match column with
  | .column .double name u => exact (read name u rfl).elim
  | .column .doubleArr name (.inline cells) => exact (filled.1 rfl).elim
  | .column .intArr name (.inline cells) =>
      obtain ⟨-, rfl, -⟩ := filled
      have cell := JsonCells.cell_inline below
      have written : (JsonColumn.column .intArr name (.inline cells)).json c =
          some (jsonObjectNewInt cells[c]) :=
        congrArg (JsonPtr.json fun num => some (jsonObjectNewInt num)) cell
      have got := JsonCells.cell_pointers lib.getInt row (found _ written trivial)
      have same := got.trans ((congrArg JsonPtr.value (getInt_new _)).trans cell.symm)
      exact congrArg (fun cell => JsonColumn.column .intArr name (.pointers [cell])) same
  | .column .strArr name (.inline cells) =>
      obtain ⟨-, rfl, nonEmpty⟩ := filled
      have cell := JsonCells.cell_inline below
      have text : jsonText cells[c] = some (.str cells[c]) :=
        if_neg (nonEmpty _ (List.getElem_mem _))
      have written : (JsonColumn.column .strArr name (.inline cells)).json c =
          some (.str cells[c]) :=
        (congrArg (JsonPtr.json jsonText) cell).trans text
      have got := JsonCells.cell_pointers lib.getString row (found _ written trivial)
      have same := got.trans ((congrArg JsonPtr.value (getString_text text)).trans cell.symm)
      exact congrArg (fun cell => JsonColumn.column .strArr name (.pointers [cell])) same

/-- `json_ext_get_array` reads the rows of `json_ext_put_array` when it is given the columns, except
for columns of doubles; `json_ext_get_obj` gives it none. -/
theorem jsonExtGetArray_put {columns : List JsonColumn} {numArr : ℕ}
    (filled : ∀ column ∈ columns, column.Filled numArr)
    (distinct : (columns.map JsonColumn.name).Nodup)
    (read : ∀ name u, .column .double name u ∉ columns) {jobj : Json} {name : String}
    (found : jobj.get? name = some (.arr (jsonRows columns numArr))) :
    ∃ decoded, jsonExtGetArray lib jobj name (some (columns.map JsonColumn.new)) =
        (numArr, some decoded) ∧
      ∀ c < numArr, decoded.map (JsonColumn.row c) = columns.map (JsonColumn.row c) := by
  have length : (jsonRows columns numArr).length = numArr := by simp [jsonRows]
  rw [jsonExtGetArray, found, Option.map_some, Json.elements]
  split
  · rename_i empty
    nomatch empty
  · rename_i empty
    rw [Option.some.inj empty, List.length_nil] at length
    subst length
    exact ⟨_, rfl, fun c below => absurd below (Nat.not_lt_zero c)⟩
  · rename_i rows eq
    obtain rfl := Option.some.inj eq
    rw [length, List.map_map]
    refine ⟨_, rfl, fun c below => ?_⟩
    rw [List.map_map]
    refine List.map_congr_left fun column mem => ?_
    refine JsonColumn.row_get below distinct mem (fun name u same => ?_) (filled column mem)
    exact read name u (same ▸ mem)

/-! ## Templates filled by `json_ext_init_value` -/

/-- The template is a copy that calls of `json_ext_init_value` have given values, and so are the
templates of its objects. -/
inductive JsonAssigned : List JsonMember → Prop
  | new (src : List JsonMember) : JsonAssigned (jsonExtNewObj src)
  | init {obj : List JsonMember} (name : String) (value : JsonValue) (numArr : ℕ)
      (assigned : JsonAssigned obj)
      (nested : ∀ members, value = .obj members → JsonAssigned members) :
      JsonAssigned (jsonExtInitValue name value numArr obj)

@[simp]
theorem JsonMember.name_init (value : JsonValue) (numArr : ℕ) (member : JsonMember) :
    (member.init value numArr).name = member.name := by
  cases member with
  | scalar t name u =>
      cases value with
      | scalar t' a =>
          rw [init]
          split <;> rfl
      | _ => rfl
  | _ => cases value <;> rfl

theorem JsonMember.not_filled_new (member : JsonMember) : ¬ member.new.Filled := by
  cases member with
  | scalar t name u =>
      rintro ⟨-, a, value, -⟩
      nomatch value
  | _ => exact id

theorem JsonMember.obj_of_init {value : JsonValue} {numArr : ℕ} {member : JsonMember}
    {name : String} {members : List JsonMember}
    (eq : member.init value numArr = .obj name (some members)) :
    member = .obj name (some members) ∨ value = .obj members := by
  cases member with
  | scalar t name' u =>
      cases value with
      | scalar t' a =>
          rw [init] at eq
          split at eq <;> nomatch eq
      | _ => nomatch eq
  | obj name' u =>
      cases value with
      | obj _ =>
          cases eq
          exact .inr rfl
      | _ => exact .inl eq
  | arr name' num u => cases value <;> nomatch eq
  | skipped name' => nomatch eq

theorem mem_jsonExtInitValue {name : String} {value : JsonValue} {numArr : ℕ}
    {obj : List JsonMember} {member : JsonMember}
    (mem : member ∈ jsonExtInitValue name value numArr obj) :
    member ∈ obj ∨ member.name = name ∧ ∃ old ∈ obj, member = old.init value numArr := by
  induction obj with
  | nil => exact .inl mem
  | cons first obj induction =>
      rw [jsonExtInitValue] at mem
      split at mem
      · rename_i named
        rcases List.mem_cons.mp mem with rfl | later
        · exact .inr ⟨by rw [JsonMember.name_init, named], first, List.mem_cons_self, rfl⟩
        · exact .inl (List.mem_cons_of_mem _ later)
      · rcases List.mem_cons.mp mem with rfl | later
        · exact .inl List.mem_cons_self
        · rcases induction later with old | ⟨named, old, memOld, eq⟩
          · exact .inl (List.mem_cons_of_mem _ old)
          · exact .inr ⟨named, old, List.mem_cons_of_mem _ memOld, eq⟩

/-- No member has a value when another one of its name stands before it. -/
def FirstOfNameFilled (obj : List JsonMember) : Prop :=
  obj.Pairwise fun member later => member.name = later.name → ¬ later.Filled

theorem FirstOfNameFilled.init {obj : List JsonMember} (first : FirstOfNameFilled obj)
    (name : String) (value : JsonValue) (numArr : ℕ) :
    FirstOfNameFilled (jsonExtInitValue name value numArr obj) := by
  induction obj with
  | nil => exact first
  | cons member obj induction =>
      obtain ⟨head, tail⟩ := List.pairwise_cons.mp first
      rw [jsonExtInitValue]
      split
      · refine List.pairwise_cons.mpr ⟨fun later mem => ?_, tail⟩
        rw [JsonMember.name_init]
        exact head later mem
      · rename_i other
        refine List.pairwise_cons.mpr ⟨fun later mem same => ?_, induction tail⟩
        rcases mem_jsonExtInitValue mem with old | ⟨named, -⟩
        · exact head later old same
        · exact (other (same.trans named)).elim

theorem JsonAssigned.firstOfNameFilled {obj : List JsonMember} (assigned : JsonAssigned obj) :
    FirstOfNameFilled obj := by
  induction assigned with
  | new src =>
      refine List.pairwise_map.mpr (List.pairwise_of_forall fun member later => ?_)
      exact fun _ => later.not_filled_new
  | init name value numArr _ _ induction _ => exact induction.init name value numArr

theorem jsonDistinct_of_nested {obj : List JsonMember} (filled : jsonFilled obj)
    (first : FirstOfNameFilled obj)
    (nested : ∀ name members, JsonMember.obj name (some members) ∈ obj → jsonDistinct members) :
    jsonDistinct obj := by
  induction obj with
  | nil => trivial
  | cons member obj induction =>
      obtain ⟨head, tail⟩ := List.pairwise_cons.mp first
      refine ⟨fun mem => ?_, ?_,
        induction filled.2 tail fun name members mem =>
          nested name members (List.mem_cons_of_mem _ mem)⟩
      · obtain ⟨later, memLater, same⟩ := List.mem_map.mp mem
        exact head later memLater same.symm (jsonFilled_iff.mp filled.2 later memLater)
      · match member with
        | .obj name (some members) => exact nested name members List.mem_cons_self
        | .scalar _ _ _ | .obj _ none | .arr _ _ _ | .skipped _ => trivial

/-- A template in which `json_ext_init_value` has given every member a value has distinct names. -/
theorem JsonAssigned.distinct {obj : List JsonMember} (assigned : JsonAssigned obj)
    (filled : jsonFilled obj) : jsonDistinct obj := by
  have nested : ∀ name members, JsonMember.obj name (some members) ∈ obj →
      jsonFilled members → jsonDistinct members := by
    clear filled
    induction assigned with
    | new src =>
        intro name members mem
        obtain ⟨member, -, eq⟩ := List.mem_map.mp mem
        cases member <;> nomatch eq
    | init name value numArr assigned nestedAssigned induction nestedInduction =>
        intro inner members mem filled
        rcases mem_jsonExtInitValue mem with old | ⟨-, old, memOld, eq⟩
        · exact induction inner members old filled
        · rcases JsonMember.obj_of_init eq.symm with rfl | rfl
          · exact induction inner members memOld filled
          · refine jsonDistinct_of_nested filled
              (nestedAssigned members rfl).firstOfNameFilled fun name inner mem => ?_
            exact nestedInduction members rfl name inner mem
              (jsonFilled_iff.mp filled _ mem)
  refine jsonDistinct_of_nested filled assigned.firstOfNameFilled fun name members mem => ?_
  exact nested name members mem (jsonFilled_iff.mp filled _ mem)

/-! ## The round trip -/

/-- `json_ext_get_obj` on the text of `json_ext_obj_create` gives a fresh copy of the template
the same values. -/
def JsonRoundTrips (lib : JsonLibrary) (columns : Bool) (obj : List JsonMember) : Prop :=
  ∃ decoded,
    jsonExtGetObj lib (lib.parse (jsonExtObjCreate lib obj)) (jsonExtCopyObj columns obj) =
        some decoded ∧
      jsonSame obj decoded

/-- A template with values makes the round trip exactly when none of its arrays has rows. -/
theorem jsonRoundTrips_iff {obj : List JsonMember} (assigned : JsonAssigned obj)
    (filled : jsonFilled obj) (columns : Bool)
    (parsed : lib.parse (jsonExtObjCreate lib obj) = some (.obj (jsonExtPutObj [] obj))) :
    JsonRoundTrips lib columns obj ↔ jsonNoRows obj := by
  have distinct := assigned.distinct filled
  rw [JsonRoundTrips, parsed]
  constructor
  · rintro ⟨decoded, got, same⟩
    have noRows := jsonNoRows_get _ (jsonNoRows_copy columns obj) got
    exact jsonNoRows_of_same obj same noRows
  · intro noRows
    refine jsonExtGetMembers_copy columns obj filled distinct noRows fun member mem => ?_
    obtain ⟨value, written⟩ := JsonMember.exists_json (jsonFilled_iff.mp filled member mem)
    rw [written]
    exact get?_put (nodup_of_jsonDistinct distinct) mem written

/-- A call and an object in it. -/
def nestedObj : List JsonMember :=
  let inner := jsonExtInitValue "object2" (.scalar .str "test-1111") 0
    (jsonExtNewObj [.scalar .str "object2" .null])
  jsonExtInitValue "obj2" (.obj inner) 0
    (jsonExtInitValue "tt" (.scalar .ushrt (2 : UInt16)) 0
      (jsonExtNewObj [.scalar .ushrt "tt" .null, .obj "obj2" none]))

/-- The text of `nestedObj`. -/
def nestedText : String :=
  "\x7b\"tt\":2,\"obj2\":\x7b\"object2\":\"test-1111\"\x7d\x7d"

theorem jsonRoundTrips_nested :
    JsonRoundTrips (.ofText nestedText (.obj (jsonExtPutObj [] nestedObj))) true nestedObj := by
  have inner := JsonAssigned.init "object2" (.scalar .str "test-1111") 0
    (JsonAssigned.new [.scalar .str "object2" .null]) nofun
  have outer := JsonAssigned.init "tt" (.scalar .ushrt (2 : UInt16)) 0
    (JsonAssigned.new [.scalar .ushrt "tt" .null, .obj "obj2" none]) nofun
  have assigned : JsonAssigned nestedObj :=
    outer.init "obj2" (.obj _) 0 fun members same => by
      cases same
      exact inner
  have members : nestedObj =
      [.scalar .ushrt "tt" (.value (2 : UInt16)),
        .obj "obj2" (some [.scalar .str "object2" (.value "test-1111")])] := rfl
  have filled : jsonFilled nestedObj := by
    have nonEmpty : "test-1111" ≠ "" := by decide
    rw [members]
    exact ⟨⟨nofun, _, rfl, trivial⟩, ⟨⟨nofun, _, rfl, nonEmpty⟩, trivial⟩, trivial⟩
  refine (jsonRoundTrips_iff assigned filled true (JsonLibrary.parse_ofText _ _)).mpr ?_
  rw [members]
  exact ⟨trivial, ⟨trivial, trivial⟩, trivial⟩

/-- An array of one rating. -/
def ratingObj : List JsonMember :=
  jsonExtInitValue "rating" (.arr [.column .intArr "rating_id" (.inline [(1 : Int32)])]) 1
    (jsonExtNewObj [.arr "rating" 0 none])

/-- The text of `ratingObj`. -/
def ratingText : String := "\x7b\"rating\":[\x7b\"rating_id\":1\x7d]\x7d"

theorem not_jsonRoundTrips_rating :
    ¬ ∀ (lib : JsonLibrary) (columns : Bool) (obj : List JsonMember), JsonAssigned obj →
      jsonFilled obj →
      lib.parse (jsonExtObjCreate lib obj) = some (.obj (jsonExtPutObj [] obj)) →
      JsonRoundTrips lib columns obj := by
  intro roundTrips
  have assigned : JsonAssigned ratingObj := (JsonAssigned.new _).init _ _ _ nofun
  have filled : jsonFilled ratingObj := by
    refine ⟨fun column mem => ?_, trivial⟩
    obtain rfl := List.mem_singleton.mp mem
    exact ⟨nofun, rfl, fun _ _ => trivial⟩
  have parsed := JsonLibrary.parse_ofText ratingText (.obj (jsonExtPutObj [] ratingObj))
  obtain ⟨decoded, got, same⟩ := roundTrips _ true ratingObj assigned filled parsed
  have noRows := jsonNoRows_get _ (jsonNoRows_copy true ratingObj) got
  have none : 1 = 0 := (jsonNoRows_of_same ratingObj same noRows).1
  nomatch none

end RateEngine
