import RateEngine.Lib.Json

/-!
# JSON by templates

`json_ext` writes and reads JSON objects by a template: an array of members, each with a type, a
name and a pointer to its value.  This file models the template, the pointers, which may hold
garbage when a getter has not found its member, and the functions that write, read, copy and free a
template.
-/

namespace RateEngine

/-! ## Templates -/

/-- A pointer of a template: `NULL`, a pointer to a value, or one that was never set. -/
inductive JsonPtr (α : Type) where
  | null
  | value (a : α)
  | unset

/-- Read the pointer, if it was ever set. -/
def JsonPtr.read {α : Type} : JsonPtr α → Option (Option α)
  | null => some none
  | value a => some (some a)
  | unset => none

/-- Follow a pointer. -/
def JsonPtr.deref {α : Type} : JsonPtr α → Option α
  | value a => some a
  | null | unset => none

/-- The types of a member with one value. -/
inductive JsonScalar where
  | str
  | datetime
  | ushrt
  | int
  | uint
  | double
deriving DecidableEq

/-- The values of a type. -/
def JsonScalar.Value : JsonScalar → Type
  | str | datetime => String
  | ushrt => UInt16
  | int => Int32
  | uint => UInt32
  | double => ℚ

/-- The types of a column of an array.  Columns of doubles are written under the type `json_double`
and read under the type `json_double_arr`. -/
inductive JsonColumnType where
  | strArr
  | intArr
  | double
  | doubleArr
deriving DecidableEq

/-- The values of a column. -/
def JsonColumnType.Value : JsonColumnType → Type
  | strArr => String
  | intArr => Int32
  | double | doubleArr => ℚ

/-- The union of a column: the caller's array of values when the column is written, an array of
pointers when it has been read. -/
inductive JsonCells (α : Type) where
  | null
  | inline (cells : List α)
  | pointers (cells : List (JsonPtr α))

/-- `json_ext_obj_t` in the template of an array. -/
inductive JsonColumn where
  | column (t : JsonColumnType) (name : String) (u : JsonCells t.Value)
  | skipped (name : String)

/-- `json_ext_obj_t` in the template of an object.  The types `json_shrt`, `json_str_arr`,
`json_int_arr` and `json_double_arr` are neither written nor read there. -/
inductive JsonMember where
  | scalar (t : JsonScalar) (name : String) (u : JsonPtr t.Value)
  | obj (name : String) (u : Option (List JsonMember))
  | arr (name : String) (numArr : ℕ) (u : Option (List JsonColumn))
  | skipped (name : String)

/-- The name of a column. -/
def JsonColumn.name : JsonColumn → String
  | column _ name _ | skipped name => name

/-- The name of a member. -/
def JsonMember.name : JsonMember → String
  | scalar _ name _ | obj name _ | arr name _ _ | skipped name => name

/-! ## `json_ext_new_obj` and `json_ext_init_value` -/

/-- The copy of a column: its type and its name. -/
def JsonColumn.new : JsonColumn → JsonColumn
  | column t name _ => column t name .null
  | skipped name => skipped name

/-- The copy of a member: its type and its name. -/
def JsonMember.new : JsonMember → JsonMember
  | scalar t name _ => scalar t name .null
  | obj name _ => obj name none
  | arr name _ _ => arr name 0 none
  | skipped name => skipped name

/-- `json_ext_new_obj`. -/
def jsonExtNewObj (src : List JsonMember) : List JsonMember := src.map JsonMember.new

/-- The argument of `json_ext_init_value`. -/
inductive JsonValue where
  | scalar (t : JsonScalar) (a : t.Value)
  | obj (members : List JsonMember)
  | arr (columns : List JsonColumn)

/-- `str_ext_replace_symbol`. -/
def strExtReplaceSymbol (src : String) (search replace : Char) : String :=
  src.map fun c => if c = search then replace else c

/-- `json_ext_put_datetime`, which returns nothing that was set for an empty text. -/
def jsonExtPutDatetime (dt : String) : JsonPtr String :=
  if dt = "" then .unset else .value (strExtReplaceSymbol dt ' ' 'T')

/-- The pointer that is stored for a value. -/
def JsonScalar.store : (t : JsonScalar) → t.Value → JsonPtr t.Value
  | datetime, dt => jsonExtPutDatetime dt
  | str, a | ushrt, a | int, a | uint, a | double, a => .value a

/-- Set the value of a member; a value of another type is no argument for it. -/
def JsonMember.init (value : JsonValue) (numArr : ℕ) : JsonMember → JsonMember
  | scalar t name u =>
      match value with
      | .scalar t' a =>
          if same : t' = t then scalar t name (t.store (same ▸ a)) else scalar t name u
      | _ => scalar t name u
  | obj name u =>
      match value with
      | .obj members => obj name (some members)
      | _ => obj name u
  | arr name num u =>
      match value with
      | .arr columns => arr name numArr (some columns)
      | _ => arr name num u
  | skipped name => skipped name

/-- `json_ext_init_value`: set the value of the first member of the name. -/
def jsonExtInitValue (name : String) (value : JsonValue) (numArr : ℕ) :
    List JsonMember → List JsonMember
  | [] => []
  | member :: obj =>
      if member.name = name then member.init value numArr :: obj
      else member :: jsonExtInitValue name value numArr obj

/-! ## Writing -/

/-- The body of `json_ext_put_uint` and the other writers of numbers. -/
def jsonExtPut {α : Type} (write : α → Json) (name : String) (u : JsonPtr α)
    (jobj : List (String × Json)) : List (String × Json) :=
  match u with
  | .value a => Json.add name (write a) jobj
  | _ => jobj

/-- `json_ext_put_str`: an empty text is not written. -/
def jsonExtPutStr (name : String) (u : JsonPtr String) (jobj : List (String × Json)) :
    List (String × Json) :=
  match u with
  | .value str => if str = "" then jobj else Json.add name (.str str) jobj
  | _ => jobj

/-- `json_object_new_int`. -/
def jsonObjectNewInt (n : Int32) : Json := .int n.toInt

/-- `json_ext_put_ushrt`. -/
def jsonExtPutUshrt : String → JsonPtr UInt16 → List (String × Json) → List (String × Json) :=
  jsonExtPut fun num => jsonObjectNewInt num.toUInt32.toInt32

/-- `json_ext_put_int`. -/
def jsonExtPutInt : String → JsonPtr Int32 → List (String × Json) → List (String × Json) :=
  jsonExtPut jsonObjectNewInt

/-- `json_ext_put_uint`. -/
def jsonExtPutUint : String → JsonPtr UInt32 → List (String × Json) → List (String × Json) :=
  jsonExtPut fun ui => jsonObjectNewInt ui.toInt32

/-- `json_ext_put_double`. -/
def jsonExtPutDouble : String → JsonPtr ℚ → List (String × Json) → List (String × Json) :=
  jsonExtPut .double

/-- The writer of a type.  A pointer that was never set is no argument for it. -/
def JsonScalar.put : (t : JsonScalar) → String → JsonPtr t.Value → List (String × Json) →
    List (String × Json)
  | str | datetime => jsonExtPutStr
  | ushrt => jsonExtPutUshrt
  | int => jsonExtPutInt
  | uint => jsonExtPutUint
  | double => jsonExtPutDouble

/-- The pointer to a cell of the caller's array; the array has a cell for each row. -/
def JsonCells.cell {α : Type} (c : ℕ) : JsonCells α → JsonPtr α
  | inline cells => (cells[c]?).elim .null .value
  | pointers cells => cells.getD c .null
  | null => .null

/-- Write the cell of a column; a column of the type `json_double_arr` is passed over. -/
def JsonColumn.put (c : ℕ) (jobj : List (String × Json)) : JsonColumn → List (String × Json)
  | column .strArr name u => jsonExtPutStr name (u.cell c) jobj
  | column .intArr name u => jsonExtPutInt name (u.cell c) jobj
  | column .double name u => jsonExtPutDouble name (u.cell c) jobj
  | column .doubleArr _ _ => jobj
  | skipped _ => jobj

/-- The objects of the rows. -/
def jsonRows (arr : List JsonColumn) (numArr : ℕ) : List Json :=
  (List.range numArr).map fun c => .obj (arr.foldl (JsonColumn.put c) [])

/-- `json_ext_put_array`. -/
def jsonExtPutArray (name : String) (arr : List JsonColumn) (numArr : ℕ)
    (jobj : List (String × Json)) : List (String × Json) :=
  Json.add name (.arr (jsonRows arr numArr)) jobj

mutual

/-- The body of the loop of `json_ext_put_obj`.  The template of an array is never `NULL`. -/
def jsonExtPutMember (jobj : List (String × Json)) : JsonMember → List (String × Json)
  | .scalar t name u => t.put name u jobj
  | .obj name (some members) => Json.add name (.obj (jsonExtPutObj [] members)) jobj
  | .obj _ none => jobj
  | .arr name numArr (some columns) => jsonExtPutArray name columns numArr jobj
  | .arr _ _ none => jobj
  | .skipped _ => jobj

/-- `json_ext_put_obj`. -/
def jsonExtPutObj (jobj : List (String × Json)) : List JsonMember → List (String × Json)
  | [] => jobj
  | member :: obj => jsonExtPutObj (jsonExtPutMember jobj member) obj

end

/-- `json_ext_obj_create`. -/
def jsonExtObjCreate (lib : JsonLibrary) (obj : List JsonMember) : String :=
  lib.print (.obj (jsonExtPutObj [] obj))

/-! ## Reading -/

/-- The body of the getters: each returns a local pointer that only a member of the object sets. -/
def jsonExtGet {α : Type} (convert : Json → α) (name : String) (jobj : Json) : JsonPtr α :=
  (jobj.get? name).elim .unset fun tmp => .value (convert tmp)

variable (lib : JsonLibrary)

/-- `json_ext_get_str`. -/
def jsonExtGetStr : String → Json → JsonPtr String := jsonExtGet lib.getString

/-- `json_ext_get_ushrt`. -/
def jsonExtGetUshrt : String → Json → JsonPtr UInt16 :=
  jsonExtGet fun tmp => (lib.getInt tmp).toUInt32.toUInt16

/-- `json_ext_get_uint`. -/
def jsonExtGetUint : String → Json → JsonPtr UInt32 :=
  jsonExtGet fun tmp => (lib.getInt tmp).toUInt32

/-- `json_ext_get_int`. -/
def jsonExtGetInt : String → Json → JsonPtr Int32 := jsonExtGet lib.getInt

/-- `json_ext_get_double`. -/
def jsonExtGetDouble : String → Json → JsonPtr ℚ := jsonExtGet lib.getDouble

/-- `json_ext_get_datetime`, which reads the pointer that `json_ext_get_str` has returned. -/
def jsonExtGetDatetime (str : JsonPtr String) : Option (JsonPtr String) :=
  str.read.map fun str => str.elim .null fun str => .value (strExtReplaceSymbol str 'T' ' ')

/-- The getter of a type. -/
def JsonScalar.get : (t : JsonScalar) → String → Json → Option (JsonPtr t.Value)
  | str, name, jobj => some (jsonExtGetStr lib name jobj)
  | datetime, name, jobj => jsonExtGetDatetime (jsonExtGetStr lib name jobj)
  | ushrt, name, jobj => some (jsonExtGetUshrt lib name jobj)
  | int, name, jobj => some (jsonExtGetInt lib name jobj)
  | uint, name, jobj => some (jsonExtGetUint lib name jobj)
  | double, name, jobj => some (jsonExtGetDouble lib name jobj)

/-- Read the cells of a column; a column of the type `json_double` is passed over. -/
def JsonColumn.get (rows : List Json) : JsonColumn → JsonColumn
  | column .strArr name _ => column .strArr name (.pointers (rows.map (jsonExtGetStr lib name)))
  | column .intArr name _ => column .intArr name (.pointers (rows.map (jsonExtGetInt lib name)))
  | column .doubleArr name _ =>
      column .doubleArr name (.pointers (rows.map (jsonExtGetDouble lib name)))
  | column .double name u => column .double name u
  | skipped name => skipped name

/-- `json_ext_get_array`, with the number of rows that it returns. -/
def jsonExtGetArray (jobj : Json) (name : String) :
    Option (List JsonColumn) → ℕ × Option (List JsonColumn)
  | none => (0, none)
  | some arr =>
      match (jobj.get? name).map Json.elements with
      | none | some [] => (0, some arr)
      | some rows => (rows.length, some (arr.map (JsonColumn.get lib rows)))

mutual

/-- The body of the loop of `json_ext_get_obj`: a member that has a value keeps it, and the
comparison with `NULL` reads the pointer. -/
def jsonExtGetMember (jobj : Json) : JsonMember → Option JsonMember
  | .scalar t name u =>
      u.read.bind fun held =>
        match held with
        | some _ => some (.scalar t name u)
        | none => (t.get lib name jobj).map (.scalar t name)
  | .obj name (some members) =>
      match jobj.get? name with
      | none => some (.obj name (some members))
      | some tmp => (jsonExtGetMembers tmp members).map fun members => .obj name (some members)
  | .obj name none => some (.obj name none)
  | .arr name _ none =>
      let (numArr, arr) := jsonExtGetArray lib jobj name none
      some (.arr name numArr arr)
  | .arr name numArr (some columns) => some (.arr name numArr (some columns))
  | .skipped name => some (.skipped name)

/-- `json_ext_get_obj` on an object. -/
def jsonExtGetMembers (jobj : Json) : List JsonMember → Option (List JsonMember)
  | [] => some []
  | member :: obj =>
      (jsonExtGetMember jobj member).bind fun member =>
        (jsonExtGetMembers jobj obj).map fun obj => member :: obj

end

/-- `json_ext_get_obj`: nothing is read from `NULL`. -/
def jsonExtGetObj (jobj : Option Json) (obj : List JsonMember) : Option (List JsonMember) :=
  match jobj with
  | none => some obj
  | some jobj => jsonExtGetMembers lib jobj obj

/-! ## Freeing and finding -/

/-- Free what a pointer points to, unless it is `NULL`. -/
def JsonPtr.free {α : Type} (u : JsonPtr α) : Option Unit := u.read.map fun _ => ()

/-- Free the cells that were read; the caller's array is no argument for it. -/
def JsonCells.free {α : Type} (numArr : ℕ) : JsonCells α → Option Unit
  | null => some ()
  | inline _ => none
  | pointers cells => (cells.take numArr).forM JsonPtr.free

/-- Free a column. -/
def JsonColumn.free (numArr : ℕ) : JsonColumn → Option Unit
  | column _ _ u => u.free numArr
  | skipped _ => some ()

mutual

/-- The body of the loop of `json_ext_delete_obj` in `JSON_EXT_GET_MODE_FREE`; it has no case for a
datetime. -/
def jsonExtDeleteMember : JsonMember → Option Unit
  | .scalar .datetime _ _ => some ()
  | .scalar _ _ u => u.free
  | .obj _ (some members) => jsonExtDeleteObj members
  | .obj _ none => some ()
  | .arr _ numArr (some columns) => columns.forM (JsonColumn.free numArr)
  | .arr _ _ none => some ()
  | .skipped _ => some ()

/-- `json_ext_delete_obj` in `JSON_EXT_GET_MODE_FREE`, which reads the pointers of the template. -/
def jsonExtDeleteObj : List JsonMember → Option Unit
  | [] => some ()
  | member :: obj => (jsonExtDeleteMember member).bind fun _ => jsonExtDeleteObj obj

end

/-- The type that `json_ext_find_obj` compares. -/
inductive JsonExtType where
  | scalar (t : JsonScalar)
  | obj
  | arr
  | skipped
deriving DecidableEq

/-- The type of a member. -/
def JsonMember.t : JsonMember → JsonExtType
  | scalar t _ _ => .scalar t
  | obj _ _ => .obj
  | arr _ _ _ => .arr
  | skipped _ => .skipped

/-- `json_ext_find_obj`: the index of the first member of a type and a name. -/
def jsonExtFindObj (obj : List JsonMember) (t : JsonExtType) (name : String) : Option ℕ :=
  obj.findIdx? fun member => member.t = t ∧ member.name = name

end RateEngine
