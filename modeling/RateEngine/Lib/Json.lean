import Mathlib.Data.List.Nodup
import Mathlib.Data.Rat.Defs

/-!
# JSON values

A JSON value is a tree whose objects hold their members in the order in which they were added.  A
member is looked up by its name, and one that is JSON `null` counts as missing, since a C library
represents it by a `NULL` pointer.  An object that is written one member after the other gives every
member back, as long as the names differ.
-/

/-- A JSON value; numbers are integers or doubles. -/
inductive Json where
  | null
  | bool (b : Bool)
  | int (n : ℤ)
  | double (x : ℚ)
  | str (s : String)
  | arr (items : List Json)
  | obj (members : List (String × Json))

namespace Json

/-- The value is not `null`. -/
def IsValue : Json → Prop
  | null => False
  | _ => True

/-- The value of an optional pointer to a JSON value; `null` is the `NULL` pointer. -/
def nonNull : Option Json → Option Json
  | some null => none
  | value => value

/-- The member of an object; any other value has no members. -/
def get? (name : String) : Json → Option Json
  | obj members => nonNull (members.lookup name)
  | _ => none

/-- The elements of an array; any other value has none. -/
def elements : Json → List Json
  | arr items => items
  | _ => []

/-- Add a member to an object, in the place of the member of that name if there is one. -/
def add (name : String) (value : Json) : List (String × Json) → List (String × Json)
  | [] => [(name, value)]
  | member :: members =>
      if member.1 = name then (name, value) :: members else member :: add name value members

/-- Add several members, one after the other. -/
def addAll : List (String × Json) → List (String × Json) → List (String × Json)
  | members, [] => members
  | members, entry :: entries => addAll (add entry.1 entry.2 members) entries

theorem nonNull_of_isValue {value : Json} (isValue : value.IsValue) :
    nonNull (some value) = some value := by
  cases value with
  | null => exact isValue.elim
  | _ => rfl

theorem lookup_add_self (name : String) (value : Json) (members : List (String × Json)) :
    (add name value members).lookup name = some value := by
  induction members with
  | nil => simp [add]
  | cons member members induction =>
      by_cases same : member.1 = name
      · simp [add, same]
      · obtain ⟨key, held⟩ := member
        have other : (name == key) = false := beq_false_of_ne (Ne.symm same)
        rw [add, if_neg same, List.lookup_cons, other]
        exact induction

theorem lookup_add_of_ne {name other : String} (ne : other ≠ name) (value : Json)
    (members : List (String × Json)) :
    (add name value members).lookup other = members.lookup other := by
  have differ : (other == name) = false := beq_false_of_ne ne
  induction members with
  | nil => simp [add, List.lookup_cons, differ]
  | cons member members induction =>
      obtain ⟨key, held⟩ := member
      by_cases same : key = name
      · subst same
        simp [add, List.lookup_cons, differ]
      · rw [add, if_neg same, List.lookup_cons, List.lookup_cons, induction]

/-- Members of other names leave a member as it is. -/
theorem lookup_addAll_of_notMem {name : String} {entries : List (String × Json)}
    (notMem : name ∉ entries.map Prod.fst) (members : List (String × Json)) :
    (addAll members entries).lookup name = members.lookup name := by
  induction entries generalizing members with
  | nil => rfl
  | cons entry entries induction =>
      rw [List.map_cons, List.mem_cons, not_or] at notMem
      rw [addAll, induction notMem.2, lookup_add_of_ne notMem.1]

/-- With distinct names every member that was added is found. -/
theorem lookup_addAll {entries : List (String × Json)} (distinct : (entries.map Prod.fst).Nodup)
    {name : String} {value : Json} (mem : (name, value) ∈ entries)
    (members : List (String × Json)) : (addAll members entries).lookup name = some value := by
  induction entries generalizing members with
  | nil => nomatch mem
  | cons entry entries induction =>
      rw [List.map_cons, List.nodup_cons] at distinct
      rw [addAll]
      rcases List.mem_cons.mp mem with rfl | later
      · rw [lookup_addAll_of_notMem distinct.1, lookup_add_self]
      · exact induction distinct.2 later _

/-! ## Objects written from a list -/

variable {α : Type*} {name : α → String} {json : α → Option Json}

/-- The members that a list gives an object: an element without a value gives none. -/
def entries (name : α → String) (json : α → Option Json) (xs : List α) : List (String × Json) :=
  xs.filterMap fun x => (json x).map fun value => (name x, value)

theorem mem_entries {xs : List α} {x : α} (mem : x ∈ xs) {value : Json}
    (written : json x = some value) : (name x, value) ∈ entries name json xs :=
  List.mem_filterMap.mpr ⟨x, mem, by rw [written, Option.map_some]⟩

theorem sublist_entries (xs : List α) :
    ((entries name json xs).map Prod.fst).Sublist (xs.map name) := by
  induction xs with
  | nil => exact List.Sublist.refl _
  | cons x xs induction =>
      rw [entries, List.filterMap_cons, List.map_cons]
      cases json x with
      | none => exact induction.cons _
      | some value => exact induction.cons_cons _

/-- With distinct names every element that has a value is found. -/
theorem get?_entries {xs : List α} (distinct : (xs.map name).Nodup) {x : α} (mem : x ∈ xs)
    {value : Json} (written : json x = some value) (isValue : value.IsValue) :
    (obj (addAll [] (entries name json xs))).get? (name x) = some value := by
  rw [get?, lookup_addAll (distinct.sublist (sublist_entries xs)) (mem_entries mem written)]
  exact nonNull_of_isValue isValue

/-- A name whose elements have no value is not found. -/
theorem get?_entries_of_none {xs : List α} {key : String}
    (absent : ∀ x ∈ xs, name x = key → json x = none) :
    (obj (addAll [] (entries name json xs))).get? key = none := by
  have notMem : key ∉ (entries name json xs).map Prod.fst := by
    intro mem
    obtain ⟨entry, memEntry, rfl⟩ := List.mem_map.mp mem
    obtain ⟨x, memX, eq⟩ := List.mem_filterMap.mp memEntry
    obtain ⟨value, written, rfl⟩ := Option.map_eq_some_iff.mp eq
    rw [absent x memX rfl] at written
    nomatch written
  rw [get?, lookup_addAll_of_notMem notMem]
  rfl

end Json

/-- A library that writes JSON values as texts, reads them back and converts them: a string is its
own text, an integer of 32 bits and a double are their own numbers. -/
structure JsonLibrary where
  print : Json → String
  parse : String → Option Json
  getString : Json → String
  getInt : Json → Int32
  getDouble : Json → ℚ
  getString_str : ∀ s, getString (.str s) = s
  getInt_int : ∀ n : Int32, getInt (.int n.toInt) = n
  getDouble_double : ∀ x, getDouble (.double x) = x

namespace JsonLibrary

/-- The number of a value: numbers are cut to 32 bits, a text that is no number is zero. -/
def toInt32 : Json → Int32
  | .int n => Int32.ofIntClamp n
  | .double x => Int32.ofIntClamp (x.num.tdiv x.den)
  | .bool b => if b then 1 else 0
  | .str s => s.toInt?.elim 0 Int32.ofIntClamp
  | .null | .arr _ | .obj _ => 0

/-- A library that has one JSON value and its text. -/
def ofText (text : String) (json : Json) : JsonLibrary where
  print _ := text
  parse txt := if txt = text then some json else none
  getString
    | .str s => s
    | .int n => toString n
    | .bool b => toString b
    | .null => "null"
    | .double _ | .arr _ | .obj _ => text
  getInt := toInt32
  getDouble
    | .double x => x
    | .int n => n
    | _ => 0
  getString_str _ := rfl
  getInt_int n := by rw [toInt32, Int32.ofIntClamp_toInt]
  getDouble_double _ := rfl

@[simp]
theorem parse_ofText (text : String) (json : Json) : (ofText text json).parse text = some json :=
  if_pos rfl

end JsonLibrary

/-! ## The room of a text -/

namespace Json

mutual

/-- Characters that are enough for the text of a value with blanks between its parts: a character of
a string takes six at most, a double takes 32. -/
def room : Json → ℕ
  | null => 4
  | bool _ => 5
  | int n => n.natAbs.repr.length + 1
  | double _ => 32
  | str s => 6 * s.length + 2
  | arr items => roomItems items + 4
  | obj members => roomMembers members + 4

/-- The room of the elements of an array, with what separates them. -/
def roomItems : List Json → ℕ
  | [] => 0
  | value :: items => value.room + 2 + roomItems items

/-- The room of the members of an object, with what separates them. -/
def roomMembers : List (String × Json) → ℕ
  | [] => 0
  | member :: members => roomMember member + 2 + roomMembers members

/-- The room of a member. -/
def roomMember : String × Json → ℕ
  | (name, value) => 6 * name.length + 4 + value.room

end

theorem room_int32 (n : Int32) : (int n.toInt).room ≤ 11 := by
  have low := n.le_toInt
  have high := n.toInt_lt
  have digits : n.toInt.natAbs.repr.length ≤ 10 :=
    (Nat.length_repr_le_iff (by decide)).mpr (by omega)
  rw [room]
  omega

end Json

/-- A library whose texts take no more room than that of their values. -/
structure JsonPrinter extends JsonLibrary where
  print_le : ∀ value, (print value).length ≤ value.room
