import RateEngine.JsonRoundTrip

/-!
# Members that are missing

The getters of `json_ext` return a local pointer that is set only when the object has the member.
So a fresh template is left with garbage in place of every string or number that is missing, and
whoever reads the pointer afterwards, as `json_ext_delete_obj` does, reads a value that was never
set.
-/

namespace RateEngine

/-! ## Fresh templates -/

mutual

/-- The member has no value. -/
def JsonMember.Fresh : JsonMember → Prop
  | .scalar _ _ u => u = .null
  | .obj _ (some members) => jsonFresh members
  | .arr _ numArr u =>
      numArr = 0 ∧ ∀ columns, u = some columns → ∀ column ∈ columns, column.new = column
  | .obj _ none | .skipped _ => True

/-- No member of the template has a value. -/
def jsonFresh : List JsonMember → Prop
  | [] => True
  | member :: obj => member.Fresh ∧ jsonFresh obj

end

theorem JsonMember.fresh_new (member : JsonMember) : member.new.Fresh := by
  cases member with
  | arr _ _ _ => exact ⟨rfl, nofun⟩
  | scalar _ _ _ => rfl
  | _ => trivial

theorem jsonFresh_new (src : List JsonMember) : jsonFresh (jsonExtNewObj src) := by
  induction src with
  | nil => trivial
  | cons member src induction => exact ⟨member.fresh_new, induction⟩

theorem JsonColumn.new_new (column : JsonColumn) : column.new.new = column.new := by
  cases column <;> rfl

mutual

theorem JsonMember.fresh_copy (columns : Bool) (member : JsonMember) :
    (member.copy columns).Fresh := by
  match member with
  | .scalar _ _ _ => rfl
  | .obj _ none | .skipped _ => trivial
  | .obj _ (some members) => exact jsonFresh_copy columns members
  | .arr _ _ u =>
      refine ⟨rfl, fun attached eq column mem => ?_⟩
      cases columns with
      | false => nomatch eq
      | true =>
          obtain ⟨held, -, rfl⟩ := Option.map_eq_some_iff.mp eq
          obtain ⟨old, -, rfl⟩ := List.mem_map.mp mem
          exact old.new_new

theorem jsonFresh_copy (columns : Bool) (obj : List JsonMember) :
    jsonFresh (jsonExtCopyObj columns obj) := by
  match obj with
  | [] => trivial
  | member :: obj => exact ⟨member.fresh_copy columns, jsonFresh_copy columns obj⟩

end

/-! ## Members that are missing -/

/-- The member of an object that may itself be missing. -/
def jsonGet? (jobj : Option Json) (name : String) : Option Json := jobj.bind (Json.get? name)

mutual

/-- A member that is absent from the object has no value: its pointer is `NULL`, its array has no
rows. -/
def JsonMember.AbsentNull (jobj : Option Json) : JsonMember → Prop
  | .scalar _ name u => jsonGet? jobj name = none → u = .null
  | .obj name (some members) => jsonAbsentNull (jsonGet? jobj name) members
  | .arr name numArr _ => jsonGet? jobj name = none → numArr = 0
  | .obj _ none | .skipped _ => True

/-- Every member that is absent from the object has no value. -/
def jsonAbsentNull (jobj : Option Json) : List JsonMember → Prop
  | [] => True
  | member :: obj => member.AbsentNull jobj ∧ jsonAbsentNull jobj obj

end

mutual

/-- A string or number is in the object; so are those of a nested object, if that
is in the object. -/
def JsonMember.Present (jobj : Json) : JsonMember → Prop
  | .scalar _ name _ => jobj.get? name ≠ none
  | .obj name (some members) => ∀ tmp, jobj.get? name = some tmp → jsonPresent tmp members
  | .obj _ none | .arr _ _ _ | .skipped _ => True

/-- No string or number of the template is missing from an object in which it is looked up. -/
def jsonPresent (jobj : Json) : List JsonMember → Prop
  | [] => True
  | member :: obj => member.Present jobj ∧ jsonPresent jobj obj

end

variable {lib : JsonLibrary}

variable (lib) in
theorem JsonScalar.get_of_some (t : JsonScalar) {name : String} {jobj value : Json}
    (found : jobj.get? name = some value) : ∃ a, t.get lib name jobj = some (.value a) := by
  cases t with
  | datetime =>
      refine ⟨strExtReplaceSymbol (lib.getString value) 'T' ' ', ?_⟩
      rw [get, jsonExtGetStr, jsonExtGet_of_found lib.getString found]
      rfl
  | _ => exact ⟨_, congrArg some (jsonExtGet_of_found _ found)⟩

variable (lib) in
theorem JsonScalar.get_of_none (t : JsonScalar) {name : String} {jobj : Json}
    (absent : jobj.get? name = none) :
    t.get lib name jobj = none ∨ t ≠ .datetime ∧ t.get lib name jobj = some .unset := by
  have unset {α : Type} (convert : Json → α) : jsonExtGet convert name jobj = .unset := by
    rw [jsonExtGet, absent, Option.elim_none]
  cases t with
  | datetime =>
      refine .inl ?_
      rw [get, jsonExtGetStr, unset lib.getString]
      rfl
  | _ => exact .inr ⟨by decide, congrArg some (unset _)⟩

theorem JsonMember.delete_value (t : JsonScalar) (name : String) (a : t.Value) :
    jsonExtDeleteMember (.scalar t name (.value a)) = some () := by
  cases t <;> rfl

theorem JsonMember.delete_unset {t : JsonScalar} (freed : t ≠ .datetime) (name : String) :
    jsonExtDeleteMember (.scalar t name .unset) = none := by
  cases t with
  | datetime => exact (freed rfl).elim
  | _ => rfl

theorem JsonMember.get_fresh (t : JsonScalar) (name : String) (jobj : Json) :
    jsonExtGetMember lib jobj (.scalar t name .null) =
      (t.get lib name jobj).map (.scalar t name) := rfl

mutual

theorem JsonMember.absentNull_of_fresh (member : JsonMember) (fresh : member.Fresh) :
    member.AbsentNull none := by
  match member with
  | .scalar _ _ _ => exact fun _ => fresh
  | .obj _ none | .skipped _ => trivial
  | .obj _ (some members) => exact jsonAbsentNull_of_fresh members fresh
  | .arr _ _ _ => exact fun _ => fresh.1

theorem jsonAbsentNull_of_fresh (obj : List JsonMember) (fresh : jsonFresh obj) :
    jsonAbsentNull none obj := by
  match obj with
  | [] => trivial
  | member :: obj => exact ⟨member.absentNull_of_fresh fresh.1, jsonAbsentNull_of_fresh obj fresh.2⟩

end

theorem JsonColumn.free_of_fresh {column : JsonColumn} (fresh : column.new = column) (numArr : ℕ) :
    column.free numArr = some () := by
  rw [← fresh]
  cases column <;> rfl

theorem forM_free_of_fresh {columns : List JsonColumn}
    (fresh : ∀ column ∈ columns, column.new = column) (numArr : ℕ) :
    columns.forM (JsonColumn.free numArr) = some () := by
  induction columns with
  | nil => rfl
  | cons column columns induction =>
      obtain ⟨first, rest⟩ := List.forall_mem_cons.mp fresh
      have rest := induction rest
      rw [List.forM_eq_forM] at rest ⊢
      rw [List.forM_cons, JsonColumn.free_of_fresh first numArr]
      exact rest

mutual

theorem JsonMember.delete_of_fresh (member : JsonMember) (fresh : member.Fresh) :
    jsonExtDeleteMember member = some () := by
  match member with
  | .scalar t _ _ =>
      obtain rfl := fresh
      cases t <;> rfl
  | .obj _ none | .skipped _ | .arr _ _ none => rfl
  | .obj _ (some members) => exact jsonExtDeleteObj_of_fresh members fresh
  | .arr _ numArr (some columns) => exact forM_free_of_fresh (fresh.2 columns rfl) numArr

theorem jsonExtDeleteObj_of_fresh (obj : List JsonMember) (fresh : jsonFresh obj) :
    jsonExtDeleteObj obj = some () := by
  match obj with
  | [] => rfl
  | member :: obj =>
      rw [jsonExtDeleteObj, member.delete_of_fresh fresh.1]
      exact jsonExtDeleteObj_of_fresh obj fresh.2

end

mutual

/-- When nothing is missing, a template is read. -/
theorem JsonMember.exists_get {jobj : Json} (member : JsonMember) (fresh : member.Fresh)
    (present : member.Present jobj) : ∃ decoded, jsonExtGetMember lib jobj member =
      some decoded := by
  match member with
  | .scalar t name u =>
      obtain rfl := fresh
      obtain ⟨value, found⟩ := Option.ne_none_iff_exists'.mp present
      obtain ⟨a, got⟩ := t.get_of_some lib found
      exact ⟨_, by rw [JsonMember.get_fresh, got, Option.map_some]⟩
  | .obj name (some members) =>
      cases found : jobj.get? name with
      | none => exact ⟨.obj name (some members), by simp [jsonExtGetMember, found]⟩
      | some tmp =>
          obtain ⟨decoded, got⟩ := jsonExtGetMembers_isSome members fresh (present tmp found)
          exact ⟨.obj name (some decoded), by simp [jsonExtGetMember, found, got]⟩
  | .obj _ none | .skipped _ | .arr _ _ none | .arr _ _ (some _) => exact ⟨_, rfl⟩

theorem jsonExtGetMembers_isSome {jobj : Json} (obj : List JsonMember) (fresh : jsonFresh obj)
    (present : jsonPresent jobj obj) : ∃ decoded, jsonExtGetMembers lib jobj obj =
      some decoded := by
  match obj with
  | [] => exact ⟨[], rfl⟩
  | member :: obj =>
      obtain ⟨first, gotFirst⟩ := member.exists_get fresh.1 present.1
      obtain ⟨rest, gotRest⟩ := jsonExtGetMembers_isSome obj fresh.2 present.2
      exact ⟨first :: rest, by simp [jsonExtGetMembers, gotFirst, gotRest]⟩

end

/-- A scalar that was read: see `JsonMember.get_iff`. -/
theorem JsonMember.scalar_get_iff {jobj : Json} {t : JsonScalar} {name : String}
    {decoded : JsonMember} (got : jsonExtGetMember lib jobj (.scalar t name .null) = some decoded) :
    (decoded.AbsentNull (some jobj) ↔ jobj.get? name ≠ none) ∧
      (jsonExtDeleteMember decoded = some () ↔ jobj.get? name ≠ none) := by
  rw [get_fresh] at got
  obtain ⟨pointer, read, rfl⟩ := Option.map_eq_some_iff.mp got
  cases found : jobj.get? name with
  | none =>
      rcases t.get_of_none lib found with undefined | ⟨freed, unset⟩
      · rw [undefined] at read
        nomatch read
      · obtain rfl := Option.some.inj (unset.symm.trans read)
        rw [delete_unset freed]
        exact ⟨⟨fun absentNull => (nomatch absentNull found), fun present => (present rfl).elim⟩,
          ⟨nofun, fun present => (present rfl).elim⟩⟩
  | some value =>
      obtain ⟨a, held⟩ := t.get_of_some lib found
      obtain rfl := Option.some.inj (held.symm.trans read)
      refine ⟨⟨fun _ => nofun, fun _ absent => ?_⟩,
        ⟨fun _ => nofun, fun _ => delete_value t name a⟩⟩
      nomatch found.symm.trans absent

mutual

/-- A fresh member that was read: an absent one is `NULL`, and its pointers can be read, exactly
when nothing is missing. -/
theorem JsonMember.get_iff {jobj : Json} (member : JsonMember) (fresh : member.Fresh)
    {decoded : JsonMember} (got : jsonExtGetMember lib jobj member = some decoded) :
    (decoded.AbsentNull (some jobj) ↔ member.Present jobj) ∧
      (jsonExtDeleteMember decoded = some () ↔ member.Present jobj) := by
  match member with
  | .scalar t name u =>
      obtain rfl := fresh
      exact JsonMember.scalar_get_iff got
  | .obj name (some members) =>
      cases found : jobj.get? name with
      | none =>
          simp only [jsonExtGetMember, found] at got
          obtain rfl := Option.some.inj got
          have present : (JsonMember.obj name (some members)).Present jobj :=
            fun tmp value => nomatch found.symm.trans value
          have absentNull : (JsonMember.obj name (some members)).AbsentNull (some jobj) := by
            rw [JsonMember.AbsentNull, jsonGet?, Option.bind_some, found]
            exact jsonAbsentNull_of_fresh members fresh
          exact ⟨⟨fun _ => present, fun _ => absentNull⟩,
            ⟨fun _ => present, fun _ => jsonExtDeleteObj_of_fresh members fresh⟩⟩
      | some tmp =>
          simp only [jsonExtGetMember, found] at got
          obtain ⟨inner, gotInner, rfl⟩ := Option.map_eq_some_iff.mp got
          have present : (JsonMember.obj name (some members)).Present jobj ↔
              jsonPresent tmp members := by
            simp [JsonMember.Present, found]
          rw [JsonMember.AbsentNull, jsonGet?, Option.bind_some, found,
            jsonExtDeleteMember, present]
          exact jsonExtGetMembers_iff members fresh gotInner
  | .obj name none | .skipped name =>
      cases got
      exact ⟨Iff.rfl, fun _ => trivial, fun _ => rfl⟩
  | .arr name numArr none =>
      cases got
      exact ⟨⟨fun _ => trivial, fun _ _ => rfl⟩, fun _ => trivial, fun _ => rfl⟩
  | .arr name numArr (some columns) =>
      cases got
      exact ⟨⟨fun _ => trivial, fun _ _ => fresh.1⟩, fun _ => trivial,
        fun _ => forM_free_of_fresh (fresh.2 columns rfl) numArr⟩

theorem jsonExtGetMembers_iff {jobj : Json} (obj : List JsonMember) (fresh : jsonFresh obj)
    {decoded : List JsonMember} (got : jsonExtGetMembers lib jobj obj = some decoded) :
    (jsonAbsentNull (some jobj) decoded ↔ jsonPresent jobj obj) ∧
      (jsonExtDeleteObj decoded = some () ↔ jsonPresent jobj obj) := by
  match obj with
  | [] =>
      cases got
      exact ⟨Iff.rfl, by simp [jsonExtDeleteObj, jsonPresent]⟩
  | member :: obj =>
      obtain ⟨first, gotFirst, got⟩ := Option.bind_eq_some_iff.mp got
      obtain ⟨rest, gotRest, rfl⟩ := Option.map_eq_some_iff.mp got
      obtain ⟨absentFirst, deleteFirst⟩ := member.get_iff fresh.1 gotFirst
      obtain ⟨absentRest, deleteRest⟩ := jsonExtGetMembers_iff obj fresh.2 gotRest
      refine ⟨and_congr absentFirst absentRest, ?_⟩
      constructor
      · intro deleted
        obtain ⟨⟨⟩, deletedFirst, deletedRest⟩ := Option.bind_eq_some_iff.mp deleted
        exact ⟨deleteFirst.mp deletedFirst, deleteRest.mp deletedRest⟩
      · rintro ⟨presentFirst, presentRest⟩
        exact Option.bind_eq_some_iff.mpr
          ⟨(), deleteFirst.mpr presentFirst, deleteRest.mpr presentRest⟩

end

/-- A fresh template that is read can be freed exactly when nothing is missing. -/
theorem jsonExtDeleteObj_get_iff {jobj : Json} {obj : List JsonMember} (fresh : jsonFresh obj) :
    (∃ decoded, jsonExtGetMembers lib jobj obj = some decoded ∧
        jsonExtDeleteObj decoded = some ()) ↔ jsonPresent jobj obj := by
  constructor
  · rintro ⟨decoded, got, deleted⟩
    exact (jsonExtGetMembers_iff obj fresh got).2.mp deleted
  · intro present
    have read : ∃ decoded, jsonExtGetMembers lib jobj obj = some decoded :=
      jsonExtGetMembers_isSome obj fresh present
    obtain ⟨decoded, got⟩ := read
    exact ⟨decoded, got, (jsonExtGetMembers_iff obj fresh got).2.mpr present⟩

/-- `json_ext_get_obj` leaves every member that is absent from the object without a value. -/
def MissingHarmless (lib : JsonLibrary) (jobj : Json) (obj : List JsonMember) : Prop :=
  ∃ decoded, jsonExtGetObj lib (some jobj) obj = some decoded ∧ jsonAbsentNull (some jobj) decoded

/-- A fresh template is read so exactly when nothing is missing. -/
theorem missingHarmless_iff {jobj : Json} {obj : List JsonMember} (fresh : jsonFresh obj) :
    MissingHarmless lib jobj obj ↔ jsonPresent jobj obj := by
  constructor
  · rintro ⟨decoded, got, absentNull⟩
    exact (jsonExtGetMembers_iff obj fresh got).1.mp absentNull
  · intro present
    have read : ∃ decoded, jsonExtGetMembers lib jobj obj = some decoded :=
      jsonExtGetMembers_isSome obj fresh present
    obtain ⟨decoded, got⟩ := read
    exact ⟨decoded, got, (jsonExtGetMembers_iff obj fresh got).1.mpr present⟩

end RateEngine
