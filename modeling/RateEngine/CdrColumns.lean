import Mathlib.Data.List.GetD
import RateEngine.BilledTime
import RateEngine.CdrStore
import RateEngine.ModLoader

/-!
# The columns of a CDR

The table `cdr_tbl` names the fields of a CDR.  A profile of a remote database names the column of
each field; from them come the SELECT and the setters that the cells of its answer go to.  This file
proves that the cells go to their fields by name, and when they do not.
-/

namespace RateEngine

/-! ## `cdr_tbl` -/

/-- A function of `cdr_tbl`. -/
inductive CdrTblFunc where
  | addId
  | add (column : CdrColumn)
deriving DecidableEq

/-- Call a function of `cdr_tbl` on a CDR with its id. -/
def CdrTblFunc.call (func : CdrTblFunc) (cdr : ℕ × CdrT) (txt : List Char) : ℕ × CdrT :=
  match func with
  | addId => (asUnsigned 32 (atoi (String.ofList txt)), cdr.2)
  | add column => (cdr.1, cdr.2.add (column, txt))

/-- `cdr_tbl` up to its end. -/
def cdrTbl : List (String × CdrTblFunc) :=
  [("id", .addId),
    ("cdr_server_id", .add (.num .cdrServerId)),
    ("cdr_rec_type_id", .add (.num .cdrRecTypeId)),
    ("leg_a", .add (.num .legA)),
    ("leg_b", .add (.num .legB)),
    ("call_uid", .add (.text .callUid)),
    ("start_ts", .add (.text .startTs)),
    ("answer_ts", .add (.text .answerTs)),
    ("end_ts", .add (.text .endTs)),
    ("start_epoch", .add (.num .startEpoch)),
    ("answer_epoch", .add (.num .answerEpoch)),
    ("end_epoch", .add (.num .endEpoch)),
    ("src", .add (.text .src)),
    ("dst", .add (.text .dst)),
    ("calling_number", .add (.text .callingNumber)),
    ("clg_nadi", .add (.num .clgNadi)),
    ("called_number", .add (.text .calledNumber)),
    ("cld_nadi", .add (.num .cldNadi)),
    ("rdnis", .add (.text .rdnis)),
    ("rdnis_nadi", .add (.num .rdnisNadi)),
    ("ocn", .add (.text .ocn)),
    ("ocn_nadi", .add (.num .ocnNadi)),
    ("prefix_filter_id", .add (.num .prefixFilterId)),
    ("account_code", .add (.text .accountCode)),
    ("src_context", .add (.text .srcContext)),
    ("src_tgroup", .add (.text .srcTgroup)),
    ("dst_context", .add (.text .dstContext)),
    ("dst_tgroup", .add (.text .dstTgroup)),
    ("billsec", .add (.num .billsec)),
    ("duration", .add (.num .duration)),
    ("uduration", .add (.num .uduration)),
    ("billusec", .add (.num .billusec))]

/-- The entry of a name in the `CDR_TBL_NUM` entries; the last one has no name and no function. -/
def cdrTblFind (name : String) : Option (Option CdrTblFunc) :=
  (cdrTbl.map (Prod.map id some) ++ [("", none)]).lookup name

/-! ## The columns of a profile -/

/-- `cdr_storage_col_t`. -/
structure CdrStorageCol where
  colId : ℕ
  colName : String
  func : Option CdrTblFunc
deriving DecidableEq

/-- A column that is cleared. -/
def CdrStorageCol.cleared : CdrStorageCol := ⟨0, "", none⟩

/-- `cdr_profile_params_num`: the parameters with a value. -/
def cdrProfileParamsNum (params : List XmlParam) : ℕ :=
  (params.filter (·.value ≠ "")).length

/-- The column of a parameter, `cdr_storage_col_put`. -/
def cdrStorageColPut (cols : List CdrStorageCol) (param : XmlParam) : List CdrStorageCol :=
  match cdrTblFind param.name with
  | some func =>
      if param.value ≠ "" then cols ++ [⟨cols.length + 1, param.value, func⟩] else cols
  | none => cols

/-- `cols` and `cols_num` of a profile. -/
structure CdrStorageCols where
  cols : List CdrStorageCol
  colsNum : ℕ

/-- A column of `cols`. -/
def CdrStorageCols.col (cols : CdrStorageCols) (i : ℕ) : CdrStorageCol := cols.cols.getD i .cleared

/-- `cdr_cfg_storage_profile_xml`: an array that is cleared first, and has room for one column more
than there are parameters with a value. -/
def cdrCfgStorageProfileXml (params : List XmlParam) : CdrStorageCols :=
  let num := cdrProfileParamsNum params
  if 0 < num then
    let cols := params.foldl cdrStorageColPut []
    ⟨cols ++ List.replicate (num + 2 - cols.length) .cleared, num + 1⟩
  else ⟨[], 0⟩

/-! ## The SELECT and its answer -/

/-- The select list of `cdr_storage_sql_query_parser`. -/
def CdrStorageCols.selectList (cols : CdrStorageCols) : List Char :=
  (List.range cols.colsNum).foldl (fun columns i =>
    if i = 0 then (cols.col i).colName.toList
    else if (cols.col i).colName ≠ "" then columns ++ ',' :: (cols.col i).colName.toList
    else columns) []

/-- The rest of the query of a profile. -/
structure StorageQuery where
  cdrTable : String
  sqlColWhere : String
  /-- The lower bound: a number, or a time in quotes. -/
  sqlWhere : String
  sqlWhereConst : String

/-- The text of a query after its select list. -/
def StorageQuery.from (query : StorageQuery) : List Char :=
  " from ".toList ++ query.cdrTable.toList ++ " where ".toList ++ query.sqlColWhere.toList ++
    " >= ".toList ++ query.sqlWhere.toList ++
      if query.sqlWhereConst ≠ "" then " and ".toList ++ query.sqlWhereConst.toList else []

/-- `cdr_storage_sql_query_parser`. -/
def cdrStorageSqlQueryParser (query : StorageQuery) (cols : CdrStorageCols) : List Char :=
  "select ".toList ++ cols.selectList ++ query.from

/-- A remote database: the rows that a query picks by what stands after its select list, and the
text of each column of a row. -/
structure RemoteDb where
  rows : List Char → List (String → List Char)

/-- The names of a select list of names. -/
def selectedNames (query : List Char) : List String :=
  (((query.drop 7).takeWhile (· ≠ ' ')).splitOn ',').map String.ofList

/-- The cells that a remote database answers with, in the order of the select list; a select list
with an empty place is an error and has no rows. -/
def RemoteDb.answer (db : RemoteDb) (query : List Char) : List (List (List Char)) :=
  let names := selectedNames query
  if "" ∈ names then []
  else (db.rows ((query.drop 7).dropWhile (· ≠ ' '))).map fun row => names.map row

/-! ## `cdr_storage_get_remote_cdrs` -/

/-- The CDR before the cells of a row. -/
def storageCdr (cdrServerId cdrRecTypeId : ℤ) : CdrT :=
  (CdrT.cleared.setNum .cdrServerId cdrServerId).setNum .cdrRecTypeId cdrRecTypeId

/-- The CDR of a row; nothing when a function is called that is not there. -/
def CdrStorageCols.rowCdr (cols : CdrStorageCols) (cdr : CdrT) (cells : List (List Char)) :
    Option (ℕ × CdrT) :=
  (List.range (cols.colsNum - 1)).foldlM (fun cdr c =>
    (cols.col c).func.map fun func => func.call cdr (cells.getD c [])) (0, cdr)

/-- The CDRs that `cdr_storage_get_remote_cdrs` hands to `cdr_add_in_db`. -/
def CdrStorageCols.remoteCdrs (cols : CdrStorageCols) (cdr : CdrT)
    (answer : List (List (List Char))) : Option (List CdrT) :=
  answer.mapM fun cells => (cols.rowCdr cdr cells).map Prod.snd

/-! ## Cells by name -/

/-- The name of a column in `cdr_tbl`. -/
def CdrColumn.tblName (column : CdrColumn) : String :=
  ((cdrTbl.find? (·.2 = .add column)).map Prod.fst).getD ""

/-- A CDR whose fields take their cells. -/
def CdrT.withCells (cdr : CdrT) (cell : CdrColumn → Option (List Char)) : CdrT where
  text field := (cell (.text field)).elim (cdr.text field) (·.take (field.len - 1))
  num field := (cell (.num field)).elim (cdr.num field) fun txt =>
    asUnsigned field.bits (atoi (String.ofList txt))
  num_lt field := by
    cases cell (.num field) with
    | none => exact cdr.num_lt field
    | some txt => exact asUnsigned_lt _ _

theorem CdrT.eq_of_fields {cdr other : CdrT} (text : ∀ field, cdr.text field = other.text field)
    (num : ∀ field, cdr.num field = other.num field) : cdr = other := by
  obtain ⟨texts, nums, bound⟩ := cdr
  obtain ⟨texts', nums', bound'⟩ := other
  obtain rfl : texts = texts' := funext text
  obtain rfl : nums = nums' := funext num
  rfl

/-- One more cell is that of its field. -/
theorem CdrT.add_withCells (cdr : CdrT) (cell : CdrColumn → Option (List Char))
    (column : CdrColumn) (txt : List Char) :
    (cdr.withCells cell).add (column, txt) =
      cdr.withCells (Function.update cell column (some txt)) := by
  cases column with
  | text field =>
      refine CdrT.eq_of_fields (fun other => ?_) fun other => ?_
      · by_cases own : other = field
        · subst own
          simp [CdrT.add, CdrT.cdrFieldSet, CdrT.setText, CdrT.withCells]
        · simp [CdrT.add, CdrT.cdrFieldSet, CdrT.setText, CdrT.withCells, own]
      · simp [CdrT.add, CdrT.cdrFieldSet, CdrT.setText, CdrT.withCells]
  | num field =>
      refine CdrT.eq_of_fields (fun other => ?_) fun other => ?_
      · simp [CdrT.add, CdrT.cdrAddNum, CdrT.setNum, CdrT.withCells]
      · by_cases own : other = field
        · subst own
          simp [CdrT.add, CdrT.cdrAddNum, CdrT.setNum, CdrT.withCells]
        · simp [CdrT.add, CdrT.cdrAddNum, CdrT.setNum, CdrT.withCells, own]

/-- The last cell that goes to a column. -/
def lastCell (calls : List (CdrTblFunc × List Char)) (column : CdrColumn) : Option (List Char) :=
  ((calls.filter (·.1 = .add column)).getLast?).map Prod.snd

theorem lastCell_append (calls : List (CdrTblFunc × List Char)) (func : CdrTblFunc)
    (txt : List Char) (column : CdrColumn) :
    lastCell (calls ++ [(func, txt)]) column =
      if func = .add column then some txt else lastCell calls column := by
  unfold lastCell
  rw [List.filter_append]
  by_cases own : func = .add column <;> simp [own]

/-- Calls one after the other: each field takes its last cell. -/
theorem foldl_call (calls : List (CdrTblFunc × List Char)) (start : ℕ × CdrT) :
    (calls.foldl (fun cdr call => call.1.call cdr call.2) start).2 =
      start.2.withCells (lastCell calls) := by
  induction calls using List.reverseRecOn with
  | nil => rfl
  | append_singleton calls call induction =>
      obtain ⟨func, txt⟩ := call
      rw [List.foldl_append, List.foldl_cons, List.foldl_nil]
      cases func with
      | addId =>
          have same : lastCell (calls ++ [(.addId, txt)]) = lastCell calls := by
            funext column
            rw [lastCell_append, if_neg (by simp)]
          rw [same]
          exact induction
      | add column =>
          have more : lastCell (calls ++ [(.add column, txt)]) =
              Function.update (lastCell calls) column (some txt) := by
            funext other
            rw [lastCell_append]
            by_cases own : other = column
            · subst own
              simp
            · have differs : CdrTblFunc.add column ≠ .add other := by
                simpa using Ne.symm own
              rw [if_neg differs, Function.update_of_ne own]
          rw [more, ← CdrT.add_withCells]
          exact congrArg (fun cdr => cdr.add (column, txt)) induction

/-! ## The columns of the parameters -/

/-- The parameters with a value. -/
def usedParams (params : List XmlParam) : List XmlParam := params.filter (·.value ≠ "")

/-- The name and the function of the column of a parameter. -/
def colEntry (param : XmlParam) : Option (String × Option CdrTblFunc) :=
  (cdrTblFind param.name).map fun func => (param.value, func)

/-- The name and the function of a column. -/
def CdrStorageCol.entry (col : CdrStorageCol) : String × Option CdrTblFunc :=
  (col.colName, col.func)

theorem foldl_cdrStorageColPut (params : List XmlParam) (cols : List CdrStorageCol) :
    (params.foldl cdrStorageColPut cols).map CdrStorageCol.entry =
      cols.map CdrStorageCol.entry ++ (usedParams params).filterMap colEntry := by
  induction params generalizing cols with
  | nil => simp [usedParams]
  | cons param params induction =>
      rw [List.foldl_cons, induction]
      unfold cdrStorageColPut usedParams
      by_cases value : param.value = ""
      · cases cdrTblFind param.name <;> simp [value]
      · cases found : cdrTblFind param.name with
        | none => simp [value, colEntry, found]
        | some func => simp [value, colEntry, found, CdrStorageCol.entry]

theorem getD_append_cleared (cols : List CdrStorageCol) (n i : ℕ) :
    (cols ++ List.replicate n CdrStorageCol.cleared).getD i .cleared = cols.getD i .cleared := by
  by_cases inside : i < cols.length
  · exact List.getD_append cols _ _ i inside
  · rw [List.getD_append_right cols _ _ i (by omega), List.getD_eq_default cols _ (by omega)]
    by_cases room : i - cols.length < n
    · exact List.getD_replicate _ room
    · exact List.getD_eq_default _ _ (by rw [List.length_replicate]; omega)

/-- The columns of a profile by their entries. -/
theorem col_entry (params : List XmlParam) (i : ℕ) :
    ((cdrCfgStorageProfileXml params).col i).entry =
      ((usedParams params).filterMap colEntry).getD i ("", none) := by
  have filled := foldl_cdrStorageColPut params []
  rw [List.map_nil, List.nil_append] at filled
  rw [← filled]
  change _ = List.getD _ i CdrStorageCol.cleared.entry
  rw [List.getD_map]
  unfold CdrStorageCols.col cdrCfgStorageProfileXml cdrProfileParamsNum
  by_cases some_value : 0 < (params.filter (·.value ≠ "")).length
  · dsimp only
    rw [if_pos some_value, getD_append_cleared]
  · dsimp only
    rw [if_neg some_value]
    have unused : usedParams params = [] := List.length_eq_zero_iff.mp (by
      unfold usedParams
      omega)
    rw [unused, List.filterMap_nil, List.map_eq_nil_iff] at filled
    rw [filled]

theorem colsNum_sub_one (params : List XmlParam) :
    (cdrCfgStorageProfileXml params).colsNum - 1 = (usedParams params).length := by
  unfold cdrCfgStorageProfileXml cdrProfileParamsNum usedParams
  dsimp only
  split
  · rfl
  · simp only
    omega

/-! ## The SELECT -/

/-- A column name that a SELECT can hold: short enough for `col_name`, and without a comma or a
blank. -/
def PlainName (name : String) : Prop :=
  name ≠ "" ∧ name.length < 32 ∧ ',' ∉ name.toList ∧ ' ' ∉ name.toList

/-- Every parameter with a value names a field, and its value is the name of a column. -/
def Named (params : List XmlParam) : Prop :=
  ∀ param ∈ params, param.value ≠ "" → param.name ∈ cdrTbl.map Prod.fst

def PlainValues (params : List XmlParam) : Prop :=
  ∀ param ∈ params, param.value ≠ "" → PlainName param.value

theorem intercalate_concat {names : List (List Char)} (some_name : names ≠ []) (name : List Char) :
    [','].intercalate (names ++ [name]) = [','].intercalate names ++ ',' :: name := by
  induction names with
  | nil => exact absurd rfl some_name
  | cons first names induction =>
      cases names with
      | nil => simp [List.intercalate]
      | cons second names =>
          have rest := induction (List.cons_ne_nil second names)
          simp only [List.intercalate, List.cons_append, List.intersperse_cons_cons,
            List.flatten_cons]
            at rest ⊢
          rw [rest]
          simp

/-- The select list of columns with names up to some place. -/
theorem selectList_eq {cols : CdrStorageCols} {names : List String}
    (col : ∀ i, (cols.col i).colName = names.getD i "") (filled : "" ∉ names) :
    cols.selectList = [','].intercalate ((names.take cols.colsNum).map String.toList) := by
  have step (n : ℕ) : (List.range n).foldl (fun columns i =>
      if i = 0 then (cols.col i).colName.toList
      else if (cols.col i).colName ≠ "" then columns ++ ',' :: (cols.col i).colName.toList
      else columns) [] = [','].intercalate ((names.take n).map String.toList) := by
    induction n with
    | zero => rfl
    | succ n induction =>
        rw [List.range_succ, List.foldl_append, induction, List.foldl_cons, List.foldl_nil, col]
        by_cases inside : n < names.length
        · have name : names.getD n "" = names[n] := List.getD_eq_getElem names "" inside
          have nonempty : names[n] ≠ "" := fun empty => filled (empty ▸ List.getElem_mem inside)
          rw [name, List.take_succ_eq_append_getElem inside, List.map_append, List.map_singleton]
          by_cases first : n = 0
          · subst first
            simp [List.intercalate]
          · have some_name : (names.take n).map String.toList ≠ [] := by
              intro empty
              have := congrArg List.length empty
              simp only [List.length_map, List.length_take, List.length_nil] at this
              omega
            rw [if_neg first, if_pos nonempty, intercalate_concat some_name]
        · have beyond : names.getD n "" = "" := List.getD_eq_default names "" (by omega)
          rw [beyond, List.take_of_length_le (by omega : names.length ≤ n),
            List.take_of_length_le (by omega : names.length ≤ n + 1)]
          by_cases first : n = 0
          · subst first
            have none : names = [] := List.length_eq_zero_iff.mp (by omega)
            subst none
            rfl
          · rw [if_neg first, if_neg (not_not_intro rfl)]
  exact step cols.colsNum

/-- The columns of a profile by name. -/
theorem col_colName (params : List XmlParam) (i : ℕ) :
    ((cdrCfgStorageProfileXml params).col i).colName =
      (((usedParams params).filterMap colEntry).map Prod.fst).getD i "" := by
  have entry := congrArg Prod.fst (col_entry params i)
  rw [← List.getD_map _ _ Prod.fst] at entry
  exact entry

theorem lookup_map_some {α β : Type} [BEq α] (entries : List (α × β)) (name : α) :
    (entries.map (Prod.map id some)).lookup name = (entries.lookup name).map some := by
  induction entries with
  | nil => rfl
  | cons entry entries induction =>
      rw [List.map_cons, List.lookup_cons, List.lookup_cons]
      simp only [Prod.map_fst, id_eq, Prod.map_snd]
      split
      · rfl
      · exact induction

theorem cdrTblFind_eq (name : String) :
    cdrTblFind name =
      ((cdrTbl.lookup name).map some).or (if name = "" then some none else none) := by
  rw [cdrTblFind, List.lookup_append, lookup_map_some]
  congr 1
  by_cases nameless : name = ""
  · subst nameless
    rfl
  · simp only [List.lookup_cons, List.lookup_nil, beq_eq_false_iff_ne.mpr nameless, if_neg nameless]

/-- The functions of `cdr_tbl` are under the names of their columns. -/
theorem tblName_of_mem {entry : String × CdrTblFunc} (member : entry ∈ cdrTbl)
    (column : CdrColumn) : entry.2 = .add column ↔ entry.1 = column.tblName := by
  have all : ∀ entry ∈ cdrTbl, entry.2 = .add column ↔ entry.1 = column.tblName := by
    cases column with
    | text field => cases field <;> decide
    | num field => cases field <;> decide
  exact all entry member

theorem mem_of_lookup {α β : Type} [BEq α] [LawfulBEq α] {entries : List (α × β)} {name : α}
    {value : β} (found : entries.lookup name = some value) : (name, value) ∈ entries := by
  induction entries with
  | nil => cases found
  | cons entry entries induction =>
      rw [List.lookup_cons] at found
      by_cases own : name = entry.1
      · rw [beq_iff_eq.mpr own] at found
        rw [own, ← Option.some.inj found]
        exact List.mem_cons_self
      · rw [beq_eq_false_iff_ne.mpr own] at found
        exact List.mem_cons_of_mem _ (induction found)

/-- A name of `cdr_tbl` has a function there. -/
theorem exists_lookup {name : String} (known : name ∈ cdrTbl.map Prod.fst) :
    ∃ func, cdrTbl.lookup name = some func := by
  have all : ∀ name ∈ cdrTbl.map Prod.fst, (cdrTbl.lookup name).isSome = true := by decide
  exact Option.isSome_iff_exists.mp (all name known)

/-- The column that a profile gives to a field: that of the last parameter of its name. -/
def valueOf (params : List XmlParam) (column : CdrColumn) : Option String :=
  (((usedParams params).filter (·.name = column.tblName)).getLast?).map XmlParam.value

/-- The call for a parameter on a row. -/
def paramCall (row : String → List Char) (param : XmlParam) : CdrTblFunc × List Char :=
  ((cdrTbl.lookup param.name).getD .addId, row param.value)

/-- The parameters with a value have their names in `cdr_tbl`. -/
theorem Named.lookup {params : List XmlParam} (named : Named params) {param : XmlParam}
    (used : param ∈ usedParams params) (row : String → List Char) :
    cdrTbl.lookup param.name = some (paramCall row param).1 := by
  obtain ⟨member, value⟩ := List.mem_filter.mp used
  obtain ⟨func, found⟩ := exists_lookup (named param member (of_decide_eq_true value))
  rw [paramCall, found]
  rfl

theorem Named.filterMap_colEntry {params : List XmlParam} (named : Named params)
    (row : String → List Char) :
    (usedParams params).filterMap colEntry = (usedParams params).map fun param =>
      (param.value, some (paramCall row param).1) := by
  rw [← List.filterMap_eq_map]
  refine List.filterMap_congr fun param used => ?_
  rw [colEntry, cdrTblFind_eq, named.lookup used row]
  rfl

/-- The calls for a row give each field the cell of its column. -/
theorem Named.lastCell {params : List XmlParam} (named : Named params)
    (row : String → List Char) :
    lastCell ((usedParams params).map (paramCall row)) =
      fun column => (valueOf params column).map row := by
  funext column
  have same : (usedParams params).filter (fun param => (paramCall row param).1 = .add column) =
      (usedParams params).filter (·.name = column.tblName) := by
    refine List.filter_congr fun param used => ?_
    exact decide_eq_decide.mpr (tblName_of_mem (mem_of_lookup (named.lookup used row)) column)
  rw [RateEngine.lastCell, List.filter_map, valueOf, ← same, List.getLast?_map, Option.map_map,
    Option.map_map]
  rfl

/-- The calls of a row one after the other. -/
theorem rowCdr_of_calls {cols : CdrStorageCols} {cells : List (List Char)}
    {calls : List (CdrTblFunc × List Char)} (cdr : CdrT)
    (num : cols.colsNum - 1 = calls.length)
    (func : ∀ i, (cols.col i).func = (calls.map fun call => some call.1).getD i none)
    (cell : cells = calls.map Prod.snd) :
    cols.rowCdr cdr cells =
      some (calls.foldl (fun cdr call => call.1.call cdr call.2) (0, cdr)) := by
  have step (n : ℕ) (inside : n ≤ calls.length) : (List.range n).foldlM (fun cdr c =>
      (cols.col c).func.map fun func => func.call cdr (cells.getD c [])) (0, cdr) =
        some ((calls.take n).foldl (fun cdr call => call.1.call cdr call.2) (0, cdr)) := by
    induction n with
    | zero => rfl
    | succ n induction =>
        have here : n < calls.length := inside
        have this_func : (cols.col n).func = some calls[n].1 := by
          rw [func, List.getD_eq_getElem _ _ (by rwa [List.length_map]), List.getElem_map]
        have this_cell : cells.getD n [] = calls[n].2 := by
          rw [cell, List.getD_eq_getElem _ _ (by rwa [List.length_map]), List.getElem_map]
        rw [List.range_succ, List.foldlM_append, induction (by omega),
          List.take_succ_eq_append_getElem here, List.foldl_append]
        simp only [List.foldlM_cons, List.foldlM_nil, List.foldl_cons, List.foldl_nil, this_func,
          this_cell, Option.map_some, Option.bind_eq_bind, Option.bind_some]
        rfl
  rw [CdrStorageCols.rowCdr, num, step calls.length le_rfl, List.take_length]

/-- A column without a function stops every row. -/
theorem rowCdr_eq_none {cols : CdrStorageCols} {i : ℕ} (inside : i < cols.colsNum - 1)
    (missing : (cols.col i).func = none) (cdr : CdrT) (cells : List (List Char)) :
    cols.rowCdr cdr cells = none := by
  have stops (places : List ℕ) (start : ℕ × CdrT) (member : i ∈ places) :
      places.foldlM (fun cdr c => (cols.col c).func.map fun func =>
        func.call cdr (cells.getD c [])) start = none := by
    induction places generalizing start with
    | nil => cases member
    | cons place places induction =>
        rw [List.foldlM_cons]
        rcases List.mem_cons.mp member with rfl | later
        · rw [missing]
          rfl
        · cases (cols.col place).func with
          | none => rfl
          | some func => exact induction _ later
  exact stops _ _ (List.mem_range.mpr inside)

/-- A parameter with a value and no name of `cdr_tbl` leaves a column without a function. -/
theorem exists_func_none {params : List XmlParam} (unnamed : ¬ Named params) :
    ∃ i < (cdrCfgStorageProfileXml params).colsNum - 1,
      ((cdrCfgStorageProfileXml params).col i).func = none := by
  have func (i : ℕ) : ((cdrCfgStorageProfileXml params).col i).func =
      (((usedParams params).filterMap colEntry).getD i ("", none)).2 :=
    congrArg Prod.snd (col_entry params i)
  have shorter : ((usedParams params).filterMap colEntry).length ≤ (usedParams params).length :=
    List.length_filterMap_le _ _
  unfold Named at unnamed
  push Not at unnamed
  obtain ⟨param, member, value, unknown⟩ := unnamed
  have used : param ∈ usedParams params := List.mem_filter.mpr ⟨member, decide_eq_true value⟩
  have absent : cdrTbl.lookup param.name = none := by
    cases found : cdrTbl.lookup param.name with
    | none => rfl
    | some func => exact absurd (List.mem_map_of_mem (mem_of_lookup found)) unknown
  have entry : colEntry param = if param.name = "" then some (param.value, none) else none := by
    rw [colEntry, cdrTblFind_eq, absent]
    split <;> rfl
  rw [colsNum_sub_one]
  by_cases nameless : param.name = ""
  · rw [if_pos nameless] at entry
    have filled : (param.value, none) ∈ (usedParams params).filterMap colEntry :=
      List.mem_filterMap.mpr ⟨param, used, entry⟩
    obtain ⟨i, inside, here⟩ := List.mem_iff_getElem.mp filled
    refine ⟨i, by omega, ?_⟩
    rw [func, List.getD_eq_getElem _ _ inside, here]
  · rw [if_neg nameless] at entry
    have fewer : ((usedParams params).filterMap colEntry).length < (usedParams params).length :=
      List.length_filterMap_lt_length_iff_exists.mpr ⟨param, used, entry⟩
    refine ⟨_, fewer, ?_⟩
    rw [func, List.getD_eq_default _ _ le_rfl]

/-! ## The query and its answer -/

theorem blank_not_mem_intercalate {names : List String}
    (plain : ∀ name ∈ names, ' ' ∉ name.toList) :
    ' ' ∉ [','].intercalate (names.map String.toList) := by
  induction names with
  | nil => simp [List.intercalate]
  | cons name names induction =>
      have rest := induction fun other member => plain other (List.mem_cons_of_mem _ member)
      have first := plain name List.mem_cons_self
      cases names with
      | nil => simpa [List.intercalate] using first
      | cons second names =>
          simp only [List.map_cons, List.intercalate, List.intersperse_cons_cons,
            List.flatten_cons, List.mem_append, not_or] at rest ⊢
          exact ⟨first, by decide, rest⟩

/-- A query of plain names is read back. -/
theorem selectedNames_of_plain {names : List String} (some_name : names ≠ [])
    (plain : ∀ name ∈ names, PlainName name) (rest : List Char) :
    let query := "select ".toList ++ [','].intercalate (names.map String.toList) ++ ' ' :: rest
    selectedNames query = names ∧ (query.drop 7).dropWhile (· ≠ ' ') = ' ' :: rest := by
  intro query
  have unblank := blank_not_mem_intercalate fun name member => (plain name member).2.2.2
  have cut : query.drop 7 = [','].intercalate (names.map String.toList) ++ ' ' :: rest := rfl
  have all : ∀ c ∈ [','].intercalate (names.map String.toList), decide (c ≠ ' ') = true := by
    intro c member
    refine decide_eq_true fun blank => unblank ?_
    rwa [← blank]
  refine ⟨?_, ?_⟩
  · rw [selectedNames, cut, List.takeWhile_append_of_pos all, List.takeWhile_cons_of_neg (by simp),
      List.append_nil, List.splitOn_intercalate]
    · rw [List.map_map]
      simp
    · intro name member
      obtain ⟨text, text_member, rfl⟩ := List.mem_map.mp member
      exact (plain text text_member).2.2.1
    · simpa using some_name
  · rw [cut, List.dropWhile_append_of_pos all, List.dropWhile_cons_of_neg (by simp)]

/-- The CDRs that a profile is for: each row of the remote database gives each field the cell of its
column. -/
def namedCdrs (params : List XmlParam) (cdr : CdrT) (rows : List (String → List Char)) :
    List CdrT :=
  rows.map fun row => cdr.withCells fun column => (valueOf params column).map row

/-- The answer of the remote database to the query of a profile with plain columns. -/
theorem answer_of_named {params : List XmlParam} (named : Named params)
    (plain : PlainValues params) (some_value : usedParams params ≠ []) (query : StorageQuery)
    (db : RemoteDb) :
    db.answer (cdrStorageSqlQueryParser query (cdrCfgStorageProfileXml params)) =
      (db.rows query.from).map fun row => (usedParams params).map fun param => row param.value := by
  have entries := named.filterMap_colEntry fun _ => []
  have colNames : ((usedParams params).filterMap colEntry).map Prod.fst =
      (usedParams params).map XmlParam.value := by
    rw [entries, List.map_map]
    rfl
  have plain_names : ∀ name ∈ (usedParams params).map XmlParam.value, PlainName name := by
    intro name member
    obtain ⟨param, used, rfl⟩ := List.mem_map.mp member
    obtain ⟨in_params, value⟩ := List.mem_filter.mp used
    exact plain param in_params (of_decide_eq_true value)
  have filled : "" ∉ (usedParams params).map XmlParam.value :=
    fun member => (plain_names "" member).1 rfl
  have list := selectList_eq (col_colName params) (by rwa [colNames])
  have length : ((usedParams params).map XmlParam.value).length ≤
      (cdrCfgStorageProfileXml params).colsNum := by
    rw [List.length_map, ← colsNum_sub_one params]
    omega
  rw [colNames, List.take_of_length_le length] at list
  obtain ⟨rest, from_eq⟩ : ∃ rest, query.from = ' ' :: rest := ⟨_, rfl⟩
  have read := selectedNames_of_plain (by simpa using some_value) plain_names rest
  unfold cdrStorageSqlQueryParser RemoteDb.answer
  rw [list, from_eq, read.1, if_neg filled, read.2]
  simp only [List.map_map]
  rfl

/-- The cells of the remote rows go to the fields that the profile names for their columns.  A
parameter with a value and a name that no field has is a call of a function that is not there, at
the first row. -/
theorem remoteCdrs_byName (params : List XmlParam) (query : StorageQuery) (db : RemoteDb)
    (cdr : CdrT) :
    let cols := cdrCfgStorageProfileXml params
    let answer := db.answer (cdrStorageSqlQueryParser query cols)
    (¬ Named params → (cols.remoteCdrs cdr answer = none ↔ answer ≠ [])) ∧
      (Named params → PlainValues params → usedParams params ≠ [] →
        cols.remoteCdrs cdr answer = some (namedCdrs params cdr (db.rows query.from))) := by
  intro cols answer
  refine ⟨fun unnamed => ?_, fun named plain some_value => ?_⟩
  · obtain ⟨i, inside, missing⟩ := exists_func_none unnamed
    cases answer with
    | nil => simp [CdrStorageCols.remoteCdrs]
    | cons cells rest =>
        have stopped := rowCdr_eq_none inside missing cdr cells
        simp only [CdrStorageCols.remoteCdrs, List.mapM_cons, cols, stopped]
        simp
  · have read : answer = _ := answer_of_named named plain some_value query db
    have row (row : String → List Char) :
        (cols.rowCdr cdr ((usedParams params).map fun param => row param.value)).map Prod.snd =
          some (cdr.withCells fun column => (valueOf params column).map row) := by
      have func (i : ℕ) : (cols.col i).func =
          (((usedParams params).map (paramCall row)).map fun call => some call.1).getD i none := by
        have entry := congrArg Prod.snd (col_entry params i)
        rw [named.filterMap_colEntry row, ← List.getD_map _ _ Prod.snd, List.map_map] at entry
        rw [List.map_map]
        exact entry
      have num : cols.colsNum - 1 = ((usedParams params).map (paramCall row)).length := by
        rw [List.length_map]
        exact colsNum_sub_one params
      rw [rowCdr_of_calls cdr num func (by rw [List.map_map]; rfl), Option.map_some, foldl_call,
        named.lastCell]
    rw [read, CdrStorageCols.remoteCdrs, namedCdrs]
    induction db.rows query.from with
    | nil => rfl
    | cons first rest induction =>
        rw [List.map_cons, List.mapM_cons, row, induction]
        rfl

end RateEngine
