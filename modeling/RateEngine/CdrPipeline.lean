import RateEngine.CdrColumns
import RateEngine.CdrRaters
import RateEngine.Lib.KeepFirst
import RateEngine.Lib.SerialTable

/-!
# CDRs from a remote database to the rating

`cdr_add_in_db_query` writes a CDR into the columns of `cdrs`, each of its type; `cdr_get_cdrs`
reads them for the rating through `cdr_tbl`.  This file follows CDRs through statement, table and
answer, and proves what the rating gets of the rows of remote databases.
-/

namespace RateEngine

/-! ## The table `cdrs` -/

/-- A value of a statement. -/
inductive SqlValue where
  | int (n : ℤ)
  | text (chars : List Char)
deriving DecidableEq

/-- A type of a column of `cdrs`. -/
inductive SqlType where
  | integer
  | bigint
  | varchar (size : ℕ)
  | timestamp
deriving DecidableEq

/-- The name of a column of `cdrs`. -/
def CdrColumn.sqlName : CdrColumn → String
  | .num .cdrServerId => "cdr_server_id"
  | .num .cdrRecTypeId => "cdr_rec_type_id"
  | .text .callUid => "call_uid"
  | .num .legA => "leg_a"
  | .num .legB => "leg_b"
  | .text .startTs => "start_ts"
  | .text .answerTs => "answer_ts"
  | .text .endTs => "end_ts"
  | .num .startEpoch => "start_epoch"
  | .num .answerEpoch => "answer_epoch"
  | .num .endEpoch => "end_epoch"
  | .text .src => "src"
  | .text .dst => "dst"
  | .text .callingNumber => "calling_number"
  | .text .calledNumber => "called_number"
  | .num .prefixFilterId => "prefix_filter_id"
  | .num .clgNadi => "clg_nadi"
  | .num .cldNadi => "cld_nadi"
  | .num .billsec => "billsec"
  | .num .duration => "duration"
  | .num .uduration => "uduration"
  | .num .billusec => "billusec"
  | .text .accountCode => "account_code"
  | .text .srcContext => "src_context"
  | .text .dstContext => "dst_context"
  | .text .srcTgroup => "src_tgroup"
  | .text .dstTgroup => "dst_tgroup"
  | .text .rdnis => "rdnis"
  | .num .rdnisNadi => "rdnis_nadi"
  | .text .ocn => "ocn"
  | .num .ocnNadi => "ocn_nadi"

/-- The type of a text column of `cdrs`. -/
def CdrText.sqlType : CdrText → SqlType
  | callUid => .varchar 128
  | startTs => .timestamp
  | src | dst => .varchar 80
  | answerTs | endTs | callingNumber | calledNumber | rdnis | ocn => .varchar 32
  | accountCode | srcContext | dstContext | srcTgroup | dstTgroup => .varchar 64

/-- The type of a column of `cdrs`. -/
def CdrColumn.sqlType : CdrColumn → SqlType
  | .text field => field.sqlType
  | .num .uduration | .num .billusec => .bigint
  | .num _ => .integer

/-- The times that the database takes, as it writes them. -/
abbrev Timestamps := List Char → Option (List Char)

/-- What a column keeps of a value; of a text that is too long only blanks may be cut. -/
def SqlType.keep (timestamps : Timestamps) : SqlType → SqlValue → Option SqlValue
  | integer, .int n => if -2 ^ 31 ≤ n ∧ n < 2 ^ 31 then some (.int n) else none
  | bigint, .int n => if -2 ^ 63 ≤ n ∧ n < 2 ^ 63 then some (.int n) else none
  | varchar size, .text chars =>
      if (chars.drop size).all (· = ' ') then some (.text (chars.take size)) else none
  | timestamp, .text chars => (timestamps chars).map .text
  | _, _ => none

/-- The text columns of `cdrs`. -/
def cdrsTexts : List CdrText :=
  [.callUid, .startTs, .answerTs, .endTs, .src, .dst, .callingNumber, .calledNumber, .accountCode,
    .srcContext, .dstContext, .srcTgroup, .dstTgroup, .rdnis, .ocn]

/-- The number columns of `cdrs` other than its key. -/
def cdrsNums : List CdrNum :=
  [.cdrServerId, .cdrRecTypeId, .legA, .legB, .startEpoch, .answerEpoch, .endEpoch,
    .prefixFilterId, .clgNadi, .cldNadi, .billsec, .duration, .uduration, .billusec, .rdnisNadi,
    .ocnNadi]

/-- The columns of `cdrs` other than its key. -/
def cdrsColumns : List CdrColumn := cdrsTexts.map .text ++ cdrsNums.map .num

/-- What a column keeps of a statement that gives values to names. -/
def keptValue (timestamps : Timestamps) (values : List (String × SqlValue)) (column : CdrColumn) :
    Option SqlValue :=
  (values.lookup column.sqlName).bind (column.sqlType.keep timestamps)

/-- The text of a value. -/
def SqlValue.asText : SqlValue → List Char
  | int _ => []
  | text chars => chars

/-- The number of a value. -/
def SqlValue.asNumber : SqlValue → ℤ
  | int n => n
  | text _ => 0

/-- The row of a statement; none when a value does not fit its column. -/
def cdrsRow (timestamps : Timestamps) (values : List (String × SqlValue)) : Option CdrsRow :=
  if ∀ column ∈ cdrsColumns, (keptValue timestamps values column).isSome then
    some
      { text := fun field =>
          ((keptValue timestamps values (.text field)).map SqlValue.asText).getD []
        num := fun field =>
          ((keptValue timestamps values (.num field)).map SqlValue.asNumber).getD 0 }
  else none

/-- Perform an INSERT with `on conflict do nothing`; a conflict has taken a key. -/
def cdrsInsert (timestamps : Timestamps) (table : SerialTable CdrsRow)
    (values : List (String × SqlValue)) : SerialTable CdrsRow :=
  match cdrsRow timestamps values with
  | none => table
  | some row =>
      if table.select (·.text .callUid = row.text .callUid) = [] then table.insert row
      else table.skip 1

/-! ## `cdr_add_in_db_query` and `cdr_get_cdrs` -/

/-- The columns of the INSERT, in its order. -/
def cdrInsertNames : List String :=
  ["cdr_server_id", "cdr_rec_type_id", "leg_a", "leg_b", "call_uid", "start_ts", "answer_ts",
    "end_ts", "start_epoch", "answer_epoch", "end_epoch", "src", "dst", "calling_number",
    "clg_nadi", "called_number", "cld_nadi", "rdnis", "rdnis_nadi", "ocn", "ocn_nadi",
    "prefix_filter_id", "account_code", "src_context", "src_tgroup", "dst_context", "dst_tgroup",
    "billsec", "duration", "uduration", "billusec"]

/-- The values of the INSERT, in its order. -/
def CdrT.insertValues (cdr : CdrT) : List SqlValue :=
  let d (field : CdrNum) : SqlValue := .int (asInt (cdr.num field))
  let s (field : CdrText) : SqlValue := .text (cdr.text field)
  [d .cdrServerId, d .cdrRecTypeId, d .legA, d .legB, s .callUid, s .startTs, s .answerTs,
    s .endTs, d .startEpoch, d .answerEpoch, d .endEpoch, s .src, s .dst, s .callingNumber,
    d .clgNadi, s .calledNumber, d .cldNadi, s .rdnis, d .rdnisNadi, s .ocn, d .ocnNadi,
    d .prefixFilterId, s .accountCode, s .srcContext, s .srcTgroup, s .dstContext, s .dstTgroup,
    d .billsec, d .duration, d .uduration, d .billusec]

/-- The table after `cdr_add_in_db_query`. -/
def cdrAddInCdrs (timestamps : Timestamps) (table : SerialTable CdrsRow) (cdr : CdrT)
    (outcome : DbOutcome) : SerialTable CdrsRow :=
  if outcome.executes then cdrsInsert timestamps table (cdrInsertNames.zip cdr.insertValues)
  else table

/-- The mark of a leg in a row. -/
def CdrsRow.mark (row : CdrsRow) : Leg → ℤ
  | .a => row.num .legA
  | .b => row.num .legB

/-- The text of a column of a row. -/
def cdrsCell (row : ℕ × CdrsRow) (name : String) : List Char :=
  if name = "id" then columnText row.1
  else
    match cdrsColumns.find? (·.sqlName = name) with
    | some (.text field) => row.2.text field
    | some (.num field) => columnText (row.2.num field)
    | none => []

/-- The CDR that `cdr_get_cdrs` makes of the cells of `cdr_tbl_sql_columns`. -/
def cdrOfCells (cells : List (List Char)) : ℕ × CdrT :=
  (cdrTbl.zip cells).foldl (fun cdr entry => entry.1.2.call cdr entry.2) (0, .cleared)

/-- `cdr_get_cdrs`: rows are in the order of their keys. -/
def cdrGetCdrsOf (table : SerialTable CdrsRow) (leg : Leg) (dig : ℤ) : List (ℕ × CdrT) :=
  ((table.select (·.mark leg = dig)).take cdrBatchLimit).map fun row =>
    cdrOfCells (cdrTbl.map fun entry => cdrsCell row entry.1)

/-! ## What the columns keep of a CDR -/

theorem mem_cdrsTexts (field : CdrText) : field ∈ cdrsTexts := by
  cases field <;> decide

/-- The value that the INSERT gives to a column. -/
def CdrT.value (cdr : CdrT) : CdrColumn → SqlValue
  | .text field => .text (cdr.text field)
  | .num field => .int (asInt (cdr.num field))

/-- The names and the values of the INSERT belong together. -/
theorem lookup_insertValues (cdr : CdrT) (column : CdrColumn) :
    (cdrInsertNames.zip cdr.insertValues).lookup column.sqlName = some (cdr.value column) := by
  cases column with
  | text field => cases field <;> rfl
  | num field => cases field <;> rfl

/-- Every number fits its column. -/
theorem keep_num (timestamps : Timestamps) (cdr : CdrT) (field : CdrNum) :
    (CdrColumn.num field).sqlType.keep timestamps (.int (asInt (cdr.num field))) =
      some (.int (asInt (cdr.num field))) := by
  have below : cdr.num field < 4294967296 := by
    have bound := cdr.num_lt field
    have bits : field.bits ≤ 32 := by cases field <;> decide
    exact bound.trans_le (Nat.pow_le_pow_right (by decide) bits)
  have range : -2147483648 ≤ asInt (cdr.num field) ∧ asInt (cdr.num field) < 2147483648 := by
    unfold asInt
    split <;> omega
  have small : (-2 ^ 31 ≤ asInt (cdr.num field) ∧ asInt (cdr.num field) < 2 ^ 31) := by
    norm_num
    exact range
  have large : (-2 ^ 63 ≤ asInt (cdr.num field) ∧ asInt (cdr.num field) < 2 ^ 63) := by
    norm_num
    omega
  cases field <;> first | exact if_pos small | exact if_pos large

/-- What a column keeps of a text. -/
def CdrText.kept (timestamps : Timestamps) (field : CdrText) (txt : List Char) :
    Option (List Char) :=
  (field.sqlType.keep timestamps (.text txt)).map SqlValue.asText

/-- What `cdrs` keeps of a CDR; nothing when a text does not fit. -/
def CdrT.kept (timestamps : Timestamps) (cdr : CdrT) : Option CdrT :=
  if ∀ field ∈ cdrsTexts, (field.kept timestamps (cdr.text field)).isSome then
    some { cdr with text := fun field => (field.kept timestamps (cdr.text field)).getD [] }
  else none

theorem keptValue_insertValues (timestamps : Timestamps) (cdr : CdrT) (column : CdrColumn) :
    keptValue timestamps (cdrInsertNames.zip cdr.insertValues) column =
      column.sqlType.keep timestamps (cdr.value column) := by
  rw [keptValue, lookup_insertValues, Option.bind_some]

/-- The row of the INSERT is that of the CDR that is kept. -/
theorem cdrsRow_eq (timestamps : Timestamps) (cdr : CdrT) :
    cdrsRow timestamps (cdrInsertNames.zip cdr.insertValues) =
      (cdr.kept timestamps).map CdrT.row := by
  have fits : (∀ column ∈ cdrsColumns, (keptValue timestamps
      (cdrInsertNames.zip cdr.insertValues) column).isSome) ↔
        ∀ field ∈ cdrsTexts, (field.kept timestamps (cdr.text field)).isSome := by
    simp only [keptValue_insertValues, cdrsColumns, List.forall_mem_append, List.forall_mem_map,
      CdrText.kept, Option.isSome_map]
    refine and_iff_left fun field _ => ?_
    rw [CdrT.value, keep_num]
    rfl
  unfold cdrsRow CdrT.kept
  by_cases all : ∀ field ∈ cdrsTexts, (field.kept timestamps (cdr.text field)).isSome
  · rw [if_pos all, if_pos (fits.mpr all), Option.map_some, CdrT.row]
    simp only [keptValue_insertValues, CdrT.value, keep_num, Option.map_some, Option.getD_some,
      SqlValue.asNumber]
    rfl
  · rw [if_neg all, if_neg (mt fits.mp all), Option.map_none]

/-! ## What the rating reads of a row -/

/-- A field has one name in a profile and in the tables. -/
theorem tblName_eq_sqlName (column : CdrColumn) : column.tblName = column.sqlName := by
  cases column with
  | text field => cases field <;> decide
  | num field => cases field <;> decide

theorem lastCell_cdrTbl (cell : String → List Char) (column : CdrColumn) :
    lastCell (cdrTbl.map fun entry => (entry.2, cell entry.1)) column =
      some (cell column.sqlName) := by
  have last : (cdrTbl.filter (·.2 = .add column)).getLast? =
      some (column.sqlName, .add column) := by
    cases column with
    | text field => cases field <;> decide
    | num field => cases field <;> decide
  rw [lastCell, List.filter_map, List.getLast?_map]
  have same : cdrTbl.filter ((fun call : CdrTblFunc × List Char => decide (call.1 = .add column)) ∘
      fun entry => (entry.2, cell entry.1)) = cdrTbl.filter (·.2 = .add column) := rfl
  rw [same, last]
  rfl

/-- The calls of `cdr_tbl` on its cells. -/
def tblCalls (cell : String → List Char) : List (CdrTblFunc × List Char) :=
  cdrTbl.map fun entry => (entry.2, cell entry.1)

/-- Only `cdr_add_id` sets the id. -/
theorem foldl_call_fst {calls : List (CdrTblFunc × List Char)} (start : ℕ × CdrT)
    (others : ∀ call ∈ calls, call.1 ≠ .addId) :
    (calls.foldl (fun cdr call => call.1.call cdr call.2) start).1 = start.1 := by
  induction calls generalizing start with
  | nil => rfl
  | cons call calls induction =>
      rw [List.foldl_cons, induction _ fun other member =>
        others other (List.mem_cons_of_mem _ member)]
      have this := others call List.mem_cons_self
      obtain ⟨func, txt⟩ := call
      cases func with
      | addId => exact absurd rfl this
      | add column => rfl

/-- The CDR of a row: each field takes the cell of its column, the id is the key. -/
theorem cdrOfCells_row (row : ℕ × CdrsRow) :
    cdrOfCells (cdrTbl.map fun entry => cdrsCell row entry.1) =
      (asUnsigned 32 row.1, CdrT.cleared.withCells fun column =>
        some (cdrsCell row column.sqlName)) := by
  have calls : cdrOfCells (cdrTbl.map fun entry => cdrsCell row entry.1) =
      (tblCalls (cdrsCell row)).foldl (fun cdr call => call.1.call cdr call.2) (0, .cleared) := rfl
  have cells : lastCell (tblCalls (cdrsCell row)) = fun column =>
      some (cdrsCell row column.sqlName) := funext fun column => lastCell_cdrTbl _ column
  refine Prod.ext ?_ ?_
  · have first : tblCalls (cdrsCell row) =
        (.addId, columnText row.1) :: (cdrTbl.tail.map fun entry =>
          (entry.2, cdrsCell row entry.1)) := rfl
    rw [calls, first, List.foldl_cons, foldl_call_fst]
    · exact congrArg (asUnsigned 32) (atoi_columnText row.1)
    · intro call member
      obtain ⟨entry, entry_member, rfl⟩ := List.mem_map.mp member
      have others : ∀ entry ∈ cdrTbl.tail, entry.2 ≠ .addId := by decide
      exact others entry entry_member
  · rw [calls, foldl_call, cells]

/-! ## Texts that come back -/

/-- The texts of a CDR are in their arrays. -/
def CdrT.Short (cdr : CdrT) : Prop := ∀ field, (cdr.text field).length < field.len

theorem asUnsigned_asInt (cdr : CdrT) (field : CdrNum) :
    asUnsigned field.bits (asInt (cdr.num field)) = cdr.num field := by
  have bound := cdr.num_lt field
  have width : field.bits = 16 ∨ field.bits = 32 := by cases field <;> decide
  unfold asUnsigned asInt
  rcases width with short | long
  · rw [short] at bound ⊢
    norm_num at bound ⊢
    split <;> omega
  · rw [long] at bound ⊢
    norm_num at bound ⊢
    split <;> omega

theorem cdrsCell_sqlName (row : ℕ × CdrsRow) (column : CdrColumn) :
    cdrsCell row column.sqlName =
      match column with
      | .text field => row.2.text field
      | .num field => columnText (row.2.num field) := by
  have other : column.sqlName ≠ "id" := by
    cases column with
    | text field => cases field <;> decide
    | num field => cases field <;> decide
  have found : cdrsColumns.find? (·.sqlName = column.sqlName) = some column := by
    cases column with
    | text field => cases field <;> decide
    | num field => cases field <;> decide
  rw [cdrsCell, if_neg other, found]
  cases column <;> rfl

/-- What is read of the row of a CDR with short texts is the CDR. -/
theorem cdrOfCells_of_short {cdr : CdrT} (short : cdr.Short) (id : ℕ) :
    cdrOfCells (cdrTbl.map fun entry => cdrsCell (id, cdr.row) entry.1) =
      (asUnsigned 32 id, cdr) := by
  rw [cdrOfCells_row]
  refine Prod.ext rfl (CdrT.eq_of_fields (fun field => ?_) fun field => ?_)
  · have enough : (cdr.text field).length ≤ field.len - 1 := Nat.le_sub_one_of_lt (short field)
    simp only [CdrT.withCells, cdrsCell_sqlName, Option.elim_some]
    exact List.take_of_length_le enough
  · simp only [CdrT.withCells, cdrsCell_sqlName, Option.elim_some]
    rw [atoi_columnText]
    exact asUnsigned_asInt cdr field

/-- The texts of a CDR other than the called number are in their arrays; the filters write the
called number. -/
def CdrT.Prepared (cdr : CdrT) : Prop :=
  ∀ field ≠ .calledNumber, (cdr.text field).length < field.len

/-- The times that the database writes are short. -/
def Timestamps.Short (timestamps : Timestamps) : Prop :=
  ∀ txt kept, timestamps txt = some kept → kept.length < 32

/-- A column keeps no more than the text, and no more than its size. -/
theorem CdrText.kept_length {timestamps : Timestamps} (written : timestamps.Short)
    {field : CdrText} {txt kept : List Char} (keeps : field.kept timestamps txt = some kept) :
    kept.length < field.len ∨ field ≠ .calledNumber ∧ kept.length ≤ txt.length := by
  have cut {size : ℕ} (sized : field.sqlType = .varchar size) : kept = txt.take size := by
    rw [CdrText.kept, sized] at keeps
    simp only [SqlType.keep] at keeps
    split at keeps
    · exact (Option.some.inj keeps).symm
    · cases keeps
  cases field with
  | startTs =>
      obtain ⟨value, taken, rfl⟩ := Option.map_eq_some_iff.mp keeps
      obtain ⟨time, is_time, rfl⟩ := Option.map_eq_some_iff.mp taken
      exact .inl (written txt time is_time)
  | calledNumber =>
      refine .inl ?_
      rw [cut rfl, List.length_take]
      exact (Nat.min_le_left _ _).trans_lt (by decide)
  | callUid | answerTs | endTs | src | dst | callingNumber | rdnis | ocn | accountCode | srcContext
  | srcTgroup | dstContext | dstTgroup =>
      refine .inr ⟨by decide, ?_⟩
      rw [cut rfl]
      exact List.length_take_le' _ _

/-- What `cdrs` keeps of a CDR comes back from it. -/
theorem CdrT.kept_short {timestamps : Timestamps} (written : timestamps.Short) {cdr kept : CdrT}
    (prepared : cdr.Prepared) (keeps : cdr.kept timestamps = some kept) : kept.Short := by
  intro field
  unfold CdrT.kept at keeps
  split at keeps
  · rename_i fits
    obtain rfl := Option.some.inj keeps
    obtain ⟨txt, this⟩ := Option.isSome_iff_exists.mp (fits field (mem_cdrsTexts field))
    have short : txt.length < field.len := by
      rcases CdrText.kept_length written this with short | ⟨other, shorter⟩
      · exact short
      · exact shorter.trans_lt (prepared field other)
    simpa only [this, Option.getD_some] using short
  · cases keeps

/-! ## Runs -/

/-- The uid of a CDR. -/
def CdrT.uid (cdr : CdrT) : List Char := cdr.text .callUid

/-- The table after statements with their outcomes. -/
def cdrsAfter (timestamps : Timestamps) (table : SerialTable CdrsRow)
    (offered : List (CdrT × DbOutcome)) : SerialTable CdrsRow :=
  offered.foldl (fun table offer => cdrAddInCdrs timestamps table offer.1 offer.2) table

/-- The CDRs that reach the table and fit there. -/
def keptCdrs (timestamps : Timestamps) (offered : List (CdrT × DbOutcome)) : List CdrT :=
  offered.filterMap fun offer => if offer.2.executes then offer.1.kept timestamps else none

/-- The table holds these CDRs. -/
def HoldsCdrs (table : SerialTable CdrsRow) (cdrs : List CdrT) : Prop :=
  table.rows.map Prod.snd = cdrs.map CdrT.row

/-- One insert adds the CDR unless its uid is there. -/
theorem HoldsCdrs.insert {timestamps : Timestamps} {table : SerialTable CdrsRow}
    {cdrs : List CdrT} (holds : HoldsCdrs table cdrs) (cdr : CdrT) :
    HoldsCdrs (cdrsInsert timestamps table (cdrInsertNames.zip cdr.insertValues))
      (KeepFirst.merge CdrT.uid cdrs (cdr.kept timestamps).toList) := by
  unfold cdrsInsert
  rw [cdrsRow_eq]
  cases keeps : cdr.kept timestamps with
  | none => exact holds
  | some kept =>
      have taken : table.select (·.text .callUid = kept.row.text .callUid) = [] ↔
          kept.uid ∉ cdrs.map CdrT.uid := by
        have uids : cdrs.map CdrT.uid = table.rows.map fun row => row.2.text .callUid := by
          have rows := congrArg (List.map fun row : CdrsRow => row.text .callUid) holds
          rw [List.map_map, List.map_map] at rows
          exact rows.symm
        rw [uids, SerialTable.select, List.filter_eq_nil_iff, List.mem_map]
        simp only [decide_eq_true_eq, not_exists, not_and]
        rfl
      simp only [Option.map_some, Option.toList_some, KeepFirst.merge_cons, KeepFirst.merge_nil,
        KeepFirst.add]
      by_cases new : kept.uid ∈ cdrs.map CdrT.uid
      · rw [if_pos new, if_neg (by rw [taken]; exact not_not_intro new)]
        exact holds
      · rw [if_neg new, if_pos (taken.mpr new)]
        unfold HoldsCdrs at holds ⊢
        rw [SerialTable.insert, List.map_append, holds, List.map_append]
        rfl

theorem HoldsCdrs.after {timestamps : Timestamps} {table : SerialTable CdrsRow}
    {cdrs : List CdrT} (holds : HoldsCdrs table cdrs) (offered : List (CdrT × DbOutcome)) :
    HoldsCdrs (cdrsAfter timestamps table offered)
      (KeepFirst.merge CdrT.uid cdrs (keptCdrs timestamps offered)) := by
  induction offered generalizing table cdrs with
  | nil => exact holds
  | cons offer offered induction =>
      obtain ⟨cdr, outcome⟩ := offer
      have first : HoldsCdrs (cdrAddInCdrs timestamps table cdr outcome)
          (KeepFirst.merge CdrT.uid cdrs
            (if outcome.executes then cdr.kept timestamps else none).toList) := by
        unfold cdrAddInCdrs
        cases outcome.executes with
        | false => exact holds
        | true => exact holds.insert cdr
      have all := induction first
      have split : keptCdrs timestamps ((cdr, outcome) :: offered) =
          (if outcome.executes then cdr.kept timestamps else none).toList ++
            keptCdrs timestamps offered := by
        unfold keptCdrs
        rw [List.filterMap_cons]
        cases (if outcome.executes then cdr.kept timestamps else none) <;> rfl
      rw [split, KeepFirst.merge_append]
      exact all

/-- The CDR that is read of a row. -/
def CdrsRow.readBack (row : CdrsRow) : CdrT :=
  CdrT.cleared.withCells fun column =>
    some (match column with
      | .text field => row.text field
      | .num field => columnText (row.num field))

/-- What the rating reads of a table of short CDRs. -/
theorem HoldsCdrs.read {table : SerialTable CdrsRow} {cdrs : List CdrT}
    (holds : HoldsCdrs table cdrs) (short : ∀ cdr ∈ cdrs, cdr.Short) (leg : Leg) (dig : ℤ) :
    (cdrGetCdrsOf table leg dig).map Prod.snd =
      (cdrs.filter (·.row.mark leg = dig)).take cdrBatchLimit := by
  have reads (row : ℕ × CdrsRow) :
      (cdrOfCells (cdrTbl.map fun entry => cdrsCell row entry.1)).2 = row.2.readBack := by
    rw [cdrOfCells_row]
    simp only [cdrsCell_sqlName, CdrsRow.readBack]
  have back : ∀ cdr ∈ (cdrs.filter (·.row.mark leg = dig)).take cdrBatchLimit,
      cdr.row.readBack = cdr := by
    intro cdr member
    have kept := List.mem_of_mem_filter (List.mem_of_mem_take member)
    rw [← reads (0, cdr.row), cdrOfCells_of_short (short cdr kept)]
  have picked : (table.select (·.mark leg = dig)).map Prod.snd =
      (cdrs.filter (·.row.mark leg = dig)).map CdrT.row := by
    have rows := congrArg (List.filter fun row : CdrsRow => row.mark leg = dig) holds
    rw [List.filter_map, List.filter_map] at rows
    exact rows
  calc (cdrGetCdrsOf table leg dig).map Prod.snd
      = ((table.select (·.mark leg = dig)).take cdrBatchLimit).map fun row => row.2.readBack := by
        rw [cdrGetCdrsOf, List.map_map]
        exact List.map_congr_left fun row _ => reads row
    _ = (((table.select (·.mark leg = dig)).map Prod.snd).take cdrBatchLimit).map
          CdrsRow.readBack := by
        rw [← List.map_take, List.map_map]
        rfl
    _ = ((cdrs.filter (·.row.mark leg = dig)).take cdrBatchLimit).map fun cdr =>
          cdr.row.readBack := by
        rw [picked, ← List.map_take, List.map_map]
        rfl
    _ = (cdrs.filter (·.row.mark leg = dig)).take cdrBatchLimit :=
        (List.map_congr_left back).trans (List.map_id _)

/-! ## From the remote databases to the rating -/

/-- An import from a remote database: the parameters of its profile, its query, the database, and
what becomes of the INSERTs; those that have no outcome are performed. -/
structure RemoteImport where
  params : List XmlParam
  query : StorageQuery
  db : RemoteDb
  cdrServerId : ℤ
  cdrRecTypeId : ℤ
  filters : Option (List PrefixFilter)
  outcomes : List DbOutcome

namespace RemoteImport

/-- The columns of the profile. -/
def cols (remote : RemoteImport) : CdrStorageCols := cdrCfgStorageProfileXml remote.params

/-- The answer of the database. -/
def answer (remote : RemoteImport) : List (List (List Char)) :=
  remote.db.answer (cdrStorageSqlQueryParser remote.query remote.cols)

/-- What `cdr_add_in_db` gets, with the outcomes of its statements. -/
def offers (remote : RemoteImport) (cdrs : List CdrT) : List (CdrT × DbOutcome) :=
  (cdrs.map (·.prepared remote.filters)).zip
    (remote.outcomes ++ List.replicate cdrs.length .done)

/-- `cdr_storage_get_remote_cdrs`: the table after the import; nothing when the mediator stops. -/
def run (timestamps : Timestamps) (table : SerialTable CdrsRow) (remote : RemoteImport) :
    Option (SerialTable CdrsRow) :=
  (remote.cols.remoteCdrs (storageCdr remote.cdrServerId remote.cdrRecTypeId)
    remote.answer).map fun cdrs => cdrsAfter timestamps table (remote.offers cdrs)

/-- The CDRs that the profile is for. -/
def byName (remote : RemoteImport) : List CdrT :=
  namedCdrs remote.params (storageCdr remote.cdrServerId remote.cdrRecTypeId)
    (remote.db.rows remote.query.from)

/-- The profile names fields, for at least one column, and columns of the remote table. -/
structure Valid (remote : RemoteImport) : Prop where
  named : Named remote.params
  plain : PlainValues remote.params
  some_value : usedParams remote.params ≠ []

theorem Valid.run_eq {remote : RemoteImport} (valid : remote.Valid) (timestamps : Timestamps)
    (table : SerialTable CdrsRow) :
    remote.run timestamps table = some
      (cdrsAfter timestamps table (remote.offers remote.byName)) := by
  have read := (remoteCdrs_byName remote.params remote.query remote.db
    (storageCdr remote.cdrServerId remote.cdrRecTypeId)).2 valid.named valid.plain valid.some_value
  exact congrArg (Option.map fun cdrs => cdrsAfter timestamps table (remote.offers cdrs)) read

end RemoteImport

theorem CdrT.Short.withCells {cdr : CdrT} (short : cdr.Short)
    (cell : CdrColumn → Option (List Char)) : (cdr.withCells cell).Short := by
  intro field
  have positive : 0 < field.len := by cases field <;> decide
  simp only [CdrT.withCells]
  cases cell (.text field) with
  | none => exact short field
  | some txt =>
      have taken := List.length_take_le (field.len - 1) txt
      exact taken.trans_lt (Nat.sub_one_lt_of_lt positive)

theorem storageCdr_short (cdrServerId cdrRecTypeId : ℤ) :
    (storageCdr cdrServerId cdrRecTypeId).Short := by
  intro field
  have positive : 0 < field.len := by cases field <;> decide
  exact positive

theorem CdrT.Short.cutTs {cdr : CdrT} (short : cdr.Short) (field : CdrText) :
    (cdr.cutTs field).Short := by
  intro other
  unfold CdrT.cutTs
  split
  · by_cases own : other = field
    · subst own
      simp only [CdrT.setText, Function.update_self]
      exact (List.length_take_le' _ _).trans_lt (short other)
    · simp only [CdrT.setText, Function.update_of_ne own]
      exact short other
  · exact short other

/-- The filters write the called number and its filter only. -/
theorem cdrCalledNumberFilteringMatch_other (cdr : CdrT) (filters : List PrefixFilter)
    {field : CdrText} (other : field ≠ .calledNumber) :
    (cdr.cdrCalledNumberFilteringMatch filters).text field = cdr.text field := by
  induction filters with
  | nil => rfl
  | cons filter filters induction =>
      simp only [CdrT.cdrCalledNumberFilteringMatch]
      split
      · rfl
      · split
        · exact Function.update_of_ne other _ _
        · exact induction

/-- A CDR with short texts stays in its arrays until it is stored. -/
theorem CdrT.Short.prepared {cdr : CdrT} (short : cdr.Short)
    (filters : Option (List PrefixFilter)) : (cdr.prepared filters).Prepared := by
  intro field other
  have cut := ((short.cutTs .startTs).cutTs .answerTs).cutTs .endTs
  unfold CdrT.prepared
  cases filters with
  | none => exact cut field
  | some filters =>
      dsimp only
      rw [cdrCalledNumberFilteringMatch_other _ filters other]
      exact cut field

theorem RemoteImport.offers_prepared (remote : RemoteImport) {offer : CdrT × DbOutcome}
    (offered : offer ∈ remote.offers remote.byName) : offer.1.Prepared := by
  have prepared := (List.of_mem_zip offered).1
  obtain ⟨cdr, named, same⟩ := List.mem_map.mp prepared
  obtain ⟨row, -, rfl⟩ := List.mem_map.mp named
  rw [← same]
  exact ((storageCdr_short _ _).withCells _).prepared _

/-- Imports one after the other. -/
def importAll (timestamps : Timestamps) (table : SerialTable CdrsRow)
    (imports : List RemoteImport) : Option (SerialTable CdrsRow) :=
  imports.foldlM (RemoteImport.run timestamps) table

theorem importAll_eq {timestamps : Timestamps} {imports : List RemoteImport}
    (valid : ∀ remote ∈ imports, remote.Valid) (table : SerialTable CdrsRow) :
    importAll timestamps table imports =
      some (cdrsAfter timestamps table
        (imports.flatMap fun remote => remote.offers remote.byName)) := by
  induction imports generalizing table with
  | nil => rfl
  | cons remote imports induction =>
      have first := (valid remote List.mem_cons_self).run_eq timestamps table
      have rest := induction (fun other member => valid other (List.mem_cons_of_mem _ member))
      have split : cdrsAfter timestamps table ((remote :: imports).flatMap fun remote =>
          remote.offers remote.byName) =
            cdrsAfter timestamps (cdrsAfter timestamps table (remote.offers remote.byName))
              (imports.flatMap fun remote => remote.offers remote.byName) := by
        rw [List.flatMap_cons]
        exact List.foldl_append
      rw [importAll, List.foldlM_cons, first, split]
      exact rest _

/-- A profile with four columns, on a remote table with two rows of one call. -/
def voipImport : RemoteImport where
  params :=
    [⟨"call_uid", "uniqueid"⟩, ⟨"start_ts", "calldate"⟩, ⟨"answer_ts", ""⟩,
      ⟨"called_number", "dst"⟩,
      ⟨"billsec", "billsec"⟩]
  query := ⟨"cdr", "calldate", "'2013-05-20 13:00:00'", ""⟩
  db :=
    { rows := fun _ =>
        [fun column =>
            if column = "uniqueid" then "c1".toList
            else if column = "calldate" then "2013-05-20 13:45:45".toList
            else if column = "dst" then "359".toList
            else "61".toList,
          fun column =>
            if column = "uniqueid" then "c1".toList
            else if column = "calldate" then "2013-05-20 13:45:45".toList
            else "7".toList] }
  cdrServerId := 2
  cdrRecTypeId := 3
  filters := none
  outcomes := []

/-- Times of nineteen characters. -/
def plainTimes : Timestamps := fun txt => if txt.length = 19 then some txt else none

end RateEngine
