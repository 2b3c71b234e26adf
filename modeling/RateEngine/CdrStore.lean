import RateEngine.AccountLookup
import RateEngine.CallRequests
import RateEngine.Lib.UniqueTable

/-!
# The store of CDRs

CDRs come from files, from remote databases and from calls; `cdr_add_in_db` inserts each of them
into the table `cdrs`, which keeps one row for each `call_uid`.  This file models the CDR, the
insert and the table, and states when a sequence of imports leaves one row for each call of each
server.
-/

namespace RateEngine

/-! ## The CDR -/

/-- The text fields of `cdr_t` that are stored. -/
inductive CdrText where
  | callUid | startTs | answerTs | endTs | src | dst | callingNumber | calledNumber | rdnis | ocn
  | accountCode | srcContext | srcTgroup | dstContext | dstTgroup
  deriving DecidableEq

/-- The size of a text field: `CALL_UID_LEN`, `TS_LEN` and the lengths of numbers and names. -/
def CdrText.len : CdrText → ℕ
  | callUid => 128
  | startTs | answerTs | endTs => 32
  | src | dst | callingNumber | calledNumber | rdnis | ocn => 80
  | accountCode | srcContext | srcTgroup | dstContext | dstTgroup => 80

/-- The number fields of `cdr_t` that are stored. -/
inductive CdrNum where
  | cdrServerId | cdrRecTypeId | legA | legB | startEpoch | answerEpoch | endEpoch | clgNadi
  | cldNadi | rdnisNadi | ocnNadi | prefixFilterId | billsec | duration | uduration | billusec
  deriving DecidableEq

/-- The width of a number field: `unsigned short` or `unsigned int`. -/
def CdrNum.bits : CdrNum → ℕ
  | cdrServerId | cdrRecTypeId | clgNadi | cldNadi | rdnisNadi | ocnNadi | prefixFilterId => 16
  | legA | legB | startEpoch | answerEpoch | endEpoch | billsec | duration | uduration
  | billusec => 32

/-- `cdr_t`: the texts are C strings, each number is in the range of its field. -/
structure CdrT where
  text : CdrText → List Char
  num : CdrNum → ℕ
  num_lt : ∀ field, num field < 2 ^ field.bits

theorem asUnsigned_lt (bits : ℕ) (n : ℤ) : asUnsigned bits n < 2 ^ bits := by
  have positive : (0 : ℤ) < 2 ^ bits := by positivity
  have bound := Int.emod_lt_of_pos n positive
  have nonneg := Int.emod_nonneg n positive.ne'
  rw [asUnsigned]
  zify
  rwa [Int.toNat_of_nonneg nonneg]

namespace CdrT

/-- The CDR that `memset` has cleared. -/
def cleared : CdrT := ⟨fun _ => [], fun _ => 0, fun field => Nat.two_pow_pos field.bits⟩

/-- Write a text field. -/
def setText (cdr : CdrT) (field : CdrText) (txt : List Char) : CdrT :=
  { cdr with text := Function.update cdr.text field txt }

/-- Write a number field, in the width of the field. -/
def setNum (cdr : CdrT) (field : CdrNum) (n : ℤ) : CdrT where
  text := cdr.text
  num := Function.update cdr.num field (asUnsigned field.bits n)
  num_lt other := by
    by_cases own : other = field
    · subst own
      rw [Function.update_self]
      exact asUnsigned_lt _ n
    · rw [Function.update_of_ne own]
      exact cdr.num_lt other

/-- `cdr_field_set`, the body of `cdr_add_call_uid` and the other setters of text fields. -/
def cdrFieldSet (cdr : CdrT) (field : CdrText) (txt : List Char) : CdrT :=
  cdr.setText field (txt.take (field.len - 1))

/-- The body of `cdr_add_cdr_server_id` and the other setters of number fields. -/
def cdrAddNum (cdr : CdrT) (field : CdrNum) (txt : List Char) : CdrT :=
  cdr.setNum field (atoi (String.ofList txt))

end CdrT

/-- The setters of `cdr_tbl`, named after the field that they fill. -/
inductive CdrColumn where
  | text (field : CdrText)
  | num (field : CdrNum)
  deriving DecidableEq

/-- Call the setter of a column. -/
def CdrT.add (cdr : CdrT) : CdrColumn × List Char → CdrT
  | (.text field, txt) => cdr.cdrFieldSet field txt
  | (.num field, txt) => cdr.cdrAddNum field txt

/-! ## `cdr_add_in_db` -/

/-- `filter`. -/
structure PrefixFilter where
  id : ℤ
  filteringPrefix : List Char
  filteringNumber : ℤ
  replaceStr : List Char
  len : ℤ

/-- `prefix_filter_cuti_replace`: the new number, empty when the filter does not match. -/
def prefixFilterCutiReplace (filter : PrefixFilter) (number : List Char) : List Char :=
  if 0 < filter.len ∧ (number.length : ℤ) ≠ filter.len then []
  else if number.take filter.filteringPrefix.length = filter.filteringPrefix then
    filter.replaceStr ++
      if filter.filteringNumber < 0 then [] else number.drop filter.filteringNumber.toNat
  else []

namespace CdrT

/-- `cdr_called_number_filtering_match`: the first filter that gives a number. -/
def cdrCalledNumberFilteringMatch (cdr : CdrT) : List PrefixFilter → CdrT
  | [] => cdr
  | filter :: filters =>
      if filter.id = 0 then cdr
      else
        let ret := prefixFilterCutiReplace filter (cdr.text .calledNumber)
        if ret ≠ [] then (cdr.setText .calledNumber ret).setNum .prefixFilterId filter.id
        else cdr.cdrCalledNumberFilteringMatch filters

/-- `DT_LEN`. -/
def dtLen : ℕ := 20

/-- `convert_datetime` on a time that is longer than a date and a time. -/
def cutTs (cdr : CdrT) (field : CdrText) : CdrT :=
  if dtLen < (cdr.text field).length then
    cdr.setText field ((cdr.text field).take (dtLen - 1))
  else cdr

/-- What `cdr_add_in_db` does to a CDR before it stores it. -/
def prepared (cdr : CdrT) (filters : Option (List PrefixFilter)) : CdrT :=
  let cdr := ((cdr.cutTs .startTs).cutTs .answerTs).cutTs .endTs
  match filters with
  | none => cdr
  | some filters => cdr.cdrCalledNumberFilteringMatch filters

end CdrT

/-- A row of `cdrs` without the serial key. -/
structure CdrsRow where
  text : CdrText → List Char
  num : CdrNum → ℤ

/-- An `unsigned int` as `%d` prints it. -/
def asInt (n : ℕ) : ℤ := if n < 2147483648 then n else n - 4294967296

/-- The row that the INSERT writes. -/
def CdrT.row (cdr : CdrT) : CdrsRow := ⟨cdr.text, fun field => asInt (cdr.num field)⟩

/-- `cdrs`: its `call_uid` is `UNIQUE`. -/
abbrev CdrsTable := UniqueTable fun row : CdrsRow => row.text .callUid

/-- What becomes of a statement: it is executed; the server answers with an error; or there is no
answer, and the statement may have been executed. -/
inductive DbOutcome where
  | done
  | failed
  | lost (executed : Bool)
  deriving DecidableEq

/-- The statement has been executed. -/
def DbOutcome.executes : DbOutcome → Bool
  | done => true
  | failed => false
  | lost executed => executed

/-- `db_pgsql_query`: an answer with an error is an answer; without one the code is
`DB_ERR_SQLRES_NUL`. -/
def DbOutcome.code : DbOutcome → ℤ
  | done => 0
  | failed => 0
  | lost _ => -10

/-- `cdr_add_in_db_query`: an INSERT with `on conflict do nothing`. -/
def cdrAddInDbQuery (outcome : DbOutcome) (table : CdrsTable) (cdr : CdrT) : ℤ × CdrsTable :=
  (outcome.code, if outcome.executes then table.insert cdr.row else table)

/-- `cdr_add_in_db` on an SQL database. -/
def cdrAddInDb (outcome : DbOutcome) (table : CdrsTable) (filters : Option (List PrefixFilter))
    (cdr : CdrT) : ℤ × CdrsTable :=
  cdrAddInDbQuery outcome table (cdr.prepared filters)

/-! ## The key of a row -/

namespace CdrT

/-- The server and the uid, which name a call in `cdr_get_cdr_id`. -/
def call (cdr : CdrT) : ℕ × List Char := (cdr.num .cdrServerId, cdr.text .callUid)

theorem callUid_setText (cdr : CdrT) {field : CdrText} (other : field ≠ .callUid)
    (txt : List Char) : (cdr.setText field txt).text .callUid = cdr.text .callUid := by
  simp only [setText, Function.update_of_ne other.symm]

theorem num_setNum_self (cdr : CdrT) (field : CdrNum) (n : ℤ) :
    (cdr.setNum field n).num field = asUnsigned field.bits n := by
  simp only [setNum, Function.update_self]

theorem num_setNum (cdr : CdrT) {field changed : CdrNum} (other : field ≠ changed) (n : ℤ) :
    (cdr.setNum changed n).num field = cdr.num field :=
  Function.update_of_ne other _ cdr.num

/-- Cutting a time changes neither a number nor the uid. -/
theorem cutTs_kept (cdr : CdrT) (field : CdrText) (other : field ≠ .callUid) :
    (cdr.cutTs field).num = cdr.num ∧ (cdr.cutTs field).text .callUid = cdr.text .callUid := by
  unfold cutTs
  split
  · exact ⟨rfl, callUid_setText cdr other _⟩
  · exact ⟨rfl, rfl⟩

/-- The filters change the called number and the id of the filter only. -/
theorem cdrCalledNumberFilteringMatch_kept (cdr : CdrT) (filters : List PrefixFilter) :
    (∀ field ≠ .prefixFilterId, (cdr.cdrCalledNumberFilteringMatch filters).num field =
      cdr.num field) ∧
    (cdr.cdrCalledNumberFilteringMatch filters).text .callUid = cdr.text .callUid := by
  induction filters with
  | nil => exact ⟨fun _ _ => rfl, rfl⟩
  | cons filter filters induction =>
      simp only [cdrCalledNumberFilteringMatch]
      split
      · exact ⟨fun _ _ => rfl, rfl⟩
      · split
        · refine ⟨fun field other => num_setNum _ other _, ?_⟩
          have other : CdrText.calledNumber ≠ .callUid := by decide
          exact callUid_setText cdr other (prefixFilterCutiReplace filter (cdr.text .calledNumber))
        · exact induction

/-- Preparing a CDR keeps its numbers, except the id of the filter, and its uid. -/
theorem prepared_kept (cdr : CdrT) (filters : Option (List PrefixFilter)) :
    (∀ field ≠ .prefixFilterId, (cdr.prepared filters).num field = cdr.num field) ∧
    (cdr.prepared filters).text .callUid = cdr.text .callUid := by
  obtain ⟨start_num, start_uid⟩ := cutTs_kept cdr .startTs (by decide)
  obtain ⟨answer_num, answer_uid⟩ := cutTs_kept (cdr.cutTs .startTs) .answerTs (by decide)
  obtain ⟨end_num, end_uid⟩ :=
    cutTs_kept ((cdr.cutTs .startTs).cutTs .answerTs) .endTs (by decide)
  have num := (end_num.trans answer_num).trans start_num
  have uid := (end_uid.trans answer_uid).trans start_uid
  unfold prepared
  cases filters with
  | none => exact ⟨fun field _ => congrFun num field, uid⟩
  | some filters =>
      obtain ⟨filtered_num, filtered_uid⟩ := cdrCalledNumberFilteringMatch_kept
        (((cdr.cutTs .startTs).cutTs .answerTs).cutTs .endTs) filters
      exact ⟨fun field other => (filtered_num field other).trans (congrFun num field),
        filtered_uid.trans uid⟩

/-- Preparing a CDR keeps the call that it names. -/
theorem call_prepared (cdr : CdrT) (filters : Option (List PrefixFilter)) :
    (cdr.prepared filters).call = cdr.call := by
  obtain ⟨num, uid⟩ := cdr.prepared_kept filters
  rw [call, num .cdrServerId (by decide), uid, call]

end CdrT

/-- A row is of this call. -/
def CdrsRow.IsCall (row : CdrsRow) (call : ℕ × List Char) : Prop :=
  row.text .callUid = call.2 ∧ row.num .cdrServerId = call.1

instance (row : CdrsRow) (call : ℕ × List Char) : Decidable (row.IsCall call) :=
  inferInstanceAs (Decidable (_ ∧ _))

/-- The row of a CDR is of the call of the CDR and of no other. -/
theorem CdrT.row_isCall (cdr : CdrT) (call : ℕ × List Char) :
    cdr.row.IsCall call ↔ cdr.call = call := by
  have small : cdr.num .cdrServerId < 65536 := cdr.num_lt .cdrServerId
  have server : asInt (cdr.num .cdrServerId) = cdr.num .cdrServerId := if_pos (by omega)
  simp only [CdrsRow.IsCall, CdrT.row, server, CdrT.call, Prod.ext_iff, Nat.cast_inj]
  exact and_comm

/-! ## Imports -/

/-- The CDRs that one import hands to `cdr_add_in_db`, in order, with its filters. -/
structure CdrImport where
  filters : Option (List PrefixFilter)
  cdrs : List CdrT

/-- An import of which no statement fails. -/
def CdrImport.run (table : CdrsTable) (cdrImport : CdrImport) : CdrsTable :=
  cdrImport.cdrs.foldl (fun table cdr => (cdrAddInDb .done table cdrImport.filters cdr).2) table

/-- The rows that an import offers to the table. -/
def CdrImport.rows (cdrImport : CdrImport) : List CdrsRow :=
  cdrImport.cdrs.map fun cdr => (cdr.prepared cdrImport.filters).row

/-- The table after a sequence of imports into an empty one. -/
def cdrImports (imports : List CdrImport) : CdrsTable := imports.foldl CdrImport.run .empty

/-- The table holds one row for each call that was read, and no other row. -/
def IngestExact (imports : List CdrImport) : Prop :=
  ∀ call : ℕ × List Char, ((cdrImports imports).rows.filter fun row => row.IsCall call).length =
    if ∃ cdr ∈ imports.flatMap CdrImport.cdrs, cdr.call = call then 1 else 0

theorem CdrImport.run_eq (table : CdrsTable) (cdrImport : CdrImport) :
    cdrImport.run table = table.insertAll cdrImport.rows := by
  rw [CdrImport.rows, UniqueTable.insertAll, List.foldl_map]
  rfl

theorem cdrImports_eq (imports : List CdrImport) :
    cdrImports imports = UniqueTable.empty.insertAll (imports.flatMap CdrImport.rows) := by
  rw [cdrImports, UniqueTable.insertAll, List.foldl_flatMap]
  congr 1
  funext table cdrImport
  exact cdrImport.run_eq table

/-- Every offered row is the row of a call that was read. -/
theorem exists_read_of_offered {imports : List CdrImport} {row : CdrsRow}
    (offered : row ∈ imports.flatMap CdrImport.rows) :
    ∃ cdr ∈ imports.flatMap CdrImport.cdrs, ∀ call, row.IsCall call ↔ cdr.call = call := by
  obtain ⟨cdrImport, member, row_member⟩ := List.mem_flatMap.mp offered
  obtain ⟨cdr, read, rfl⟩ := List.mem_map.mp row_member
  refine ⟨cdr, List.mem_flatMap.mpr ⟨cdrImport, member, read⟩, fun call => ?_⟩
  rw [CdrT.row_isCall, CdrT.call_prepared]

/-- Every call that was read has been offered. -/
theorem exists_offered_of_read {imports : List CdrImport} {cdr : CdrT}
    (read : cdr ∈ imports.flatMap CdrImport.cdrs) :
    ∃ row ∈ imports.flatMap CdrImport.rows, row.IsCall cdr.call := by
  obtain ⟨cdrImport, member, cdr_member⟩ := List.mem_flatMap.mp read
  refine ⟨(cdr.prepared cdrImport.filters).row,
    List.mem_flatMap.mpr ⟨cdrImport, member, List.mem_map_of_mem cdr_member⟩, ?_⟩
  rw [CdrT.row_isCall, CdrT.call_prepared]

/-- The rows of a call: the first row that was offered under the uid, if it is of the server. -/
theorem filter_isCall (imports : List CdrImport) (call : ℕ × List Char) :
    ((cdrImports imports).rows.filter fun row => row.IsCall call) =
      (((imports.flatMap CdrImport.rows).find? fun row => row.text .callUid = call.2).filter
        fun row => row.num .cdrServerId = (call.1 : ℤ)).toList := by
  have offered : (cdrImports imports).find call.2 =
      (imports.flatMap CdrImport.rows).find? fun row => row.text .callUid = call.2 := by
    rw [cdrImports_eq]
    exact UniqueTable.find_insertAll _ _ _
  have tests : (fun row : CdrsRow => decide (row.IsCall call)) =
      fun row => decide (row.text .callUid = call.2) && decide
        (row.num .cdrServerId = (call.1 : ℤ)) := by
    funext row
    exact Bool.decide_and _ _
  rw [tests, UniqueTable.filter_key, offered]

/-- No two servers gave CDRs with one uid. -/
def OneServerPerUid (imports : List CdrImport) : Prop :=
  ∀ cdr ∈ imports.flatMap CdrImport.cdrs, ∀ other ∈ imports.flatMap CdrImport.cdrs,
    cdr.text .callUid = other.text .callUid → cdr.num .cdrServerId = other.num .cdrServerId

/-- The table holds one row for each call that was read exactly when no two servers gave CDRs with
one uid: of two such CDRs the second is taken for a duplicate of the first. -/
theorem ingestExact_iff (imports : List CdrImport) :
    IngestExact imports ↔ OneServerPerUid imports := by
  constructor
  · intro exact_rows cdr read other other_read same_uid
    -- both calls have the one row that is kept under the uid
    have kept (read_cdr : CdrT) (member : read_cdr ∈ imports.flatMap CdrImport.cdrs) :
        ∃ row, ((imports.flatMap CdrImport.rows).find? fun row =>
          row.text .callUid = read_cdr.text .callUid) = some row ∧
          row.num .cdrServerId = (read_cdr.num .cdrServerId : ℤ) := by
      have one := exact_rows read_cdr.call
      rw [if_pos ⟨read_cdr, member, rfl⟩, filter_isCall] at one
      obtain ⟨row, only⟩ := List.length_eq_one_iff.mp one
      have found := Option.toList_eq_singleton_iff.mp only
      obtain ⟨first, server⟩ := Option.filter_eq_some_iff.mp found
      exact ⟨row, first, of_decide_eq_true server⟩
    obtain ⟨row, found, server⟩ := kept cdr read
    obtain ⟨other_row, other_found, other_server⟩ := kept other other_read
    rw [← same_uid, found] at other_found
    obtain rfl := Option.some.inj other_found
    exact Nat.cast_injective (server.symm.trans other_server)
  · intro one_server call
    rw [filter_isCall]
    cases found : (imports.flatMap CdrImport.rows).find? fun row => row.text .callUid = call.2 with
    | none =>
        have unread : ¬ ∃ cdr ∈ imports.flatMap CdrImport.cdrs, cdr.call = call := by
          rintro ⟨cdr, read, rfl⟩
          obtain ⟨row, offered, own⟩ := exists_offered_of_read read
          exact List.find?_eq_none.mp found row offered (decide_eq_true own.1)
        rw [if_neg unread]
        rfl
    | some row =>
        obtain ⟨first, read, row_call⟩ :=
          exists_read_of_offered (List.mem_of_find?_eq_some found)
        have uid : row.text .callUid = call.2 := by
          have meets := List.find?_some found
          exact of_decide_eq_true meets
        have own := (row_call first.call).mpr rfl
        by_cases server : row.num .cdrServerId = (call.1 : ℤ)
        · rw [if_pos ⟨first, read, (row_call call).mp ⟨uid, server⟩⟩]
          simp [Option.filter, server]
        · have unread : ¬ ∃ cdr ∈ imports.flatMap CdrImport.cdrs, cdr.call = call := by
            rintro ⟨cdr, cdr_read, rfl⟩
            have same := one_server first read cdr cdr_read (own.1.symm.trans uid)
            exact server (own.2.trans (congrArg _ same))
          rw [if_neg unread]
          simp [Option.filter, server]

/-- A CDR with nothing but a server and a uid. -/
def CdrT.ofCall (cdrServerId : ℕ) (callUid : List Char) : CdrT :=
  (CdrT.cleared.setText .callUid callUid).setNum .cdrServerId cdrServerId

/-- Two servers each give a call with the uid `7`; the call of the second one is not stored. -/
theorem not_ingestExact_two_servers :
    ¬ IngestExact [⟨none, [CdrT.ofCall 1 ['7']]⟩, ⟨none, [CdrT.ofCall 2 ['7']]⟩] := by
  intro exact_rows
  have second := exact_rows (2, ['7'])
  revert second
  decide

end RateEngine
