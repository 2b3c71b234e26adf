import RateEngine.CdrFile
import RateEngine.CdrStore
import RateEngine.Lib.SerialTable
import Mathlib.Data.List.ReduceOption

/-!
# Importing a CDR file

`cdr_file_reader` looks a file up in `cdr_files`, has `cdr_file_parser` store its rows, and moves
the file away when the parser returns zero.  The parser counts the rows that it stored and returns
zero whatever the count is.  This file states for which failures of the database no valid row is
lost.
-/

namespace RateEngine

/-! ## The parser and its rows -/

/-- The fields of `cdr_file_profile_t` that the import reads beside the grammar of the file. -/
structure CdrFileSource where
  profile : CdrFileProfile
  hdr : List (CdrFileHeader CdrColumn)
  filters : Option (List PrefixFilter)
  cdrServerId : ℤ
  cdrRecTypeId : ℤ

/-- The server that `cdr_file_parser` falls back to when none has been resolved. -/
def CdrFileSource.serverId (source : CdrFileSource) : ℤ :=
  if source.cdrServerId = 0 then 1 else source.cdrServerId

/-- The CDR that the parser fills from the columns of a row. -/
def CdrFileSource.fillCdr (source : CdrFileSource) (columns : List (CdrColumn × List Char)) :
    CdrT :=
  columns.foldl CdrT.add ((CdrT.cleared.setNum .cdrServerId source.serverId).setNum
    .cdrRecTypeId source.cdrRecTypeId)

/-- The test of the parser on a CDR. -/
def CdrT.Valid (cdr : CdrT) : Prop :=
  cdr.text .callUid ≠ [] ∧ cdr.text .calledNumber ≠ [] ∧ 0 < cdr.num .cdrServerId ∧
    0 < cdr.num .billsec

instance (cdr : CdrT) : Decidable cdr.Valid := inferInstanceAs (Decidable (_ ∧ _ ∧ _ ∧ _))

/-- The valid rows of a file. -/
def CdrFileSource.validRows (source : CdrFileSource) (rows : List (List (CdrColumn × List Char))) :
    List CdrT := (rows.map source.fillCdr).filter fun cdr => cdr.Valid

/-- What fails while one file is handled: the SELECT on `cdr_files`, opening the file, the array for
each row, each INSERT into `cdrs`, the INSERT into `cdr_files` and the move. -/
structure ImportFaults where
  lookup : DbOutcome
  opened : Bool
  allocated : ℕ → Bool
  insert : ℕ → DbOutcome
  record : DbOutcome
  renamed : Bool

/-- The loop of `cdr_file_parser`: its return code and the table, or nothing when a field overruns
its text. -/
def CdrFileSource.parseRows (source : CdrFileSource) (allocated : ℕ → Bool) (insert : ℕ → DbOutcome)
    (table : CdrsTable) : List (Option (List (CdrColumn × List Char))) → Option (ℤ × CdrsTable)
  | [] => some (0, table)
  | row :: rows =>
      if allocated 0 then
        match row with
        | none => none
        | some columns =>
            let cdr := source.fillCdr columns
            if cdr.Valid then
              source.parseRows (fun k => allocated (k + 1)) (fun k => insert (k + 1))
                (cdrAddInDb (insert 0) table source.filters cdr).2 rows
            else source.parseRows (fun k => allocated (k + 1)) insert table rows
      else some (3, table)

/-! ## The reader -/

/-- The tables and the source directory: the content of each file in it. -/
structure ImportState where
  cdrs : CdrsTable
  cdrFiles : SerialTable (ℤ × String)
  srcDir : String → Option (List Char)

/-- `cdr_file_get_from_tbl`: the id of the one row of a file, zero without a result. -/
def ImportState.cdrFileGetFromTbl (s : ImportState) (outcome : DbOutcome) (filename : String)
    (cdrServerId : ℤ) : ℕ :=
  match outcome with
  | .done =>
      match s.cdrFiles.select fun row => row = (cdrServerId, filename) with
      | [row] => row.1
      | _ => 0
  | _ => 0

/-- `cdr_file_add_in_tbl`; its return code is not used. -/
def ImportState.cdrFileAddInTbl (s : ImportState) (outcome : DbOutcome) (filename : String)
    (cdrServerId : ℤ) : ImportState :=
  if outcome.executes then { s with cdrFiles := s.cdrFiles.insert (cdrServerId, filename) } else s

/-- `cdr_file_move`. -/
def ImportState.cdrFileMove (s : ImportState) (renamed : Bool) (filename : String) : ImportState :=
  if renamed then { s with srcDir := Function.update s.srcDir filename none } else s

/-- `cdr_file_parser` on a file: its return code and the state. -/
def CdrFileSource.cdrFileParser (source : CdrFileSource) (faults : ImportFaults) (s : ImportState)
    (filename : String) : Option (ℤ × ImportState) :=
  match if faults.opened then s.srcDir filename else none with
  | none => some (2, s)
  | some content =>
      match source.parseRows faults.allocated faults.insert s.cdrs
        (source.profile.cdrFileParser source.hdr content) with
      | none => none
      | some (ret, cdrs) =>
          if ret = 0 then
            some (0, { s with cdrs }.cdrFileAddInTbl faults.record filename source.serverId)
          else some (ret, { s with cdrs })

/-- The body of the loop of `cdr_file_reader`. -/
def CdrFileSource.cdrFileReader (source : CdrFileSource) (faults : ImportFaults) (s : ImportState)
    (filename : String) : Option ImportState :=
  if s.cdrFileGetFromTbl faults.lookup filename source.cdrServerId = 0 then
    match source.cdrFileParser faults s filename with
    | none => none
    | some (ret, s') => some (if ret = 0 then s'.cdrFileMove faults.renamed filename else s')
  else some (s.cdrFileMove faults.renamed filename)

/-! ## What becomes of a file -/

/-- A row of the call of a CDR is in the table. -/
def Stored (table : CdrsTable) (cdr : CdrT) : Prop := ∃ row ∈ table.rows, row.IsCall cdr.call

/-- The first row under the uid of a CDR is of its call. -/
def FirstHolder (rows : List CdrsRow) (cdr : CdrT) : Prop :=
  ∃ row, rows.find? (fun row => row.text .callUid = cdr.call.2) = some row ∧ row.IsCall cdr.call

/-- A file is recorded for the server of its profile. -/
def ImportState.Recorded (s : ImportState) (filename : String) (serverId : ℤ) : Prop :=
  ∃ row ∈ s.cdrFiles.rows, row.2 = (serverId, filename)

/-- The rows before the first array that cannot be allocated. -/
def reachedRows {α : Type} (allocated : ℕ → Bool) : List α → List α
  | [] => []
  | row :: rows =>
      if allocated 0 then row :: reachedRows (fun k => allocated (k + 1)) rows else []

/-- The rows of the CDRs whose INSERT is executed. -/
def executedRows (filters : Option (List PrefixFilter)) (insert : ℕ → DbOutcome) :
    List CdrT → List CdrsRow
  | [] => []
  | cdr :: cdrs =>
      if (insert 0).executes then
        (cdr.prepared filters).row :: executedRows filters (fun k => insert (k + 1)) cdrs
      else executedRows filters (fun k => insert (k + 1)) cdrs

namespace CdrFileSource

variable (source : CdrFileSource) (faults : ImportFaults) (s : ImportState) (filename : String)
  (content : List Char)

/-- The rows that the parser builds of a file. -/
def rows : List (Option (List (CdrColumn × List Char))) :=
  source.profile.cdrFileParser source.hdr content

/-- The reader finds the file in `cdr_files`. -/
def Found : Prop := s.cdrFileGetFromTbl faults.lookup filename source.cdrServerId ≠ 0

instance : Decidable (source.Found faults s filename) := inferInstanceAs (Decidable (_ ≠ _))

/-- The rows that the database inserts, or would but for their key, while the file is handled. -/
def imported : List CdrsRow :=
  if source.Found faults s filename ∨ faults.opened = false then []
  else
    executedRows source.filters faults.insert
      (source.validRows (reachedRows faults.allocated (source.rows content)).reduceOption)

/-- No valid row is lost: all are stored, or the file waits in its directory and is not recorded. -/
def NothingLost : Prop :=
  (∀ cdr ∈ source.validRows (source.rows content).reduceOption, Stored s.cdrs cdr) ∨
    (s.srcDir filename = some content ∧ ¬ s.Recorded filename source.serverId)

/-- The file has not been recorded, and either it is moved and recorded by nobody, or the parser
gives up: the file cannot be opened or an array cannot be allocated. -/
def Waits : Prop :=
  ¬ s.Recorded filename source.serverId ∧
    if source.Found faults s filename then faults.renamed = false
    else
      faults.opened = false ∨
        reachedRows faults.allocated (source.rows content) ≠ source.rows content ∨
        (faults.renamed = false ∧ faults.record.executes = false)

end CdrFileSource

/-! ## The loop of the parser -/

/-- A row of a call is in the table after inserts exactly when the first row under its uid is of the
call. -/
theorem stored_insertAll_iff (table : CdrsTable) (rows : List CdrsRow) (cdr : CdrT) :
    Stored (table.insertAll rows) cdr ↔ FirstHolder (table.rows ++ rows) cdr := by
  have first := UniqueTable.find_insertAll table rows cdr.call.2
  rw [FirstHolder, ← first]
  constructor
  · rintro ⟨row, member, own⟩
    have found := UniqueTable.find_of_mem member
    rw [own.1] at found
    exact ⟨row, found, own⟩
  · rintro ⟨row, found, own⟩
    exact ⟨row, UniqueTable.mem_of_find found, own⟩

theorem CdrFileSource.validRows_cons (source : CdrFileSource)
    (columns : List (CdrColumn × List Char)) (rows : List (List (CdrColumn × List Char))) :
    source.validRows (columns :: rows) =
      if (source.fillCdr columns).Valid then source.fillCdr columns :: source.validRows rows
      else source.validRows rows := by
  simp only [validRows, List.map_cons, List.filter_cons, decide_eq_true_eq]

/-- The loop inserts the valid rows that it reaches, as far as their INSERT is executed, and returns
zero exactly when it reaches all. -/
theorem CdrFileSource.parseRows_eq (source : CdrFileSource) {allocated : ℕ → Bool}
    {insert : ℕ → DbOutcome} {table table' : CdrsTable} {ret : ℤ}
    {rows : List (Option (List (CdrColumn × List Char)))}
    (parsed : source.parseRows allocated insert table rows = some (ret, table')) :
    table' = table.insertAll (executedRows source.filters insert
        (source.validRows (reachedRows allocated rows).reduceOption)) ∧
      (ret = 0 ↔ reachedRows allocated rows = rows) := by
  induction rows generalizing allocated insert table with
  | nil =>
      obtain ⟨rfl, rfl⟩ := Prod.mk.inj (Option.some.inj parsed)
      exact ⟨rfl, iff_of_true rfl rfl⟩
  | cons row rows induction =>
      rw [reachedRows]
      simp only [parseRows] at parsed
      split at parsed
      · rename_i room
        rw [if_pos room]
        cases row with
        | none => cases parsed
        | some columns =>
            rw [List.reduceOption_cons_of_some, validRows_cons]
            simp only at parsed
            by_cases valid : (source.fillCdr columns).Valid
            · rw [if_pos valid] at parsed
              obtain ⟨rfl, complete⟩ := induction parsed
              refine ⟨?_, by rw [complete, List.cons_inj_right]⟩
              rw [if_pos valid, executedRows]
              simp only [cdrAddInDb, cdrAddInDbQuery]
              split
              · rfl
              · rfl
            · rw [if_neg valid] at parsed
              obtain ⟨rfl, complete⟩ := induction parsed
              exact ⟨by rw [if_neg valid], by rw [complete, List.cons_inj_right]⟩
      · rename_i full
        rw [if_neg full]
        obtain ⟨rfl, rfl⟩ := Prod.mk.inj (Option.some.inj parsed)
        exact ⟨rfl, iff_of_false (by decide) (List.cons_ne_nil _ _).symm⟩

/-! ## The reader -/

namespace CdrFileSource

variable {source : CdrFileSource} {faults : ImportFaults} {s s' : ImportState} {filename : String}
  {content : List Char}

theorem recorded_cdrFileMove (s : ImportState) (renamed : Bool) (filename : String) (serverId : ℤ) :
    (s.cdrFileMove renamed filename).Recorded filename serverId ↔ s.Recorded filename serverId := by
  cases renamed <;> exact Iff.rfl

theorem srcDir_cdrFileMove (s : ImportState) (renamed : Bool) (filename : String) :
    (s.cdrFileMove renamed filename).srcDir filename =
      if renamed then none else s.srcDir filename := by
  cases renamed with
  | true => simp only [ImportState.cdrFileMove, if_true, Function.update_self]
  | false => rfl

theorem cdrs_cdrFileMove (s : ImportState) (renamed : Bool) (filename : String) :
    (s.cdrFileMove renamed filename).cdrs = s.cdrs := by
  cases renamed <;> rfl

/-- A file is recorded after an INSERT when it was before or the INSERT is executed. -/
theorem recorded_cdrFileAddInTbl (s : ImportState) (outcome : DbOutcome) (filename : String)
    (serverId : ℤ) :
    (s.cdrFileAddInTbl outcome filename serverId).Recorded filename serverId ↔
      s.Recorded filename serverId ∨ outcome.executes = true := by
  unfold ImportState.cdrFileAddInTbl
  split
  · rename_i executed
    refine iff_of_true ⟨(s.cdrFiles.next, serverId, filename), ?_, rfl⟩ (Or.inr executed)
    exact List.mem_append_right _ (List.mem_singleton_self _)
  · rename_i unexecuted
    exact (or_iff_left unexecuted).symm

theorem cdrFileAddInTbl_kept (s : ImportState) (outcome : DbOutcome) (filename : String)
    (serverId : ℤ) : (s.cdrFileAddInTbl outcome filename serverId).cdrs = s.cdrs ∧
      (s.cdrFileAddInTbl outcome filename serverId).srcDir = s.srcDir := by
  unfold ImportState.cdrFileAddInTbl
  split <;> exact ⟨rfl, rfl⟩

/-- The reader leaves the imported rows in the table, and the file waits as the failures say. -/
theorem cdrFileReader_eq (present : s.srcDir filename = some content)
    (handled : source.cdrFileReader faults s filename = some s') :
    s'.cdrs = s.cdrs.insertAll (source.imported faults s filename content) ∧
      (s'.srcDir filename = some content ∧ ¬ s'.Recorded filename source.serverId ↔
        source.Waits faults s filename content) := by
  unfold cdrFileReader at handled
  unfold imported Waits
  split at handled
  · rename_i unfound
    have missing : ¬ source.Found faults s filename := not_not_intro unfound
    rw [if_neg missing]
    unfold cdrFileParser at handled
    cases opened : faults.opened with
    | false =>
        simp only [opened, Bool.false_eq_true, if_false] at handled
        obtain rfl : s = s' := Option.some.inj handled
        rw [if_pos (Or.inr rfl), present]
        exact ⟨rfl, by simp⟩
    | true =>
        rw [if_neg (by simp [missing])]
        simp only [opened, if_true, present] at handled
        cases parsed : source.parseRows faults.allocated faults.insert s.cdrs
            (source.profile.cdrFileParser source.hdr content) with
        | none =>
            rw [parsed] at handled
            cases handled
        | some result =>
            obtain ⟨ret, cdrs⟩ := result
            obtain ⟨rfl, complete⟩ := source.parseRows_eq parsed
            rw [parsed] at handled
            by_cases whole : ret = 0
            · simp only [if_pos whole, if_true] at handled
              obtain rfl := Option.some.inj handled
              refine ⟨(cdrs_cdrFileMove _ _ _).trans (cdrFileAddInTbl_kept _ _ _ _).1, ?_⟩
              have reached : reachedRows faults.allocated (source.rows content) =
                source.rows content := complete.mp whole
              rw [srcDir_cdrFileMove, recorded_cdrFileMove, recorded_cdrFileAddInTbl,
                (cdrFileAddInTbl_kept _ _ _ _).2]
              cases faults.renamed with
              | true => simp [reached]
              | false => simp [present, reached, ImportState.Recorded]
            · simp only [if_neg whole] at handled
              obtain rfl := Option.some.inj handled
              have stopped : reachedRows faults.allocated (source.rows content) ≠
                source.rows content := mt complete.mpr whole
              refine ⟨rfl, ?_⟩
              exact ⟨fun waits => ⟨waits.2, Or.inr (Or.inl stopped)⟩,
                fun waits => ⟨present, waits.1⟩⟩
  · rename_i unfound
    have found : source.Found faults s filename := unfound
    obtain rfl := Option.some.inj handled
    rw [if_pos (Or.inl found), if_pos found, cdrs_cdrFileMove, srcDir_cdrFileMove,
      recorded_cdrFileMove, present]
    refine ⟨rfl, ?_⟩
    cases faults.renamed <;> simp

end CdrFileSource

/-- No valid row of a handled file is lost exactly when the first row under the uid of each valid
row, among those that were there and those whose INSERT is executed, is of its call, or the failures
leave the file where it is. -/
theorem cdrFileReader_nothingLost_iff {source : CdrFileSource} {faults : ImportFaults}
    {s s' : ImportState} {filename : String} {content : List Char}
    (present : s.srcDir filename = some content)
    (handled : source.cdrFileReader faults s filename = some s') :
    source.NothingLost s' filename content ↔
      (∀ cdr ∈ source.validRows (source.rows content).reduceOption,
        FirstHolder (s.cdrs.rows ++ source.imported faults s filename content) cdr) ∨
      source.Waits faults s filename content := by
  obtain ⟨cdrs, waits⟩ := CdrFileSource.cdrFileReader_eq present handled
  rw [CdrFileSource.NothingLost, waits, cdrs]
  exact or_congr_left (forall₂_congr fun cdr _ => stored_insertAll_iff s.cdrs _ cdr)

/-! ## A file of one row -/

/-- A profile of files with a uid, a number and a length. -/
def threeColumns : CdrFileSource where
  profile := ⟨',', '#', none, 3, twoColumns.colSep_ne, by simp⟩
  hdr := [⟨0, some (.text .callUid)⟩, ⟨1, some (.text .calledNumber)⟩, ⟨2, some (.num .billsec)⟩]
  filters := none
  cdrServerId := 2
  cdrRecTypeId := 1

/-- The file `a` with one row, in front of empty tables. -/
def oneRowFile : ImportState where
  cdrs := .empty
  cdrFiles := .empty
  srcDir filename := if filename = "a" then some ['7', ',', '8', ',', '9'] else none

/-- The failures with this outcome of each INSERT into `cdrs` and nothing else. -/
def insertFaults (outcome : DbOutcome) : ImportFaults :=
  ⟨.done, true, fun _ => true, fun _ => outcome, .done, true⟩

theorem cdrFileReader_nothingLost_oneRow :
    ∃ s', threeColumns.cdrFileReader (insertFaults .done) oneRowFile "a" = some s' ∧
      threeColumns.NothingLost s' "a" ['7', ',', '8', ',', '9'] := by
  have handled : threeColumns.cdrFileReader (insertFaults .done) oneRowFile "a" = some _ := rfl
  refine ⟨_, handled, (cdrFileReader_nothingLost_iff rfl handled).mpr (Or.inl fun cdr valid => ?_)⟩
  obtain rfl := List.mem_singleton.mp valid
  exact ⟨_, rfl, rfl, rfl⟩

/-- The server refuses the INSERT of the row: the file is recorded and moved, and
the row is lost. -/
theorem not_cdrFileReader_nothingLost_failed :
    ∃ s', threeColumns.cdrFileReader (insertFaults .failed) oneRowFile "a" = some s' ∧
      ¬ threeColumns.NothingLost s' "a" ['7', ',', '8', ',', '9'] := by
  refine ⟨_, rfl, ?_⟩
  rintro (stored | ⟨present, _⟩)
  · obtain ⟨row, member, _⟩ := stored _ (List.mem_singleton_self _)
    exact List.not_mem_nil member
  · have moved : none = some ['7', ',', '8', ',', '9'] := present
    cases moved

end RateEngine
