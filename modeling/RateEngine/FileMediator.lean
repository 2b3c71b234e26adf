import RateEngine.CdrFileImport
import RateEngine.Lib.KeepFirst

/-!
# The mediator of files

The thread of a profile has `cdr_file_reader` go through its directory again and again.  Each pass
lists the directory into an array and frees the array at its end, but the profile keeps the pointer,
and a pass that finds no file takes what it finds there for its list.  This file follows the
directories, the tables and the pointer through all passes.
-/

namespace RateEngine

/-! ## The reader of a profile -/

/-- `cdr_file_profile_t`: what the import reads, and the two directories. -/
structure FileProfile where
  source : CdrFileSource
  srcDir : String
  dstDir : String

/-- The pointer `list`, with the names that its array holds. -/
inductive FileListPtr where
  | null
  | held (names : List String)
  | freed
deriving DecidableEq

/-- The tables, both directories, and the fields of the profile that change. -/
structure MediatorState extends ImportState where
  archive : String → Option (List Char)
  list : FileListPtr
  filesNumber : ℕ
  cdrServerId : ℤ

/-- What ends the thread of a profile. -/
inductive MediatorFault where
  | fieldOverrun
  | listUsedAfterFree
  | listFreedTwice
deriving DecidableEq

/-- What `readdir` gives, first for the count and then for the list, without `.` and `..`. -/
structure DirListing where
  counted : List String
  listed : List String

/-- A pass: what others do to the tables and to the source directory before it and before each file,
the directory unless it cannot be opened, and what fails with each file. -/
structure FilePass where
  arrival : ImportState → ImportState
  listing : Option DirListing
  meanwhile : ℕ → ImportState → ImportState
  faults : ℕ → ImportFaults

/-- `cdr_file_list_get`; `files_number` is an `unsigned short`. -/
def MediatorState.cdrFileListGet (s : MediatorState) : Option DirListing → MediatorState
  | none => s
  | some dir =>
      if dir.counted = [] then s
      else
        let names := dir.listed.take dir.counted.length
        { s with list := .held names, filesNumber := names.length % 2 ^ 16 }

/-- `cdr_file_move`; a file of that name in the archive is replaced. -/
def MediatorState.cdrFileMove (s : MediatorState) (renamed : Bool) (src dst : String) :
    MediatorState :=
  { s with
    toImportState := s.toImportState.cdrFileMove renamed src
    archive :=
      if renamed then
        (s.srcDir src).elim s.archive fun content => Function.update s.archive dst (some content)
      else s.archive }

/-- What the import reads when the profile has this server. -/
def FileProfile.sourceOf (profile : FileProfile) (cdrServerId : ℤ) : CdrFileSource :=
  { profile.source with cdrServerId := cdrServerId }

/-- The body of the loop of `cdr_file_reader`; the parser settles the server of the profile. -/
def FileProfile.readFile (profile : FileProfile) (faults : ImportFaults) (s : MediatorState)
    (name : String) : Except MediatorFault MediatorState :=
  let source := profile.sourceOf s.cdrServerId
  let src := profile.srcDir ++ name
  let dst := profile.dstDir ++ name
  if s.cdrFileGetFromTbl faults.lookup src s.cdrServerId = 0 then
    match source.cdrFileParser faults s.toImportState src with
    | none => .error .fieldOverrun
    | some result =>
        let s := { s with toImportState := result.2, cdrServerId := source.serverId }
        .ok (if result.1 = 0 then s.cdrFileMove faults.renamed src dst else s)
  else .ok (s.cdrFileMove faults.renamed src dst)

/-- The loop of `cdr_file_reader`. -/
def FileProfile.readFiles (profile : FileProfile) (meanwhile : ℕ → ImportState → ImportState)
    (faults : ℕ → ImportFaults) (s : MediatorState) :
    List String → Except MediatorFault MediatorState
  | [] => .ok s
  | name :: names =>
      if name = "" then
        profile.readFiles (fun i => meanwhile (i + 1)) (fun i => faults (i + 1)) s names
      else
        (profile.readFile (faults 0) { s with toImportState := meanwhile 0 s.toImportState }
          name).bind fun s =>
            profile.readFiles (fun i => meanwhile (i + 1)) (fun i => faults (i + 1)) s names

/-- `cdr_file_reader`. -/
def FileProfile.cdrFileReader (profile : FileProfile) (pass : FilePass) (s : MediatorState) :
    Except MediatorFault MediatorState :=
  let s := s.cdrFileListGet pass.listing
  match s.list with
  | .null => .ok s
  | .held names =>
      (profile.readFiles pass.meanwhile pass.faults s (names.take s.filesNumber)).map fun s =>
        { s with filesNumber := 0, list := .freed }
  | .freed => .error (if s.filesNumber = 0 then .listFreedTwice else .listUsedAfterFree)

/-- `mcdr_file_reader`, after what others have done. -/
def FileProfile.mcdrFileReader (profile : FileProfile) (s : MediatorState) (pass : FilePass) :
    Except MediatorFault MediatorState :=
  profile.cdrFileReader pass
    { s with
      toImportState := pass.arrival s.toImportState
      cdrServerId := profile.source.cdrServerId }

/-- `CDRMediatorThread`. -/
def FileProfile.cdrMediatorThread (profile : FileProfile) :
    MediatorState → List FilePass → Except MediatorFault MediatorState
  | s, [] => .ok s
  | s, pass :: passes =>
      (profile.mcdrFileReader s pass).bind fun s => profile.cdrMediatorThread s passes

/-- The profile as it is configured. -/
def MediatorState.start (imports : ImportState) (archive : String → Option (List Char)) :
    MediatorState where
  toImportState := imports
  archive := archive
  list := .null
  filesNumber := 0
  cdrServerId := 0

/-! ## One file -/

section ReadFile

variable {profile : FileProfile} {faults : ImportFaults} {s s' : MediatorState} {name : String}

/-- On the tables and the source directory the loop is the import of a file. -/
theorem FileProfile.readFile_import (read : profile.readFile faults s name = .ok s') :
    (profile.sourceOf s.cdrServerId).cdrFileReader faults s.toImportState
      (profile.srcDir ++ name) = some s'.toImportState := by
  simp only [readFile] at read
  unfold CdrFileSource.cdrFileReader
  have server : (profile.sourceOf s.cdrServerId).cdrServerId = s.cdrServerId := rfl
  rw [server]
  split at read
  · rename_i unfound
    rw [if_pos unfound]
    split at read
    · nomatch read
    · rename_i result parsed
      obtain ⟨ret, imported⟩ := result
      rw [parsed]
      obtain rfl := Except.ok.inj read
      by_cases whole : ret = 0
      · simp only [if_pos whole]
        rfl
      · simp only [if_neg whole]
  · rename_i found
    rw [if_neg found]
    obtain rfl := Except.ok.inj read
    rfl

theorem FileProfile.readFile_error {fault : MediatorFault}
    (stopped : profile.readFile faults s name = .error fault) : fault = .fieldOverrun := by
  simp only [readFile] at stopped
  split at stopped
  · split at stopped
    · exact (Except.error.inj stopped).symm
    · nomatch stopped
  · nomatch stopped

theorem FileProfile.readFiles_error {meanwhile : ℕ → ImportState → ImportState}
    {faults : ℕ → ImportFaults} {names : List String} {fault : MediatorFault}
    (stopped : profile.readFiles meanwhile faults s names = .error fault) :
    fault = .fieldOverrun := by
  induction names generalizing meanwhile faults s with
  | nil => nomatch stopped
  | cons name names induction =>
      rw [readFiles] at stopped
      split at stopped
      · exact induction stopped
      · cases read : profile.readFile (faults 0)
            { s with toImportState := meanwhile 0 s.toImportState } name with
        | error other =>
            rw [read] at stopped
            obtain rfl := Except.error.inj stopped
            exact readFile_error read
        | ok next =>
            rw [read] at stopped
            exact induction stopped

end ReadFile

/-! ## The list of the profile -/

/-- The directory cannot be opened or shows no file. -/
def FilePass.Idle (pass : FilePass) : Prop := ∀ dir ∈ pass.listing, dir.counted = []

namespace FileProfile

variable {profile : FileProfile} {s s' : MediatorState} {pass : FilePass} {passes : List FilePass}

theorem cdrFileListGet_idle (s : MediatorState) (idle : pass.Idle) :
    s.cdrFileListGet pass.listing = s := by
  cases shown : pass.listing with
  | none => rfl
  | some dir =>
      rw [MediatorState.cdrFileListGet, if_pos (idle dir shown)]

/-- A pass without files leaves a profile that has had no list, and frees an old list again. -/
theorem mcdrFileReader_idle (rested : s.filesNumber = 0) (idle : pass.Idle) :
    (s.list = .null → ∃ s', profile.mcdrFileReader s pass = .ok s' ∧ s'.filesNumber = 0 ∧
      s'.list = .null) ∧
    (s.list = .freed → profile.mcdrFileReader s pass = .error .listFreedTwice) := by
  unfold mcdrFileReader cdrFileReader
  rw [cdrFileListGet_idle _ idle]
  constructor
  · intro null
    simp only [null]
    exact ⟨_, rfl, rested, rfl⟩
  · intro freed
    simp only [freed, rested, if_true]

/-- A pass with files frees its list, unless a field overruns its text. -/
theorem mcdrFileReader_busy (busy : ¬ pass.Idle) :
    profile.mcdrFileReader s pass = .error .fieldOverrun ∨
      ∃ s', profile.mcdrFileReader s pass = .ok s' ∧ s'.filesNumber = 0 ∧ s'.list = .freed := by
  obtain ⟨dir, shown, some_file⟩ : ∃ dir ∈ pass.listing, dir.counted ≠ [] := by
    simpa only [FilePass.Idle, not_forall, exists_prop] using busy
  rw [mcdrFileReader, cdrFileReader, Option.mem_def.mp shown]
  simp only [MediatorState.cdrFileListGet, if_neg some_file]
  generalize read_eq : profile.readFiles _ _ _ _ = read
  cases read with
  | error fault =>
      obtain rfl := readFiles_error read_eq
      exact .inl rfl
  | ok next => exact .inr ⟨_, rfl, rfl, rfl⟩

/-- A profile that has had a list ends with the first pass without files. -/
theorem cdrMediatorThread_freed (rested : s.filesNumber = 0) (freed : s.list = .freed) :
    profile.cdrMediatorThread s passes ≠ .error .listUsedAfterFree ∧
    (profile.cdrMediatorThread s passes = .error .listFreedTwice ↔
      ∃ busy pass rest, passes = busy ++ pass :: rest ∧ (∀ pass ∈ busy, ¬ pass.Idle) ∧ pass.Idle ∧
        ∃ s', profile.cdrMediatorThread s busy = .ok s') := by
  induction passes generalizing s with
  | nil =>
      refine ⟨nofun, nofun, ?_⟩
      rintro ⟨busy, pass, rest, none_left, -⟩
      exact absurd none_left.symm (List.append_ne_nil_of_right_ne_nil _ (List.cons_ne_nil _ _))
  | cons pass passes induction =>
      by_cases idle : pass.Idle
      · have twice := (@mcdrFileReader_idle profile s pass rested idle).2 freed
        rw [cdrMediatorThread, twice]
        exact ⟨nofun, fun _ => ⟨[], pass, passes, rfl, by simp, idle, s, rfl⟩, fun _ => rfl⟩
      · have cut : (∃ busy pass' rest, pass :: passes = busy ++ pass' :: rest ∧
            (∀ pass ∈ busy, ¬ pass.Idle) ∧ pass'.Idle ∧
              ∃ s', profile.cdrMediatorThread s busy = .ok s') ↔
            ∃ busy pass' rest, passes = busy ++ pass' :: rest ∧
              (∀ pass ∈ busy, ¬ pass.Idle) ∧ pass'.Idle ∧
                ∃ s', profile.cdrMediatorThread s (pass :: busy) = .ok s' := by
          constructor
          · rintro ⟨busy, pass', rest, split, all_busy, idle', ran⟩
            cases busy with
            | nil => exact absurd ((List.cons.inj split).1 ▸ idle') idle
            | cons first busy =>
                obtain ⟨rfl, later⟩ := List.cons.inj split
                rw [List.forall_mem_cons] at all_busy
                exact ⟨busy, pass', rest, later, all_busy.2, idle', ran⟩
          · rintro ⟨busy, pass', rest, rfl, all_busy, idle', ran⟩
            exact ⟨pass :: busy, pass', rest, rfl, by
              rw [List.forall_mem_cons]
              exact ⟨idle, all_busy⟩, idle', ran⟩
        rw [cut]
        simp only [cdrMediatorThread]
        rcases @mcdrFileReader_busy profile s pass idle with overrun | ⟨next, step⟩
        · rw [overrun]
          refine ⟨nofun, nofun, ?_⟩
          rintro ⟨_, _, _, _, _, _, _, ran⟩
          nomatch ran
        · rw [step.1]
          exact induction step.2.1 step.2.2

/-- A profile that has had no list waits for its first files. -/
theorem cdrMediatorThread_null (rested : s.filesNumber = 0) (null : s.list = .null) :
    profile.cdrMediatorThread s passes ≠ .error .listUsedAfterFree ∧
    (profile.cdrMediatorThread s passes = .error .listFreedTwice ↔
      ∃ quiet busy pass rest, passes = quiet ++ busy ++ pass :: rest ∧
        (∀ pass ∈ quiet, pass.Idle) ∧ busy ≠ [] ∧ (∀ pass ∈ busy, ¬ pass.Idle) ∧ pass.Idle ∧
          ∃ s', profile.cdrMediatorThread s (quiet ++ busy) = .ok s') := by
  induction passes generalizing s with
  | nil =>
      refine ⟨nofun, nofun, ?_⟩
      rintro ⟨quiet, busy, pass, rest, none_left, -⟩
      exact absurd none_left.symm (List.append_ne_nil_of_right_ne_nil _ (List.cons_ne_nil _ _))
  | cons pass passes induction =>
      by_cases idle : pass.Idle
      · obtain ⟨next, step, rested', null'⟩ :=
          (@mcdrFileReader_idle profile s pass rested idle).1 null
        obtain ⟨unused, twice⟩ := induction rested' null'
        have ran (more : List FilePass) : profile.cdrMediatorThread s (pass :: more) =
            profile.cdrMediatorThread next more := by
          rw [cdrMediatorThread, step]
          rfl
        rw [ran]
        refine ⟨unused, twice.trans ⟨?_, ?_⟩⟩
        · rintro ⟨quiet, busy, pass', rest, rfl, all_quiet, some_busy, all_busy, idle', ok⟩
          refine ⟨pass :: quiet, busy, pass', rest, rfl, ?_, some_busy, all_busy, idle', ?_⟩
          · rw [List.forall_mem_cons]
            exact ⟨idle, all_quiet⟩
          · rwa [List.cons_append, ran]
        · rintro ⟨quiet, busy, pass', rest, split, all_quiet, some_busy, all_busy, idle', ok⟩
          cases quiet with
          | nil =>
              obtain ⟨first, others, rfl⟩ := List.exists_cons_of_ne_nil some_busy
              exact absurd idle ((List.cons.inj split).1 ▸ all_busy first List.mem_cons_self)
          | cons first quiet =>
              obtain ⟨rfl, later⟩ := List.cons.inj split
              rw [List.forall_mem_cons] at all_quiet
              rw [List.cons_append, ran] at ok
              exact ⟨quiet, busy, pass', rest, later, all_quiet.2, some_busy, all_busy, idle', ok⟩
      · have cut : (∃ quiet busy pass' rest, pass :: passes = quiet ++ busy ++ pass' :: rest ∧
            (∀ pass ∈ quiet, pass.Idle) ∧ busy ≠ [] ∧ (∀ pass ∈ busy, ¬ pass.Idle) ∧ pass'.Idle ∧
              ∃ s', profile.cdrMediatorThread s (quiet ++ busy) = .ok s') ↔
            ∃ busy pass' rest, passes = busy ++ pass' :: rest ∧ (∀ pass ∈ busy, ¬ pass.Idle) ∧
              pass'.Idle ∧ ∃ s', profile.cdrMediatorThread s (pass :: busy) = .ok s' := by
          constructor
          · rintro ⟨quiet, busy, pass', rest, split, all_quiet, some_busy, all_busy, idle', ok⟩
            cases quiet with
            | nil =>
                obtain ⟨first, others, rfl⟩ := List.exists_cons_of_ne_nil some_busy
                obtain ⟨rfl, later⟩ := List.cons.inj split
                rw [List.forall_mem_cons] at all_busy
                exact ⟨others, pass', rest, later, all_busy.2, idle', ok⟩
            | cons first quiet =>
                exact absurd ((List.cons.inj split).1 ▸ all_quiet first List.mem_cons_self) idle
          · rintro ⟨busy, pass', rest, rfl, all_busy, idle', ok⟩
            refine ⟨[], pass :: busy, pass', rest, rfl, by simp, List.cons_ne_nil _ _,
              ?_, idle', ok⟩
            rw [List.forall_mem_cons]
            exact ⟨idle, all_busy⟩
        rw [cut]
        simp only [cdrMediatorThread]
        rcases @mcdrFileReader_busy profile s pass idle with overrun | ⟨next, step⟩
        · rw [overrun]
          refine ⟨nofun, nofun, ?_⟩
          rintro ⟨_, _, _, _, _, _, _, ran⟩
          nomatch ran
        · rw [step.1]
          exact cdrMediatorThread_freed step.2.1 step.2.2

end FileProfile

/-- Whatever arrives, whatever others do and whatever fails, the thread of a profile never reads a
list that it has freed, and it frees a list twice exactly in the first pass without files after a
pass with files: a profile that has had files ends with the first pass that finds none. -/
theorem fileMediator_freesTwice_iff (profile : FileProfile) (imports : ImportState)
    (archive : String → Option (List Char)) (passes : List FilePass) :
    profile.cdrMediatorThread (.start imports archive) passes ≠ .error .listUsedAfterFree ∧
    (profile.cdrMediatorThread (.start imports archive) passes = .error .listFreedTwice ↔
      ∃ quiet busy pass rest, passes = quiet ++ busy ++ pass :: rest ∧
        (∀ pass ∈ quiet, pass.Idle) ∧ busy ≠ [] ∧ (∀ pass ∈ busy, ¬ pass.Idle) ∧ pass.Idle ∧
          ∃ s, profile.cdrMediatorThread (.start imports archive) (quiet ++ busy) = .ok s) :=
  FileProfile.cdrMediatorThread_null rfl rfl

/-! ## Files that arrive -/

/-- A file that arrives, with what becomes of the INSERTs of its rows. -/
structure FileArrival where
  name : String
  content : List Char
  inserts : ℕ → DbOutcome

/-- Nothing fails with the file but INSERTs of its rows. -/
def FileArrival.faults (file : FileArrival) : ImportFaults :=
  ⟨.done, true, fun _ => true, file.inserts, .done, true⟩

/-- The files that arrive between two passes, as the directory lists them. -/
structure FileBatch where
  files : List FileArrival
  distinct : (files.map FileArrival.name).Nodup
  named : ∀ file ∈ files, file.name ≠ ""
  few : files.length < 2 ^ 16

/-- A directory into which files have come. -/
def FileProfile.arrive (profile : FileProfile) (files : List FileArrival)
    (srcDir : String → Option (List Char)) (path : String) : Option (List Char) :=
  ((files.find? fun file => profile.srcDir ++ file.name = path).map FileArrival.content).or
    (srcDir path)

/-- The pass over the files of a batch. -/
def FileBatch.pass (profile : FileProfile) (batch : FileBatch) : FilePass where
  arrival s := { s with srcDir := profile.arrive batch.files s.srcDir }
  listing := some ⟨batch.files.map FileArrival.name, batch.files.map FileArrival.name⟩
  meanwhile _ s := s
  faults i := ((batch.files.map FileArrival.faults)[i]?).getD (insertFaults .done)

instance (s : ImportState) (filename : String) (serverId : ℤ) :
    Decidable (s.Recorded filename serverId) :=
  inferInstanceAs (Decidable (∃ row ∈ s.cdrFiles.rows, row.2 = (serverId, filename)))

/-- No file is recorded twice for a server. -/
def ImportState.RecordedOnce (s : ImportState) (serverId : ℤ) : Prop :=
  ∀ filename, (s.cdrFiles.select fun row => row = (serverId, filename)).length ≤ 1

namespace FileProfile

variable (profile : FileProfile)

/-- The profile has recorded a file of this name. -/
def Recorded (s : ImportState) (name : String) : Prop :=
  s.Recorded (profile.srcDir ++ name) profile.source.serverId

instance (s : ImportState) (name : String) : Decidable (profile.Recorded s name) :=
  inferInstanceAs (Decidable (s.Recorded _ _))

/-- The rows of a file that the database inserts, or would but for their key. -/
def rowsOf (file : FileArrival) : List CdrsRow :=
  executedRows profile.source.filters file.inserts
    (profile.source.validRows (profile.source.rows file.content).reduceOption)

/-- The files that are read: the first of each name, and none of a name that was recorded before. -/
def filesRead (imports : ImportState) (files : List FileArrival) : List FileArrival :=
  KeepFirst.merge FileArrival.name []
    (files.filter fun file => ¬ profile.Recorded imports file.name)

/-- The last file of a name. -/
def lastFile (files : List FileArrival) (name : String) : Option (List Char) :=
  (files.reverse.find? fun file => file.name = name).map FileArrival.content

/-- What becomes of files: those that are read are in the table, every name is recorded once, and
the last file of a name is in the archive. -/
structure Taken (start : MediatorState) (files : List FileArrival) (s : MediatorState) : Prop where
  cdrs : s.cdrs =
    start.cdrs.insertAll ((profile.filesRead start.toImportState files).flatMap profile.rowsOf)
  recorded : ∀ name, profile.Recorded s.toImportState name ↔
    profile.Recorded start.toImportState name ∨ name ∈ files.map FileArrival.name
  once : s.RecordedOnce profile.source.serverId
  archive : ∀ name, s.archive (profile.dstDir ++ name) =
    (lastFile files name).or (start.archive (profile.dstDir ++ name))

end FileProfile

/-! ## What becomes of them -/

theorem reachedRows_all {α : Type} (rows : List α) : reachedRows (fun _ => true) rows = rows := by
  induction rows with
  | nil => rfl
  | cons row rows induction =>
      rw [reachedRows, if_pos rfl]
      exact congrArg _ induction

theorem ImportState.recorded_iff {s : ImportState} {filename : String} {serverId : ℤ} :
    s.Recorded filename serverId ↔
      (s.cdrFiles.select fun row => row = (serverId, filename)) ≠ [] := by
  rw [SerialTable.select, Ne, List.filter_eq_nil_iff]
  simp only [decide_eq_true_eq, not_forall, not_not, exists_prop]
  rfl

/-- A file that is recorded at most once is found exactly when it is recorded. -/
theorem ImportState.cdrFileGetFromTbl_eq_zero {s : ImportState} {serverId : ℤ}
    (once : s.RecordedOnce serverId) (filename : String) :
    s.cdrFileGetFromTbl .done filename serverId = 0 ↔ ¬ s.Recorded filename serverId := by
  have short := once filename
  rw [ImportState.recorded_iff, not_not]
  simp only [ImportState.cdrFileGetFromTbl]
  cases found : s.cdrFiles.select fun row => row = (serverId, filename) with
  | nil => simp
  | cons row rows =>
      cases rows with
      | nil =>
          have positive : 0 < row.1 := SerialTable.key_pos_of_select_eq found
          simp only [List.cons_ne_nil, iff_false]
          exact positive.ne'
      | cons other rows =>
          rw [found] at short
          simp at short

namespace FileProfile

variable {profile : FileProfile} {start s s' : MediatorState} {files : List FileArrival}
  {file : FileArrival}

/-- A file of a new name is read, another one is not. -/
theorem filesRead_concat (imports : ImportState) (files : List FileArrival) (file : FileArrival) :
    profile.filesRead imports (files ++ [file]) =
      if profile.Recorded imports file.name ∨ file.name ∈ files.map FileArrival.name then
        profile.filesRead imports files
      else profile.filesRead imports files ++ [file] := by
  unfold filesRead
  rw [List.filter_append, KeepFirst.merge_append]
  by_cases before : profile.Recorded imports file.name
  · rw [if_pos (.inl before), List.filter_cons_of_neg (by simpa using before)]
    rfl
  have new : file.name ∈ (KeepFirst.merge FileArrival.name []
      (files.filter fun file => ¬ profile.Recorded imports file.name)).map FileArrival.name ↔
        file.name ∈ files.map FileArrival.name := by
    rw [KeepFirst.mem_map_merge, List.map_nil, or_iff_right List.not_mem_nil]
    constructor
    · intro member
      obtain ⟨other, other_mem, same⟩ := List.mem_map.mp member
      exact List.mem_map.mpr ⟨other, List.mem_of_mem_filter other_mem, same⟩
    · intro member
      obtain ⟨other, other_mem, same⟩ := List.mem_map.mp member
      refine List.mem_map.mpr ⟨other, List.mem_filter.mpr ⟨other_mem, ?_⟩, same⟩
      simpa [same] using before
  rw [List.filter_cons_of_pos (by simpa using before), List.filter_nil, KeepFirst.merge_cons,
    KeepFirst.merge_nil, KeepFirst.add, if_congr new rfl rfl]
  simp only [before, false_or]

theorem lastFile_concat (files : List FileArrival) (file : FileArrival) (name : String) :
    lastFile (files ++ [file]) name =
      if file.name = name then some file.content else lastFile files name := by
  rw [lastFile, List.reverse_append, List.reverse_singleton, List.singleton_append,
    List.find?_cons]
  by_cases same : file.name = name <;> simp [same, lastFile]

/-- A file that is moved is the last of its name. -/
theorem archive_move (archive : ∀ name, s.archive (profile.dstDir ++ name) =
      (lastFile files name).or (start.archive (profile.dstDir ++ name)))
    (present : s.srcDir (profile.srcDir ++ file.name) = some file.content) (name : String) :
    (s.cdrFileMove true (profile.srcDir ++ file.name) (profile.dstDir ++ file.name)).archive
        (profile.dstDir ++ name) =
      (lastFile (files ++ [file]) name).or (start.archive (profile.dstDir ++ name)) := by
  rw [lastFile_concat]
  simp only [MediatorState.cdrFileMove, present, Option.elim_some, if_true]
  by_cases same : file.name = name
  · subst same
    rw [Function.update_self, if_pos rfl, Option.some_or]
  · rw [Function.update_of_ne (fun equal => same ((String.append_right_inj _).mp equal).symm),
      if_neg same, archive]

theorem mem_names_concat {name : String} :
    name ∈ (files ++ [file]).map FileArrival.name ↔
      name ∈ files.map FileArrival.name ∨ name = file.name := by
  rw [List.map_append, List.mem_append, List.map_singleton, List.mem_singleton]

/-- The parser inserts the rows of a file and records it. -/
theorem cdrFileParser_arrival {source : CdrFileSource} {imports : ImportState} {filename : String}
    {result : ℤ × ImportState} (present : imports.srcDir filename = some file.content)
    (parsed : source.cdrFileParser file.faults imports filename = some result) :
    result.1 = 0 ∧ result.2 =
      { imports with
        cdrs := imports.cdrs.insertAll (executedRows source.filters file.inserts
          (source.validRows (source.rows file.content).reduceOption))
        cdrFiles := imports.cdrFiles.insert (source.serverId, filename) } := by
  have opened : file.faults.opened = true := rfl
  have allocated : file.faults.allocated = fun _ => true := rfl
  have recorded : file.faults.record.executes = true := rfl
  simp only [CdrFileSource.cdrFileParser, opened, if_true, present, allocated] at parsed
  cases rows : source.parseRows (fun _ => true) file.faults.insert imports.cdrs
      (source.profile.cdrFileParser source.hdr file.content) with
  | none =>
      rw [rows] at parsed
      nomatch parsed
  | some rest =>
      obtain ⟨ret, cdrs⟩ := rest
      obtain ⟨inserted, complete⟩ := source.parseRows_eq rows
      have whole : ret = 0 := complete.mpr (reachedRows_all _)
      rw [rows] at parsed
      simp only [whole, if_true] at parsed
      obtain rfl := Option.some.inj parsed
      rw [ImportState.cdrFileAddInTbl, if_pos recorded, inserted, reachedRows_all]
      exact ⟨rfl, rfl⟩

/-- The server of a profile, once it is settled, stays. -/
theorem serverId_sourceOf (profile : FileProfile) :
    (profile.sourceOf profile.source.serverId).serverId = profile.source.serverId := by
  simp only [sourceOf, CdrFileSource.serverId]
  by_cases unsettled : profile.source.cdrServerId = 0 <;> simp [unsettled]

/-- The rows of a file do not depend on when the server is settled. -/
theorem rowsOf_sourceOf (profile : FileProfile) (file : FileArrival) :
    executedRows (profile.sourceOf profile.source.serverId).filters file.inserts
      ((profile.sourceOf profile.source.serverId).validRows
        ((profile.sourceOf profile.source.serverId).rows file.content).reduceOption) =
      profile.rowsOf file := by
  have fills : (profile.sourceOf profile.source.serverId).fillCdr = profile.source.fillCdr := by
    funext columns
    rw [CdrFileSource.fillCdr, CdrFileSource.fillCdr, serverId_sourceOf]
    rfl
  rw [rowsOf, CdrFileSource.validRows, CdrFileSource.validRows, fills]
  rfl

/-- The loop takes a file. -/
theorem Taken.read (taken : profile.Taken start files s)
    (server : s.cdrServerId = profile.source.serverId)
    (present : s.srcDir (profile.srcDir ++ file.name) = some file.content)
    (read : profile.readFile file.faults s file.name = .ok s') :
    profile.Taken start (files ++ [file]) s' ∧ s'.cdrServerId = s.cdrServerId ∧
      s'.srcDir = Function.update s.srcDir (profile.srcDir ++ file.name) none := by
  have lookup :
      s.cdrFileGetFromTbl .done (profile.srcDir ++ file.name) profile.source.serverId = 0 ↔
      ¬ profile.Recorded s.toImportState file.name :=
    ImportState.cdrFileGetFromTbl_eq_zero taken.once _
  have known := taken.recorded file.name
  simp only [readFile] at read
  have done : file.faults.lookup = .done := rfl
  rw [done, server, if_congr lookup rfl rfl] at read
  by_cases recorded : profile.Recorded s.toImportState file.name
  · rw [if_neg (not_not_intro recorded)] at read
    obtain rfl := Except.ok.inj read
    refine ⟨⟨?_, fun name => ?_, taken.once, archive_move taken.archive present⟩, rfl, rfl⟩
    · rw [filesRead_concat, if_pos (known.mp recorded)]
      exact taken.cdrs
    · rw [mem_names_concat, ← or_assoc, ← taken.recorded name]
      exact ⟨.inl, Or.rec id fun same => same ▸ recorded⟩
  rw [if_pos recorded] at read
  cases parsed : (profile.sourceOf profile.source.serverId).cdrFileParser file.faults
      s.toImportState (profile.srcDir ++ file.name) with
  | none =>
      rw [parsed] at read
      nomatch read
  | some result =>
      obtain ⟨ret, imported⟩ := result
      obtain ⟨rfl, rfl⟩ := cdrFileParser_arrival present parsed
      rw [parsed] at read
      obtain rfl := Except.ok.inj read
      rw [rowsOf_sourceOf, serverId_sourceOf]
      have selected (filename : String) :=
        SerialTable.select_insert s.cdrFiles (profile.source.serverId, profile.srcDir ++ file.name)
          fun row => row = (profile.source.serverId, filename)
      refine ⟨⟨?_, fun name => ?_, fun filename => ?_, archive_move taken.archive present⟩,
        server.symm, rfl⟩
      · change s.cdrs.insertAll (profile.rowsOf file) = _
        rw [filesRead_concat, if_neg (mt known.mpr recorded), List.flatMap_append,
          List.flatMap_singleton, taken.cdrs]
        exact List.foldl_append.symm
      · rw [mem_names_concat, ← or_assoc, ← taken.recorded name]
        refine ImportState.recorded_iff.trans (Iff.trans ?_ (or_congr_left
          ImportState.recorded_iff.symm))
        change (s.cdrFiles.insert _).select _ ≠ [] ↔ _
        rw [selected, Ne, List.append_eq_nil_iff, not_and_or]
        refine or_congr_right ?_
        by_cases same : name = file.name
        · simp [same]
        · have other : profile.srcDir ++ file.name ≠ profile.srcDir ++ name :=
            fun equal => same ((String.append_right_inj _).mp equal).symm
          simp [same, other]
      · change ((s.cdrFiles.insert _).select _).length ≤ 1
        rw [selected]
        split
        · rename_i own
          obtain rfl : profile.srcDir ++ file.name = filename := by simpa using own
          have none_before := not_not.mp (mt ImportState.recorded_iff.mpr recorded)
          rw [none_before]
          exact le_rfl
        · rw [List.append_nil]
          exact taken.once filename

/-- The loop takes the files of a list. -/
theorem Taken.readList {rest : List FileArrival} (taken : profile.Taken start files s)
    (server : s.cdrServerId = profile.source.serverId)
    (present : ∀ file ∈ rest, s.srcDir (profile.srcDir ++ file.name) = some file.content)
    (distinct : (rest.map FileArrival.name).Nodup) (named : ∀ file ∈ rest, file.name ≠ "")
    (read : profile.readFiles (fun _ imports => imports)
      (fun i => ((rest.map FileArrival.faults)[i]?).getD (insertFaults .done)) s
        (rest.map FileArrival.name) = .ok s') :
    profile.Taken start (files ++ rest) s' ∧
      ∀ path, s'.srcDir path =
        if path ∈ rest.map (profile.srcDir ++ ·.name) then none else s.srcDir path := by
  induction rest generalizing files s with
  | nil =>
      obtain rfl := Except.ok.inj read
      rw [List.append_nil]
      exact ⟨taken, fun path => by simp⟩
  | cons file rest induction =>
      rw [List.map_cons, List.nodup_cons] at distinct
      rw [List.forall_mem_cons] at present named
      simp only [List.map_cons] at read
      rw [readFiles, if_neg named.1] at read
      cases first : profile.readFile file.faults s file.name with
      | error fault =>
          have stopped : Except.error fault = Except.ok s' := by
            rw [← read]
            change _ = (profile.readFile file.faults s file.name).bind _
            rw [first]
            rfl
          nomatch stopped
      | ok next =>
          obtain ⟨taken', server', moved⟩ := taken.read server present.1 first
          have later : profile.readFiles (fun _ imports => imports)
              (fun i => ((rest.map FileArrival.faults)[i]?).getD (insertFaults .done)) next
                (rest.map FileArrival.name) = .ok s' := by
            rw [← read]
            change _ = (profile.readFile file.faults s file.name).bind _
            rw [first]
            rfl
          have apart : ∀ other ∈ rest,
              profile.srcDir ++ other.name ≠ profile.srcDir ++ file.name :=
            fun other member equal => distinct.1 (List.mem_map.mpr
              ⟨other, member, (String.append_right_inj _).mp equal⟩)
          obtain ⟨all, left⟩ := induction taken' (server'.trans server) (fun other member => by
            rw [moved, Function.update_of_ne (apart other member), present.2 other member])
              distinct.2 named.2 later
          rw [List.append_assoc, List.singleton_append] at all
          refine ⟨all, fun path => ?_⟩
          rw [left, moved]
          simp only [List.map_cons, List.mem_cons]
          by_cases own : path = profile.srcDir ++ file.name
          · rw [own, Function.update_self, ite_self]
            simp
          · rw [Function.update_of_ne own]
            simp only [own, false_or]

/-- What counts for the files is in the tables and in the archive. -/
theorem Taken.congr (taken : profile.Taken start files s) (cdrs : s'.cdrs = s.cdrs)
    (cdrFiles : s'.cdrFiles = s.cdrFiles) (archive : s'.archive = s.archive) :
    profile.Taken start files s' := by
  refine ⟨cdrs.trans taken.cdrs, fun name => ?_, fun filename => ?_, fun name => ?_⟩
  · rw [← taken.recorded name, Recorded, Recorded, ImportState.Recorded, ImportState.Recorded,
      cdrFiles]
  · rw [cdrFiles]
    exact taken.once filename
  · rw [archive]
    exact taken.archive name

/-- A directory has the files that have come. -/
theorem arrive_name (profile : FileProfile) {files : List FileArrival}
    (distinct : (files.map FileArrival.name).Nodup) (srcDir : String → Option (List Char))
    {file : FileArrival} (member : file ∈ files) :
    profile.arrive files srcDir (profile.srcDir ++ file.name) = some file.content := by
  have found :
      (files.find? fun other => profile.srcDir ++ other.name = profile.srcDir ++ file.name) =
      some file := by
    cases found : files.find? fun other =>
        profile.srcDir ++ other.name = profile.srcDir ++ file.name with
    | none => exact absurd (List.find?_eq_none.mp found file member) (by simp)
    | some other =>
        have same : other.name = file.name := by simpa using List.find?_some found
        rw [List.inj_on_of_nodup_map distinct (List.mem_of_find?_eq_some found) member same]
  rw [arrive, found]
  rfl

/-- A directory without the files that have come is what it was. -/
theorem arrive_other (profile : FileProfile) {files : List FileArrival}
    (srcDir : String → Option (List Char)) {path : String}
    (other : path ∉ files.map (profile.srcDir ++ ·.name)) :
    profile.arrive files srcDir path = srcDir path := by
  have unfound : (files.find? fun file => profile.srcDir ++ file.name = path) = none := by
    refine List.find?_eq_none.mpr fun file member own => other ?_
    exact List.mem_map.mpr ⟨file, member, by simpa using own⟩
  rw [arrive, unfound]
  rfl

/-- A pass takes the files that have come into the empty directory. -/
theorem Taken.pass (resolved : profile.source.cdrServerId ≠ 0) (taken : profile.Taken start files s)
    (empty : ∀ path, s.srcDir path = none) {batch : FileBatch} (some_file : batch.files ≠ [])
    (ran : profile.mcdrFileReader s (batch.pass profile) = .ok s') :
    profile.Taken start (files ++ batch.files) s' ∧ ∀ path, s'.srcDir path = none := by
  have settled : profile.source.cdrServerId = profile.source.serverId := by
    rw [CdrFileSource.serverId, if_neg resolved]
  have names : (batch.files.map FileArrival.name).length % 2 ^ 16 =
      (batch.files.map FileArrival.name).length := by
    rw [List.length_map]
    exact Nat.mod_eq_of_lt batch.few
  have shown : (batch.pass profile).listing =
    some ⟨batch.files.map FileArrival.name, batch.files.map FileArrival.name⟩ := rfl
  simp only [mcdrFileReader, cdrFileReader, shown, MediatorState.cdrFileListGet,
    List.map_eq_nil_iff, if_neg some_file, List.take_length, names] at ran
  generalize read : profile.readFiles _ _ _ _ = result at ran
  cases result with
  | error fault => nomatch ran
  | ok last =>
      obtain rfl := Except.ok.inj ran
      obtain ⟨all, left⟩ := Taken.readList
        (s := { s with
          toImportState := (batch.pass profile).arrival s.toImportState
          list := .held (batch.files.map FileArrival.name)
          filesNumber := (batch.files.map FileArrival.name).length
          cdrServerId := profile.source.cdrServerId })
        (taken.congr rfl rfl rfl) settled (fun _ => profile.arrive_name batch.distinct s.srcDir)
        batch.distinct batch.named read
      refine ⟨all.congr rfl rfl rfl, fun path => (left path).trans ?_⟩
      split
      · rfl
      · rename_i other
        exact (profile.arrive_other s.srcDir other).trans (empty path)

theorem Taken.run (resolved : profile.source.cdrServerId ≠ 0) {batches : List FileBatch}
    (taken : profile.Taken start files s) (empty : ∀ path, s.srcDir path = none)
    (some_file : ∀ batch ∈ batches, batch.files ≠ [])
    (ran : profile.cdrMediatorThread s (batches.map (FileBatch.pass profile)) = .ok s') :
    profile.Taken start (files ++ batches.flatMap FileBatch.files) s' ∧
      ∀ path, s'.srcDir path = none := by
  induction batches generalizing files s with
  | nil =>
      obtain rfl := Except.ok.inj ran
      rw [List.flatMap_nil, List.append_nil]
      exact ⟨taken, empty⟩
  | cons batch batches induction =>
      rw [List.forall_mem_cons] at some_file
      rw [List.map_cons, cdrMediatorThread] at ran
      cases first : profile.mcdrFileReader s (batch.pass profile) with
      | error fault =>
          rw [first] at ran
          nomatch ran
      | ok next =>
          rw [first] at ran
          obtain ⟨taken', empty'⟩ := taken.pass resolved empty some_file.1 first
          have all := induction taken' empty' some_file.2 ran
          rwa [List.append_assoc, ← List.flatMap_cons] at all

end FileProfile

/-- The directories of the profile of files with a uid, a number and a length. -/
def threeColumnsFiles : FileProfile := ⟨threeColumns, "in/", "out/"⟩

/-- A file `a` of one row. -/
def oneRowArrival (uid : Char) : FileBatch where
  files := [⟨"a", [uid, ',', '8', ',', '9'], fun _ => .done⟩]
  distinct := List.nodup_singleton _
  named := by simp
  few := by simp

end RateEngine
