import RateEngine.CdrFile
import RateEngine.CdrStore
import RateEngine.Lib.Buffer

/-!
# Copies of the fields of a line

`cdr_file_getfield` copies the fields of a line into an array of texts of 256 characters, and its
two fixes copy a text into a buffer of that size and back.  The line may have 1023 characters.  This
file follows the copies through the cells of the array and of the CDR and states for which lines
each of them stays in its destination.
-/

namespace RateEngine

open Buffer Fields

/-! ## Copies -/

/-- `cdr_file_field_t`. -/
structure CdrFileField where
  id : ℕ
  txt : List Char

/-- An entry of the array after `mem_alloc_arr`. -/
def CdrFileField.cleared : CdrFileField := ⟨0, List.replicate cdrFieldTxtLen '\x00'⟩

/-- The array of `cdr_file_parser`: an entry more than there are fields. -/
def clearedArr (n : ℕ) : List CdrFileField := List.replicate (n + 1) .cleared

/-- `strtok` on the text of a buffer: the terminator goes to the end of the token. -/
def strtokRow (sep : Char → Bool) (row : List Char) : Option (Option (List Char) × List Char) :=
  let line := text '\x00' row
  match Fields.strtok sep line with
  | none => some (none, row)
  | some (tmp, _) =>
      (store row ((line.takeWhile sep).length + tmp.length) '\x00').map fun row => (some tmp, row)

/-- A text goes through `buf` of a fix and back into the row, which is cleared in between. -/
def copyThrough (clear : List Char → Option (List Char)) (row tmp : List Char) :
    Option (List Char) := do
  let buf ← strcpy '\x00' (List.replicate cdrFieldTxtLen '\x00') tmp
  let row ← clear row
  strcpy '\x00' row (text '\x00' buf)

/-- `cdr_file_getfield_cr_fix`. -/
def crFixRow (row : List Char) : Option (List Char) := do
  let (tmp, row) ← strtokRow (· == '\n') row
  match tmp with
  | none => some row
  | some tmp =>
      copyThrough (fun row => (strlen '\x00' row).bind fun n => memset '\x00' row n) row tmp

/-- `cdr_file_getfield_delimiter_fix` on one text; `unset` is what `del2` holds before it is set. -/
def delimiterFixRow (colDelimiter : Option Char) (unset : Char) (row : List Char) :
    Option (List Char) := do
  let first ← (text '\x00' row).head?
  let last ← (text '\x00' row).getLast?
  let del2 := colDelimiter.getD unset
  if first = last ∧ first = del2 then do
    let (tmp, row) ← strtokRow (fun c => some c == colDelimiter) row
    match tmp with
    | none => some row
    | some tmp => copyThrough (fun row => memset '\x00' row cdrFieldTxtLen) row tmp
  else some row

/-- The loop of `cdr_file_getfield`; nothing comes of an index past the array. -/
def getfieldLoop (i : ℕ) : List CdrFileField → List (List Char) → Option (List CdrFileField)
  | [], _ => none
  | entry :: arr, [] => do
      let txt ← strcpy '\x00' entry.txt []
      return ⟨0, txt⟩ :: arr
  | entry :: arr, tok :: toks => do
      let txt ← strcpy '\x00' entry.txt tok
      let arr ← getfieldLoop (i + 1) arr toks
      return ⟨i + 1, txt⟩ :: arr

/-- The fix of the line break at an index of the array. -/
def crFixAt : ℕ → List CdrFileField → Option (List CdrFileField)
  | _, [] => none
  | 0, entry :: arr => do
      let txt ← crFixRow entry.txt
      return ⟨entry.id, txt⟩ :: arr
  | i + 1, entry :: arr => do
      let arr ← crFixAt i arr
      return entry :: arr

/-- The loop of `cdr_file_getfield_delimiter_fix`. -/
def delimiterFixLoop (colDelimiter : Option Char) (unset : Char) :
    List CdrFileField → Option (List CdrFileField)
  | [] => none
  | entry :: arr =>
      if 0 < entry.id then do
        let txt ← delimiterFixRow colDelimiter unset entry.txt
        let arr ← delimiterFixLoop colDelimiter unset arr
        return ⟨entry.id, txt⟩ :: arr
      else some (entry :: arr)

namespace CdrFileProfile

variable (profile : CdrFileProfile)

/-- `cdr_file_getfield` on the array of `cdr_file_parser`. -/
def getfieldArr (unset : Char) (readbuf : List Char) : Option (List CdrFileField) := do
  let toks := strtokAll profile.separates (cString readbuf).length (cString readbuf)
  let arr ← getfieldLoop 0 (clearedArr profile.fileFieldNum) toks
  let arr ← if toks = [] then none else crFixAt (toks.length - 1) arr
  delimiterFixLoop profile.colDelimiter unset arr

end CdrFileProfile

/-! ## Columns -/

/-- `cdr_field_set` on an array. -/
def cdrFieldSetArr (dst src : List Char) : Option (List Char) := do
  let dst' ← Buffer.strncpy '\x00' dst src (dst.length - 1)
  store dst' (dst.length - 1) '\x00'

/-- The setter of a column on the arrays of a `cdr_t`; the setters of numbers copy nothing. -/
def addArr (cdr : CdrText → List Char) : CdrColumn × List Char → Option (CdrText → List Char)
  | (.text field, txt) => (cdrFieldSetArr (cdr field) txt).map (Function.update cdr field)
  | (.num _, _) => some cdr

/-- The arrays of `the_cdr` after `memset`. -/
def clearedArrays (field : CdrText) : List Char := List.replicate field.len '\x00'

/-- What `cdr_file_parser` copies for a line that has passed the count of its fields. -/
def CdrFileProfile.rowCopies (profile : CdrFileProfile) (hdr : List (CdrFileHeader CdrColumn))
    (unset : Char) (readbuf : List Char) : Option (CdrText → List Char) := do
  let arr ← profile.getfieldArr unset readbuf
  let columns := profile.fill hdr (arr.map fun entry => text '\x00' entry.txt)
  columns.foldlM addArr clearedArrays

/-! ## The fixes -/

section Fix

variable {line row tmp : List Char}

/-- A row of the array holds a text. -/
abbrev RowHolds (line row : List Char) : Prop := Holds '\x00' cdrFieldTxtLen line row

/-- A token of a row is cut out of it in place. -/
theorem RowHolds.strtokRow_eq (holds : RowHolds line row) (sep : Char → Bool) :
    match Fields.strtok sep line with
    | none => strtokRow sep row = some (none, row)
    | some (tmp, _) => ∃ cut, strtokRow sep row = some (some tmp, cut) ∧
        cut.length = cdrFieldTxtLen ∧ '\x00' ∈ cut ∧ tmp.length < cdrFieldTxtLen ∧
          '\x00' ∉ tmp := by
  rw [strtokRow, holds.text_eq]
  cases found : Fields.strtok sep line with
  | none => rfl
  | some result =>
      obtain ⟨tmp, rest⟩ := result
      have part := (strtok_eq_some found).2
      have within := length_strtok_le found
      have fits : (line.takeWhile sep).length + tmp.length < row.length := by
        rw [holds.length]
        exact within.trans_lt holds.length_lt
      refine ⟨row.set ((line.takeWhile sep).length + tmp.length) '\x00', ?_, ?_, ?_, ?_, ?_⟩
      · simp only [store, if_pos fits, Option.map_some]
      · rw [List.length_set, holds.length]
      · exact List.mem_set fits _
      · have := holds.length_lt
        omega
      · exact fun member => holds.plain (part _ member).1

/-- A text that fits is copied into the buffer of a fix and back. -/
theorem copyThrough_eq {clear : List Char → Option (List Char)} (plain : '\x00' ∉ tmp)
    (short : tmp.length < cdrFieldTxtLen)
    (clears : ∃ cleared, clear row = some cleared ∧ cleared.length = cdrFieldTxtLen) :
    ∃ after, copyThrough clear row tmp = some after ∧ RowHolds tmp after := by
  obtain ⟨buf, buf_eq, buf_holds⟩ := strcpy_of_lt (List.replicate cdrFieldTxtLen '\x00') plain
    (List.length_replicate ..) short
  obtain ⟨cleared, clear_eq, length⟩ := clears
  obtain ⟨after, after_eq, after_holds⟩ := strcpy_of_lt cleared plain length short
  refine ⟨after, ?_, after_holds⟩
  rw [copyThrough, buf_eq, clear_eq]
  simp only [Option.bind_eq_bind, Option.bind_some, buf_holds.text_eq]
  exact after_eq

theorem RowHolds.crFixRow_eq (holds : RowHolds line row) :
    ∃ after, crFixRow row = some after ∧ RowHolds (cdrFileGetfieldCrFix line) after := by
  have cut := holds.strtokRow_eq (· == '\n')
  rw [crFixRow, cdrFileGetfieldCrFix]
  cases found : Fields.strtok (· == '\n') line with
  | none =>
      rw [found] at cut
      exact ⟨row, by rw [cut]; rfl, holds⟩
  | some result =>
      rw [found] at cut
      obtain ⟨cut, cut_eq, length, ends, short, plain⟩ := cut
      rw [cut_eq]
      simp only [Option.bind_eq_bind, Option.bind_some]
      refine copyThrough_eq plain short ?_
      rw [strlen_of_mem '\x00' ends, Option.bind_some, ← length]
      exact exists_memset '\x00' (length_text_le '\x00' cut)

/-- A token of a row goes through the buffer of the second fix. -/
theorem RowHolds.tokenCopy (holds : RowHolds line row) (sep : Char → Bool) :
    ∃ after, ((strtokRow sep row).bind fun (tmp, row) =>
        match tmp with
        | none => some row
        | some tmp =>
            copyThrough (fun row => memset '\x00' row cdrFieldTxtLen) row tmp) = some after ∧
      RowHolds (match Fields.strtok sep line with
        | none => line
        | some (tmp, _) => tmp) after := by
  have cut := holds.strtokRow_eq sep
  cases found : Fields.strtok sep line with
  | none =>
      rw [found] at cut
      exact ⟨row, by rw [cut]; rfl, holds⟩
  | some result =>
      rw [found] at cut
      obtain ⟨cut, cut_eq, length, -, short, plain⟩ := cut
      rw [cut_eq]
      simp only [Option.bind_some]
      refine copyThrough_eq plain short ?_
      obtain ⟨cleared, memset_eq, cleared_length⟩ := exists_memset '\x00' length.ge
      exact ⟨cleared, memset_eq, cleared_length.trans length⟩

/-- The fix of the delimiters stays in bounds on a text that is not empty. -/
theorem RowHolds.delimiterFixRow_eq {profile : CdrFileProfile} (unset : Char)
    (holds : RowHolds line row) (nonempty : line ≠ []) :
    ∃ after, delimiterFixRow profile.colDelimiter unset row = some after ∧
      RowHolds (profile.cdrFileGetfieldDelimiterFix line) after := by
  have first := List.head?_eq_some_head nonempty
  have last := List.getLast?_eq_some_getLast nonempty
  rw [delimiterFixRow, holds.text_eq, CdrFileProfile.cdrFileGetfieldDelimiterFix, first, last]
  simp only [Option.bind_eq_bind, Option.bind_some]
  cases profile.colDelimiter with
  | none =>
      -- without a delimiter `strtok` gives the whole text
      have whole : Fields.strtok (fun c => some c == none) line = some (line, []) := by
        have plain : ∀ c ∈ line, (some c == none) = false := fun _ _ => rfl
        have ended : ∀ c ∈ ([] : List Char).head?, (some c == (none : Option Char)) = true := by
          simp
        have found := strtok_append plain nonempty ended
        rwa [List.append_nil] at found
      split
      · have copied := holds.tokenCopy fun c => some c == none
        rwa [whole] at copied
      · exact ⟨row, rfl, holds⟩
  | some del =>
      have same : (fun c => some c == some del) = (· == del) := by
        funext c
        simp
      rw [same]
      simp only [Option.getD_some, Option.some.injEq]
      by_cases ends : line.head nonempty = del ∧ line.getLast nonempty = del
      · rw [if_pos ⟨ends.1.trans ends.2.symm, ends.1⟩, if_pos ends]
        exact holds.tokenCopy (· == del)
      · have differ : ¬(line.head nonempty = line.getLast nonempty ∧ line.head nonempty = del) :=
          fun both => ends ⟨both.2, both.1 ▸ both.2⟩
        rw [if_neg differ, if_neg ends]
        exact ⟨row, rfl, holds⟩

end Fix

/-! ## The array -/

/-- The entries before the first one without an id hold the texts. -/
inductive HoldsFields : List (List Char) → List CdrFileField → Prop
  | done {txt : List Char} {arr : List CdrFileField} : HoldsFields [] (⟨0, txt⟩ :: arr)
  | field {line : List Char} {lines : List (List Char)} {id : ℕ} {txt : List Char}
      {arr : List CdrFileField} (positive : 0 < id) (holds : RowHolds line txt)
      (rest : HoldsFields lines arr) : HoldsFields (line :: lines) (⟨id, txt⟩ :: arr)

theorem clearedArr_succ (n : ℕ) : clearedArr (n + 1) = .cleared :: clearedArr n :=
  List.replicate_succ

/-- Short fields are copied into the array. -/
theorem getfieldLoop_of_lt (i : ℕ) {toks : List (List Char)} (plain : ∀ tok ∈ toks, '\x00' ∉ tok)
    (short : ∀ tok ∈ toks, tok.length < cdrFieldTxtLen) :
    ∃ arr, getfieldLoop i (clearedArr toks.length) toks = some arr ∧ HoldsFields toks arr := by
  have length : CdrFileField.cleared.txt.length = cdrFieldTxtLen := List.length_replicate ..
  induction toks generalizing i with
  | nil =>
      have empty : '\x00' ∉ ([] : List Char) := List.not_mem_nil
      obtain ⟨txt, txt_eq, -⟩ := strcpy_of_lt CdrFileField.cleared.txt empty length (by decide)
      exact ⟨⟨0, txt⟩ :: [], by simp [clearedArr, getfieldLoop, txt_eq], .done⟩
  | cons tok toks induction =>
      obtain ⟨txt, txt_eq, holds⟩ := strcpy_of_lt CdrFileField.cleared.txt
        (plain tok List.mem_cons_self) length (short tok List.mem_cons_self)
      obtain ⟨arr, arr_eq, rest⟩ := induction (i + 1)
        (fun tok member => plain tok (List.mem_cons_of_mem _ member))
        fun tok member => short tok (List.mem_cons_of_mem _ member)
      refine ⟨⟨i + 1, txt⟩ :: arr, ?_, .field (Nat.succ_pos i) holds rest⟩
      rw [List.length_cons, clearedArr_succ, getfieldLoop, txt_eq, arr_eq]
      rfl

/-- A long field is copied past the end of its text. -/
theorem getfieldLoop_eq_none (i : ℕ) {toks : List (List Char)} {tok : List Char}
    (member : tok ∈ toks)
    (long : cdrFieldTxtLen ≤ tok.length) :
    getfieldLoop i (clearedArr toks.length) toks = none := by
  have length : CdrFileField.cleared.txt.length = cdrFieldTxtLen := List.length_replicate ..
  induction toks generalizing i with
  | nil => nomatch member
  | cons first toks induction =>
      rw [List.length_cons, clearedArr_succ, getfieldLoop]
      rcases List.mem_cons.mp member with rfl | later
      · rw [strcpy_eq_none (length ▸ long)]
        rfl
      · rw [induction (i + 1) later]
        cases strcpy '\x00' CdrFileField.cleared.txt first <;> rfl

/-- The fix of the line break on the last field. -/
theorem HoldsFields.crFixAt_eq {lines : List (List Char)} {arr : List CdrFileField}
    (holds : HoldsFields lines arr) (nonempty : lines ≠ []) :
    ∃ after, crFixAt (lines.length - 1) arr = some after ∧
      HoldsFields (lines.modifyLast cdrFileGetfieldCrFix) after := by
  induction holds with
  | done => exact absurd rfl nonempty
  | @field line lines id txt arr positive holds rest induction =>
      cases lines with
      | nil =>
          obtain ⟨fixed, fix_eq, fixed_holds⟩ := holds.crFixRow_eq
          refine ⟨⟨id, fixed⟩ :: arr, ?_, .field positive fixed_holds rest⟩
          simp [crFixAt, fix_eq]
      | cons next lines =>
          obtain ⟨after, after_eq, after_holds⟩ := induction (List.cons_ne_nil _ _)
          refine ⟨⟨id, txt⟩ :: after, ?_, ?_⟩
          · simp only [List.length_cons, Nat.add_sub_cancel] at after_eq ⊢
            rw [crFixAt, after_eq]
            rfl
          · have same := List.modifyLast_append_of_right_ne_nil cdrFileGetfieldCrFix [line]
              (next :: lines) (List.cons_ne_nil _ _)
            rw [List.singleton_append] at same
            rw [same]
            exact .field positive holds after_holds

/-- The fix of the delimiters on all fields. -/
theorem HoldsFields.delimiterFixLoop_eq {profile : CdrFileProfile} (unset : Char)
    {lines : List (List Char)} {arr : List CdrFileField} (holds : HoldsFields lines arr)
    (nonempty : ∀ line ∈ lines, line ≠ []) :
    ∃ after, delimiterFixLoop profile.colDelimiter unset arr = some after ∧
      HoldsFields (lines.map profile.cdrFileGetfieldDelimiterFix) after := by
  induction holds with
  | done => exact ⟨_, rfl, .done⟩
  | @field line lines id txt arr positive holds rest induction =>
      obtain ⟨after, loop_eq, after_holds⟩ :=
        induction fun line member => nonempty line (List.mem_cons_of_mem _ member)
      have nonempty_line := nonempty line List.mem_cons_self
      obtain ⟨fixed, fix_eq, fixed_holds⟩ :
          ∃ fixed, delimiterFixRow profile.colDelimiter unset txt = some fixed ∧
            RowHolds (profile.cdrFileGetfieldDelimiterFix line) fixed :=
        holds.delimiterFixRow_eq unset nonempty_line
      refine ⟨⟨id, fixed⟩ :: after, ?_, .field positive fixed_holds after_holds⟩
      rw [delimiterFixLoop, if_pos positive, fix_eq, loop_eq]
      rfl

/-! ## Lines that pass the count of their fields -/

section Line

variable {profile : CdrFileProfile} {readbuf : List Char}

/-- Nothing is copied from a token but characters of the line. -/
theorem plain_of_mem_tokens {tok : List Char}
    (member : tok ∈ tokens profile.separates (cString readbuf)) : '\x00' ∉ tok :=
  fun nul => (mem_cString ((mem_tokens member).2 _ nul)).2 rfl

theorem CdrFileProfile.Passes.length_tokens (passes : profile.Passes readbuf) :
    profile.fileFieldNum = (tokens profile.separates (cString readbuf)).length := by
  rw [passes.2.2, CdrFileProfile.cdrFileFieldAnalize, strtokAll_cString]

/-- Short fields are copied to the array, and it holds the fields of `cdrFileGetfield`. -/
theorem getfieldArr_of_lt (unset : Char) (passes : profile.Passes readbuf)
    (short : ∀ tok ∈ tokens profile.separates (cString readbuf), tok.length < cdrFieldTxtLen) :
    ∃ fields arr, profile.cdrFileGetfield readbuf = some fields ∧
      profile.getfieldArr unset readbuf = some arr ∧ fields.length = profile.fileFieldNum ∧
        HoldsFields fields arr := by
  let toks := tokens profile.separates (cString readbuf)
  have some_token : toks ≠ [] := by
    refine List.ne_nil_of_length_pos ?_
    rw [← passes.length_tokens, passes.2.2]
    exact passes.2.1
  obtain ⟨arr, loop_eq, holds⟩ := getfieldLoop_of_lt 0 (fun _ => plain_of_mem_tokens) short
  obtain ⟨fixed, fix_eq, fixed_holds⟩ := holds.crFixAt_eq some_token
  obtain ⟨front, last, split⟩ := (List.eq_nil_or_concat' toks).resolve_left some_token
  have fixed_eq : toks.modifyLast cdrFileGetfieldCrFix = front ++ [cdrFileGetfieldCrFix last] := by
    rw [split, List.modifyLast_concat]
  have nonempty : ∀ line ∈ toks.modifyLast cdrFileGetfieldCrFix, line ≠ [] := by
    have kept : ∀ line ∈ front ++ [last], line ≠ [] :=
      fun line member => (mem_tokens (split ▸ member)).1
    rw [fixed_eq]
    intro line member
    rcases List.mem_append.mp member with before | at_end
    · exact kept line (List.mem_append_left _ before)
    · rw [List.mem_singleton.mp at_end]
      exact (cdrFileGetfieldCrFix_part (kept last (by simp))).1
  obtain ⟨after, after_eq, after_holds⟩ :
      ∃ after, delimiterFixLoop profile.colDelimiter unset fixed = some after ∧
        HoldsFields _ after :=
    fixed_holds.delimiterFixLoop_eq unset nonempty
  refine ⟨_, after, ?_, ?_, ?_, after_holds⟩
  · rw [CdrFileProfile.cdrFileGetfield, strtokAll_cString, if_pos short]
  · rw [CdrFileProfile.getfieldArr, strtokAll_cString, passes.length_tokens, loop_eq]
    simp only [Option.bind_eq_bind, Option.bind_some]
    rw [if_neg some_token, fix_eq, Option.bind_some]
    exact after_eq
  · rw [List.length_map, fixed_eq, passes.length_tokens]
    change _ = toks.length
    rw [split, List.length_append, List.length_append, List.length_singleton, List.length_singleton]

theorem getfieldArr_eq_none (unset : Char) (passes : profile.Passes readbuf) {tok : List Char}
    (member : tok ∈ tokens profile.separates (cString readbuf))
    (long : cdrFieldTxtLen ≤ tok.length) :
    profile.getfieldArr unset readbuf = none := by
  rw [CdrFileProfile.getfieldArr, strtokAll_cString, passes.length_tokens,
    getfieldLoop_eq_none 0 member long]
  rfl

end Line

/-! ## The columns of a CDR -/

/-- The arrays hold the texts of a CDR. -/
structure ArraysHold (cdr : CdrT) (arrays : CdrText → List Char) : Prop where
  length : ∀ field, (arrays field).length = field.len
  text_eq : ∀ field, text '\x00' (arrays field) = cdr.text field

theorem CdrText.len_pos (field : CdrText) : 0 < field.len := by
  cases field <;> decide

theorem clearedArrays_hold : ArraysHold CdrT.cleared clearedArrays where
  length _ := List.length_replicate ..
  text_eq field := by
    rw [clearedArrays, ← Nat.succ_pred_eq_of_pos field.len_pos, List.replicate_succ]
    exact List.takeWhile_cons_of_neg (by simp)

/-- `cdr_field_set` stays in its array and leaves the start of the text. -/
theorem exists_cdrFieldSetArr {dst src : List Char} (room : 0 < dst.length) (plain : '\x00' ∉ src) :
    ∃ after, cdrFieldSetArr dst src = some after ∧ after.length = dst.length ∧
      text '\x00' after = src.take (dst.length - 1) := by
  obtain ⟨after, after_eq, text_eq⟩ := strncpy_store dst plain (Nat.sub_lt room Nat.one_pos)
  obtain ⟨copied, copy_eq, end_eq⟩ := Option.bind_eq_some_iff.mp after_eq
  exact ⟨after, after_eq, (length_store end_eq).trans (length_storeAll copy_eq), text_eq⟩

/-- A setter stays in its array. -/
theorem ArraysHold.add {cdr : CdrT} {arrays : CdrText → List Char} (hold : ArraysHold cdr arrays)
    {column : CdrColumn × List Char} (plain : '\x00' ∉ column.2) :
    ∃ after, addArr arrays column = some after ∧ ArraysHold (cdr.add column) after := by
  obtain ⟨field | num, txt⟩ := column
  · have room : 0 < (arrays field).length := (hold.length field).symm ▸ field.len_pos
    obtain ⟨cells, set_eq, length, text_eq⟩ := exists_cdrFieldSetArr room plain
    refine ⟨Function.update arrays field cells, by rw [addArr, set_eq]; rfl, ?_, ?_⟩
    · intro other
      by_cases own : other = field
      · rw [own, Function.update_self, length, hold.length]
      · rw [Function.update_of_ne own, hold.length]
    · intro other
      by_cases own : other = field
      · rw [own, Function.update_self, text_eq, hold.length]
        simp [CdrT.add, CdrT.cdrFieldSet, CdrT.setText]
      · rw [Function.update_of_ne own, hold.text_eq]
        simp [CdrT.add, CdrT.cdrFieldSet, CdrT.setText, own]
  · exact ⟨arrays, rfl, hold.length, hold.text_eq⟩

/-- The setters of a line stay in their arrays. -/
theorem ArraysHold.foldlM {cdr : CdrT} {arrays : CdrText → List Char} (hold : ArraysHold cdr arrays)
    {columns : List (CdrColumn × List Char)} (plain : ∀ column ∈ columns, '\x00' ∉ column.2) :
    ∃ after, columns.foldlM addArr arrays = some after ∧
      ArraysHold (columns.foldl CdrT.add cdr) after := by
  induction columns generalizing cdr arrays with
  | nil => exact ⟨arrays, rfl, hold⟩
  | cons column columns induction =>
      obtain ⟨added, add_eq, added_hold⟩ := hold.add (plain column List.mem_cons_self)
      obtain ⟨after, fold_eq, after_hold⟩ :=
        induction added_hold fun column member => plain column (List.mem_cons_of_mem _ member)
      refine ⟨after, ?_, after_hold⟩
      rw [List.foldlM_cons, add_eq]
      exact fold_eq

section Line

variable {profile : CdrFileProfile} {readbuf : List Char}

/-- The texts of an array are the fields that it holds, and no field has a terminator. -/
theorem HoldsFields.texts {lines : List (List Char)} {arr : List CdrFileField}
    (holds : HoldsFields lines arr) :
    (arr.map fun entry => text '\x00' entry.txt).take lines.length = lines ∧
      ∀ line ∈ lines, '\x00' ∉ line := by
  induction holds with
  | done => exact ⟨List.take_zero, List.forall_mem_nil _⟩
  | field positive holds rest induction =>
      refine ⟨?_, List.forall_mem_cons.mpr ⟨holds.plain, induction.2⟩⟩
      rw [List.map_cons, List.length_cons, List.take_succ_cons, induction.1, holds.text_eq]

/-- The columns are filled from as many texts as the profile has fields. -/
theorem fill_take {Column : Type} (hdr : List (CdrFileHeader Column)) (arr : List (List Char)) :
    profile.fill hdr (arr.take profile.fileFieldNum) = profile.fill hdr arr := by
  refine List.flatMap_congr fun i inside => ?_
  have same : (arr.take profile.fileFieldNum).getD i [] = arr.getD i [] := by
    simp [List.getD_eq_getElem?_getD, List.getElem?_take_of_lt (List.mem_range.mp inside)]
  simp only [same]

theorem mem_fill {Column : Type} {hdr : List (CdrFileHeader Column)} {arr : List (List Char)}
    {column : Column × List Char} (member : column ∈ profile.fill hdr arr) :
    column.2 = [] ∨ column.2 ∈ arr := by
  obtain ⟨i, -, filled⟩ := List.mem_flatMap.mp member
  obtain ⟨head, -, found⟩ := List.mem_filterMap.mp filled
  split at found
  · obtain ⟨func, -, rfl⟩ := Option.map_eq_some_iff.mp found
    rcases Nat.lt_or_ge i arr.length with inside | outside
    · exact .inr (by simp [List.getD_eq_getElem?_getD, inside])
    · exact .inl (by simp [List.getD_eq_getElem?_getD, outside])
  · nomatch found

/-- A line whose fields are short is copied to the arrays of the CDR that
`cdr_file_parser` fills. -/
theorem rowCopies_of_lt (hdr : List (CdrFileHeader CdrColumn)) (unset : Char)
    (passes : profile.Passes readbuf)
    (short : ∀ tok ∈ tokens profile.separates (cString readbuf), tok.length < cdrFieldTxtLen) :
    ∃ fields after, profile.cdrFileGetfield readbuf = some fields ∧
      profile.rowCopies hdr unset readbuf = some after ∧
        ArraysHold ((profile.fill hdr fields).foldl CdrT.add CdrT.cleared) after := by
  obtain ⟨fields, arr, fields_eq, arr_eq, length, holds⟩ := getfieldArr_of_lt unset passes short
  obtain ⟨texts_eq, plain⟩ := holds.texts
  have columns_eq : profile.fill hdr (arr.map fun entry => text '\x00' entry.txt) =
      profile.fill hdr fields := by
    rw [← fill_take, ← length, texts_eq]
  have plain_columns : ∀ column ∈ profile.fill hdr fields, '\x00' ∉ column.2 := by
    intro column member
    rcases mem_fill member with none_held | held
    · rw [none_held]
      exact List.not_mem_nil
    · exact plain _ held
  obtain ⟨after, fold_eq, hold⟩ := clearedArrays_hold.foldlM plain_columns
  refine ⟨fields, after, fields_eq, ?_, hold⟩
  rw [CdrFileProfile.rowCopies, arr_eq]
  simp only [Option.bind_eq_bind, Option.bind_some]
  rw [columns_eq]
  exact fold_eq

/-- All copies for a line stay in their destinations exactly when its fields are shorter than the
texts of the array. -/
theorem rowCopies_isSome_iff (hdr : List (CdrFileHeader CdrColumn)) (unset : Char)
    (passes : profile.Passes readbuf) :
    (profile.rowCopies hdr unset readbuf).isSome ↔
      ∀ tok ∈ tokens profile.separates (cString readbuf), tok.length < cdrFieldTxtLen := by
  constructor
  · intro copied tok member
    by_contra long
    rw [CdrFileProfile.rowCopies,
      getfieldArr_eq_none unset passes member (not_lt.mp long)] at copied
    nomatch copied
  · intro short
    obtain ⟨-, after, -, copied, -⟩ := rowCopies_of_lt hdr unset passes short
    exact Option.isSome_of_eq_some copied

end Line

/-- A profile of two columns. -/
def csvProfile : CdrFileProfile where
  colSep := ','
  hdrComm := '#'
  colDelimiter := some '"'
  fileFieldNum := 2
  colSep_ne := twoColumns.colSep_ne
  colDelimiter_ne := by simp

/-- A line whose second field is in delimiters. -/
def csvLine : List Char := "call-1,\"60\"\n".toList

theorem rowCopies_csvLine :
    (csvProfile.rowCopies [⟨0, some (.text .callUid)⟩] 'x' csvLine).isSome :=
  (rowCopies_isSome_iff _ 'x' (by decide)).mpr (by decide)

/-- A line with a field of 256 characters. -/
def longLine : List Char := ['1'] ++ ',' :: List.replicate cdrFieldTxtLen '9'

theorem tokens_longLine : tokens csvProfile.separates (cString longLine) =
    [['1'], List.replicate cdrFieldTxtLen '9'] := by
  have unmarked : ∀ c ∈ longLine, decide (c ≠ '\x00') = true := by
    intro c member
    rcases List.mem_append.mp member with first | second
    · rw [List.mem_singleton.mp first]
      decide
    · rcases List.mem_cons.mp second with rfl | digit
      · decide
      · rw [List.eq_of_mem_replicate digit]
        decide
  have string_eq : cString longLine = longLine := List.takeWhile_eq_self_iff.mpr unmarked
  have digits : ∀ c ∈ List.replicate cdrFieldTxtLen '9', csvProfile.separates c = false := by
    intro c member
    rw [List.eq_of_mem_replicate member]
    decide
  have some_digit : List.replicate cdrFieldTxtLen '9' ≠ [] :=
    List.ne_nil_of_length_pos (by rw [List.length_replicate]; decide)
  have one : ∀ c ∈ ['1'], csvProfile.separates c = false := by
    intro c member
    rw [List.mem_singleton.mp member]
    decide
  have separates : csvProfile.separates ',' = true := beq_self_eq_true _
  rw [string_eq, longLine, tokens_append_cons _ _ separates,
    tokens_eq_singleton one (List.cons_ne_nil _ _), tokens_eq_singleton digits some_digit,
    List.singleton_append]

theorem passes_longLine : csvProfile.Passes longLine := by
  have count : csvProfile.cdrFileFieldAnalize longLine = 2 := by
    rw [CdrFileProfile.cdrFileFieldAnalize, strtokAll_cString, tokens_longLine]
    rfl
  exact ⟨by decide, count ▸ Nat.two_pos, count.symm⟩

theorem not_rowCopies_longLine :
    ¬ ∀ (profile : CdrFileProfile) (hdr : List (CdrFileHeader CdrColumn))
    (unset : Char) (readbuf : List Char), readbuf.length < readbufLen → profile.Passes readbuf →
      (profile.rowCopies hdr unset readbuf).isSome := by
  intro copied
  have inside : longLine.length < readbufLen := by
    rw [longLine, List.length_append, List.length_singleton, List.length_cons,
      List.length_replicate]
    decide
  have done := copied csvProfile [] 'x' longLine inside passes_longLine
  have long : List.replicate cdrFieldTxtLen '9' ∈ tokens csvProfile.separates
      (cString longLine) := by
    rw [tokens_longLine]
    exact List.mem_cons_of_mem _ List.mem_cons_self
  rw [CdrFileProfile.rowCopies,
    getfieldArr_eq_none 'x' passes_longLine long (List.length_replicate ..).ge] at done
  nomatch done

end RateEngine
