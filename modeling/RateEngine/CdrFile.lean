import RateEngine.Lib.Fields
import Mathlib.Data.List.ModifyLast
import Mathlib.Tactic

/-!
# CDR files

`cdr_file_parser` reads a file through a buffer, counts the fields of what the buffer holds, and
fills the columns of a CDR from them.  This file compares what it builds with the lines of the file:
one CDR for each line that is no header and has the number of fields of the profile.
-/

namespace RateEngine

open Fields

/-! ## `cdr_file_parser` -/

/-- `READBUF_LEN`. -/
def readbufLen : ℕ := 1024

/-- `CDR_FIELD_TXT_LEN`. -/
def cdrFieldTxtLen : ℕ := 256

/-- The fields of `cdr_file_profile_t` that the parser reads.  The separator and the delimiter are
texts of at most one character. -/
structure CdrFileProfile where
  colSep : Char
  hdrComm : Char
  colDelimiter : Option Char
  fileFieldNum : ℕ
  colSep_ne : colSep ≠ '\x00'
  colDelimiter_ne : ∀ del ∈ colDelimiter, del ≠ '\x00'

/-- `cdr_file_header_t`: a position and the function that fills a column. -/
structure CdrFileHeader (Column : Type) where
  hdrId : ℕ
  func : Option Column

/-- A buffer as a C string. -/
def cString (buf : List Char) : List Char := buf.takeWhile fun c => c ≠ '\x00'

/-- `fgets` until the end of the file. -/
def fgetsAll (content : List Char) : List (List Char) :=
  cutAfter (fills (readbufLen - 1) (· == '\n')) [] content

/-- `cdr_file_getfield_cr_fix`. -/
def cdrFileGetfieldCrFix (row : List Char) : List Char :=
  match strtok (· == '\n') row with
  | none => row
  | some (tmp, _) => tmp

namespace CdrFileProfile

variable (profile : CdrFileProfile)

/-- The separator of the columns. -/
def separates (c : Char) : Bool := c == profile.colSep

/-- `cdr_file_field_analize`. -/
def cdrFileFieldAnalize (line : List Char) : ℕ :=
  (strtokAll profile.separates (cString line).length (cString line)).length

/-- `cdr_file_getfield_delimiter_fix` on one field. -/
def cdrFileGetfieldDelimiterFix (txt : List Char) : List Char :=
  match profile.colDelimiter with
  | none => txt
  | some del =>
      if txt.head? = some del ∧ txt.getLast? = some del then
        match strtok (· == del) txt with
        | none => txt
        | some (tmp, _) => tmp
      else txt

/-- `cdr_file_getfield`; there is no result when a field overruns its text. -/
def cdrFileGetfield (line : List Char) : Option (List (List Char)) :=
  let arr := strtokAll profile.separates (cString line).length (cString line)
  if ∀ txt ∈ arr, txt.length < cdrFieldTxtLen then
    some ((arr.modifyLast cdrFileGetfieldCrFix).map profile.cdrFileGetfieldDelimiterFix)
  else none

/-- The columns in the order in which they are filled, each with its text. -/
def fill {Column : Type} (hdr : List (CdrFileHeader Column)) (arr : List (List Char)) :
    List (Column × List Char) :=
  (List.range profile.fileFieldNum).flatMap fun i =>
    hdr.filterMap fun column =>
      if i = column.hdrId then column.func.map fun func => (func, arr.getD i []) else none

/-- The test of `cdr_file_parser` on a buffer. -/
def Passes (readbuf : List Char) : Prop :=
  readbuf.head? ≠ some profile.hdrComm ∧ 0 < profile.cdrFileFieldAnalize readbuf ∧
    profile.fileFieldNum = profile.cdrFileFieldAnalize readbuf

instance (readbuf : List Char) : Decidable (profile.Passes readbuf) :=
  inferInstanceAs (Decidable (_ ∧ _ ∧ _))

/-- `cdr_file_parser`: the CDRs it builds, with nothing for a field that overruns its text. -/
def cdrFileParser {Column : Type} (hdr : List (CdrFileHeader Column)) (content : List Char) :
    List (Option (List (Column × List Char))) :=
  (fgetsAll content).flatMap fun readbuf =>
    if profile.Passes readbuf then [(profile.cdrFileGetfield readbuf).map (profile.fill hdr)]
    else []

end CdrFileProfile

/-! ## The lines of a file -/

/-- The physical lines of a file, each with its line break. -/
def physicalLines (content : List Char) : List (List Char) :=
  cutAfter (fun _ => (· == '\n')) [] content

/-- A line without its line break. -/
def lineText (line : List Char) : List Char := line.takeWhile fun c => c ≠ '\n'

namespace CdrFileProfile

variable (profile : CdrFileProfile)

/-- The fields of a line. -/
def fields (line : List Char) : List (List Char) := (lineText line).splitOnP profile.separates

/-- The line is no header comment, fits in the buffer and has the fields of the profile. -/
def InGrammar (line : List Char) : Prop :=
  line.head? ≠ some profile.hdrComm ∧ (lineText line).length < readbufLen ∧
    (profile.fields line).length = profile.fileFieldNum

instance (line : List Char) : Decidable (profile.InGrammar line) :=
  inferInstanceAs (Decidable (_ ∧ _ ∧ _))

/-- A field stands between two delimiters. -/
def Delimited (del : Char) (field : List Char) : Prop :=
  2 ≤ field.length ∧ field.head? = some del ∧ field.getLast? = some del

instance (del : Char) (field : List Char) : Decidable (Delimited del field) :=
  inferInstanceAs (Decidable (_ ∧ _ ∧ _))

/-- A field without the delimiters around it. -/
def undelimit (field : List Char) : List Char :=
  match profile.colDelimiter with
  | none => field
  | some del => if Delimited del field then field.tail.dropLast else field

/-- The CDRs of a line: one when the line is in the grammar. -/
def lineCdrs {Column : Type} (hdr : List (CdrFileHeader Column)) (line : List Char) :
    List (List (Column × List Char)) :=
  if profile.InGrammar line then
    [profile.fill hdr ((profile.fields line).map profile.undelimit)]
  else []

/-- Under every mapping of columns to positions the parser builds one CDR for each line in the
grammar. -/
def AcceptsGrammar (content : List Char) : Prop :=
  ∀ (Column : Type) (hdr : List (CdrFileHeader Column)),
    profile.cdrFileParser hdr content =
      ((physicalLines content).flatMap (profile.lineCdrs hdr)).map some

/-! ## Lines that are read -/

/-- The two fixes give the field: it is not empty, a C string, and its delimiters enclose a text
without delimiters. -/
structure Readable (field : List Char) : Prop where
  nonempty : field ≠ []
  cString : '\x00' ∉ field
  enclosed : ∀ del ∈ profile.colDelimiter, Delimited del field →
    field.tail.dropLast ≠ [] ∧ del ∉ field.tail.dropLast

/-- No part of a line passes for a line of the grammar, and the fields of a line of the
grammar can be read. -/
structure ReadsLine (line : List Char) : Prop where
  passes : profile.Passes (line.take (readbufLen - 1)) → profile.InGrammar line
  further : ∀ readbuf ∈ fgetsAll (line.drop (readbufLen - 1)), ¬ profile.Passes readbuf
  readable : profile.InGrammar line → ∀ field ∈ profile.fields line, profile.Readable field
  short : profile.InGrammar line →
    ∀ token ∈ tokens profile.separates (line.take (readbufLen - 1)), token.length < cdrFieldTxtLen

end CdrFileProfile

/-! ## Fields -/

section Field

variable {profile : CdrFileProfile}

theorem mem_cString {buf : List Char} {c : Char} (member : c ∈ cString buf) :
    c ∈ buf ∧ c ≠ '\x00' :=
  ⟨(List.takeWhile_prefix _).subset member, by simpa using List.mem_takeWhile_imp member⟩

/-- The fields of a buffer are the tokens of its string. -/
theorem strtokAll_cString (line : List Char) :
    strtokAll profile.separates (cString line).length (cString line) =
      tokens profile.separates (cString line) :=
  strtokAll_eq_tokens le_rfl

theorem mem_tokens {sep : Char → Bool} {text token : List Char} (member : token ∈ tokens sep text) :
    token ≠ [] ∧ ∀ c ∈ token, c ∈ text := by
  obtain ⟨field, nonempty⟩ := List.mem_filter.mp member
  exact ⟨by simpa using nonempty, fun c c_mem => mem_splitOnP field c_mem⟩

/-- The fix of the line break keeps a nonempty part of the text. -/
theorem cdrFileGetfieldCrFix_part {row : List Char} (nonempty : row ≠ []) :
    cdrFileGetfieldCrFix row ≠ [] ∧ ∀ c ∈ cdrFileGetfieldCrFix row, c ∈ row := by
  rw [cdrFileGetfieldCrFix]
  split
  · exact ⟨nonempty, fun c member => member⟩
  · rename_i found
    obtain ⟨kept, part⟩ := strtok_eq_some found
    exact ⟨kept, fun c member => (part c member).1⟩

/-- The fix of the delimiters keeps a nonempty part of the text. -/
theorem CdrFileProfile.cdrFileGetfieldDelimiterFix_part {txt : List Char} (nonempty : txt ≠ []) :
    profile.cdrFileGetfieldDelimiterFix txt ≠ [] ∧
      ∀ c ∈ profile.cdrFileGetfieldDelimiterFix txt, c ∈ txt := by
  rw [CdrFileProfile.cdrFileGetfieldDelimiterFix]
  split
  · exact ⟨nonempty, fun c member => member⟩
  · split
    · split
      · exact ⟨nonempty, fun c member => member⟩
      · rename_i found
        obtain ⟨kept, part⟩ := strtok_eq_some found
        exact ⟨kept, fun c member => (part c member).1⟩
    · exact ⟨nonempty, fun c member => member⟩

/-- The fix of the line break takes it away after a nonempty text. -/
theorem cdrFileGetfieldCrFix_append {text tail : List Char} (plain : '\n' ∉ text)
    (nonempty : text ≠ []) (ended : tail = [] ∨ tail = ['\n']) :
    cdrFileGetfieldCrFix (text ++ tail) = text := by
  have found : strtok (· == '\n') (text ++ tail) = some (text, tail.tail) :=
    strtok_append (fun c member => by simpa using ne_of_mem_of_not_mem member plain) nonempty
      (by rcases ended with rfl | rfl <;> simp)
  rw [cdrFileGetfieldCrFix, found]

/-- A field between two delimiters is its inside with the delimiters around. -/
theorem CdrFileProfile.Delimited.eq {del : Char} {field : List Char}
    (enclosed : Delimited del field) :
    field = del :: (field.tail.dropLast ++ [del]) := by
  obtain ⟨long, first, last⟩ := enclosed
  obtain ⟨rest, rfl⟩ : ∃ rest, field = del :: rest := by
    cases field with
    | nil => cases first
    | cons a rest => exact ⟨rest, by simpa using first⟩
  have rest_ne : rest ≠ [] := by
    rintro rfl
    simp at long
  have rest_last : rest.getLast rest_ne = del := by
    rw [List.getLast?_eq_getLast_of_ne_nil (List.cons_ne_nil _ _),
      List.getLast_cons rest_ne] at last
    exact Option.some.inj last
  rw [List.tail_cons]
  conv_lhs => rw [← List.dropLast_append_getLast rest_ne, rest_last]

/-- The fix of the delimiters gives the field without delimiters exactly when they enclose a
nonempty text without delimiters. -/
theorem CdrFileProfile.cdrFileGetfieldDelimiterFix_eq_iff {field : List Char} :
    profile.cdrFileGetfieldDelimiterFix field = profile.undelimit field ↔
      ∀ del ∈ profile.colDelimiter, Delimited del field →
        field.tail.dropLast ≠ [] ∧ del ∉ field.tail.dropLast := by
  rw [CdrFileProfile.cdrFileGetfieldDelimiterFix, CdrFileProfile.undelimit]
  cases profile.colDelimiter with
  | none => simp
  | some del =>
      simp only [Option.mem_def, Option.some.injEq, forall_eq']
      by_cases enclosed : CdrFileProfile.Delimited del field
      · rw [if_pos enclosed.2, if_pos enclosed]
        have shape := enclosed.eq
        have longer : field ≠ field.tail.dropLast := fun same => by
          have := congrArg List.length same
          have := enclosed.1
          simp only [List.length_dropLast, List.length_tail] at *
          omega
        constructor
        · intro fixed _
          split at fixed
          · exact absurd fixed longer
          · rename_i found
            obtain ⟨kept, plain⟩ := strtok_eq_some found
            rw [← fixed]
            exact ⟨kept, fun member => by simpa using (plain del member).2⟩
        · intro clean
          obtain ⟨inside_ne, inside_plain⟩ := clean enclosed
          have skipped : strtok (· == del) field =
              strtok (· == del) (field.tail.dropLast ++ [del]) := by
            conv_lhs => rw [shape]
            rw [strtok, strtok, List.dropWhile_cons_of_pos (by simp)]
          rw [skipped, strtok_append
            (fun c member => by simpa using ne_of_mem_of_not_mem member inside_plain) inside_ne
            (by simp)]
      · rw [if_neg enclosed]
        refine iff_of_true ?_ fun inside => absurd inside enclosed
        split
        · rename_i ends
          have single : field = [del] := by
            have short : field.length < 2 := not_le.mp fun long => enclosed ⟨long, ends⟩
            cases field with
            | nil => cases ends.1
            | cons a rest =>
                have rest_nil : rest = [] := by
                  rw [List.length_cons] at short
                  exact List.length_eq_zero_iff.mp (by omega)
                rw [rest_nil] at ends ⊢
                simpa using ends.1
          rw [strtok_eq_none (by simp [single])]
        · rfl

/-- Nothing but delimiters is taken away. -/
theorem CdrFileProfile.mem_undelimit {field : List Char} (marked : '\x00' ∈ field) :
    '\x00' ∈ profile.undelimit field := by
  rw [CdrFileProfile.undelimit]
  cases delimiter : profile.colDelimiter with
  | none => exact marked
  | some del =>
      simp only
      split
      · rename_i enclosed
        have other := profile.colDelimiter_ne del delimiter
        rw [enclosed.eq] at marked
        simpa [other.symm] using marked
      · exact marked

@[simp]
theorem CdrFileProfile.undelimit_nil : profile.undelimit [] = [] := by
  rw [CdrFileProfile.undelimit]
  cases profile.colDelimiter <;> simp

end Field

/-! ## The first buffer of a line -/

section Buffer

variable {profile : CdrFileProfile}

/-- A buffer as a string, and what follows its end. -/
theorem exists_cString_append (buf : List Char) :
    ∃ after, buf = cString buf ++ after ∧ ∀ c ∈ after.head?, c = '\x00' := by
  refine ⟨buf.dropWhile fun c => c ≠ '\x00', List.takeWhile_append_dropWhile.symm,
    fun c first => ?_⟩
  have stop := List.head?_dropWhile_not (fun c => decide (c ≠ '\x00')) buf
  rw [Option.mem_def.mp first] at stop
  simpa using stop

theorem cString_eq_self {buf : List Char} (plain : '\x00' ∉ buf) : cString buf = buf :=
  List.takeWhile_eq_self_iff.mpr fun c member => by
    simpa using ne_of_mem_of_not_mem member plain

/-- A separator at the end of a buffer gives no token. -/
theorem tokens_cString_concat {sep : Char → Bool} (text : List Char) {c : Char}
    (separates : sep c = true) :
    tokens sep (cString (text ++ [c])) = tokens sep (cString text) := by
  obtain ⟨after, text_eq, stop⟩ := exists_cString_append text
  by_cases plain : '\x00' ∈ text
  · have same : cString (text ++ [c]) = cString text := by
      rw [cString, cString, List.takeWhile_append, if_neg]
      intro whole
      have kept : cString text = text := (List.takeWhile_prefix _).eq_of_length whole
      exact (mem_cString (kept ▸ plain)).2 rfl
    rw [same]
  · rw [cString_eq_self plain, cString, List.takeWhile_append_of_pos
      (fun d member => by simpa using ne_of_mem_of_not_mem member plain)]
    by_cases zero : c = '\x00'
    · simp [zero]
    · have taken : [c].takeWhile (fun c => decide (c ≠ '\x00')) = [c] := by simp [zero]
      rw [taken, tokens_append_cons text [] separates, tokens_nil, List.append_nil]

/-- When the tokens of a line with its line break are as many as its fields, they are its fields;
the last one goes to the line break or to the end of the string. -/
theorem tokens_eq_fields {sep : Char → Bool} {text tail : List Char}
    (ended : tail = [] ∨ tail = ['\n'])
    (count : (tokens sep (cString (text ++ tail))).length = (text.splitOnP sep).length) :
    ∃ first last token tail' after, text.splitOnP sep = first ++ [last] ∧
      tokens sep (cString (text ++ tail)) = first ++ [token] ∧
        last ++ tail' = token ++ after ∧ (tail' = [] ∨ tail' = ['\n']) ∧
          ∀ c ∈ after.head?, c = '\x00' := by
  -- a line break that separates columns gives no token
  obtain ⟨tail', tokens_tail, ended', plain⟩ : ∃ tail',
      tokens sep (cString (text ++ tail)) = tokens sep (cString (text ++ tail')) ∧
        (tail' = [] ∨ tail' = ['\n']) ∧ ∀ c ∈ tail', sep c = false := by
    rcases ended with rfl | rfl
    · exact ⟨[], rfl, .inl rfl, by simp⟩
    · by_cases separates : sep '\n' = true
      · exact ⟨[], by rw [tokens_cString_concat text separates, List.append_nil], .inl rfl, by simp⟩
      · exact ⟨['\n'], rfl, .inr rfl, by simpa using separates⟩
  rw [tokens_tail] at count ⊢
  obtain ⟨after, buf_eq, stop⟩ := exists_cString_append (text ++ tail')
  have no_more : (tokens sep (cString (text ++ tail'))).length ≤
      ((cString (text ++ tail')).splitOnP sep).length := List.length_filter_le _ _
  have buf_count := congrArg (List.countP sep) buf_eq
  have tail_count : tail'.countP sep = 0 :=
    List.countP_eq_zero.mpr fun c member => by simp [plain c member]
  rw [length_splitOnP] at count no_more
  rw [List.countP_append, List.countP_append, tail_count] at buf_count
  have after_count : after.countP sep = 0 := by omega
  have all : (tokens sep (cString (text ++ tail'))).length =
      ((cString (text ++ tail')).splitOnP sep).length := by
    rw [length_splitOnP]
    omega
  have after_plain : ∀ c ∈ after, sep c = false := fun c member => by
    simpa using List.countP_eq_zero.mp after_count c member
  obtain ⟨first, last, fields_eq, whole_eq⟩ := splitOnP_append text plain
  obtain ⟨first', token, string_eq, whole_eq'⟩ :=
    splitOnP_append (cString (text ++ tail')) after_plain
  rw [← buf_eq, whole_eq] at whole_eq'
  obtain ⟨same_first, same_last⟩ := List.append_inj' whole_eq' rfl
  refine ⟨first, last, token, tail', after, fields_eq, ?_, by simpa using same_last, ended', stop⟩
  rw [tokens_eq_splitOnP all, string_eq, same_first]

/-- The fixes give the last field exactly when it can be read. -/
theorem fixes_eq_iff_readable {last token tail after : List Char} (unbroken : '\n' ∉ last)
    (parts : last ++ tail = token ++ after) (ended : tail = [] ∨ tail = ['\n'])
    (stop : ∀ c ∈ after.head?, c = '\x00') (token_ne : token ≠ []) (string : '\x00' ∉ token) :
    profile.cdrFileGetfieldDelimiterFix (cdrFileGetfieldCrFix token) = profile.undelimit last ↔
      profile.Readable last := by
  by_cases marked : '\x00' ∈ last
  · refine iff_of_false (fun same => ?_) fun readable => readable.cString marked
    obtain ⟨fixed_ne, fixed_part⟩ := cdrFileGetfieldCrFix_part token_ne
    have member := profile.mem_undelimit marked
    rw [← same] at member
    exact string (fixed_part _ ((profile.cdrFileGetfieldDelimiterFix_part fixed_ne).2 _ member))
  have after_nil : after = [] := by
    cases after with
    | nil => rfl
    | cons c after =>
        have zero : c = '\x00' := stop c rfl
        have member : '\x00' ∈ last ++ tail := by
          rw [parts, zero]
          simp
        rcases List.mem_append.mp member with inside | break_mem
        · exact absurd inside marked
        · rcases ended with rfl | rfl <;> simp at break_mem
  rw [after_nil, List.append_nil] at parts
  by_cases empty : last = []
  · refine iff_of_false (fun same => ?_) fun readable => readable.nonempty empty
    rw [empty, profile.undelimit_nil] at same
    exact (profile.cdrFileGetfieldDelimiterFix_part (cdrFileGetfieldCrFix_part token_ne).1).1 same
  · rw [← parts, cdrFileGetfieldCrFix_append unbroken empty ended,
      profile.cdrFileGetfieldDelimiterFix_eq_iff]
    exact ⟨fun enclosed => ⟨empty, marked, enclosed⟩, fun readable => readable.enclosed⟩

/-- From a buffer with as many tokens as fields the parser reads the fields exactly when they can be
read and fit in their texts. -/
theorem cdrFileGetfield_eq_iff {text tail : List Char} (unbroken : '\n' ∉ text)
    (ended : tail = [] ∨ tail = ['\n'])
    (count : profile.cdrFileFieldAnalize (text ++ tail) =
      (text.splitOnP profile.separates).length) :
    profile.cdrFileGetfield (text ++ tail) =
        some ((text.splitOnP profile.separates).map profile.undelimit) ↔
      (∀ field ∈ text.splitOnP profile.separates, profile.Readable field) ∧
        ∀ token ∈ tokens profile.separates (cString (text ++ tail)),
          token.length < cdrFieldTxtLen := by
  rw [CdrFileProfile.cdrFileFieldAnalize, strtokAll_cString] at count
  obtain ⟨first, last, token, tail', after, fields_eq, tokens_eq, parts, ended', stop⟩ :=
    tokens_eq_fields ended count
  rw [CdrFileProfile.cdrFileGetfield, strtokAll_cString]
  by_cases short : ∀ txt ∈ tokens profile.separates (cString (text ++ tail)),
      txt.length < cdrFieldTxtLen
  · rw [if_pos short, and_iff_left short, tokens_eq, fields_eq]
    have token_mem : ∀ field ∈ first ++ [token], field ≠ [] ∧ '\x00' ∉ field := by
      intro field member
      rw [← tokens_eq] at member
      obtain ⟨nonempty, part⟩ := mem_tokens member
      exact ⟨nonempty, fun zero => (mem_cString (part _ zero)).2 rfl⟩
    have last_unbroken : '\n' ∉ last := fun member =>
      unbroken (mem_splitOnP (fields_eq ▸ List.mem_append_right _ List.mem_cons_self) member)
    obtain ⟨token_ne, token_string⟩ := token_mem token (by simp)
    have last_iff : profile.cdrFileGetfieldDelimiterFix (cdrFileGetfieldCrFix token) =
        profile.undelimit last ↔ profile.Readable last :=
      fixes_eq_iff_readable last_unbroken parts ended' stop token_ne token_string
    have first_iff : first.map profile.cdrFileGetfieldDelimiterFix = first.map profile.undelimit ↔
        ∀ field ∈ first, profile.Readable field := by
      rw [List.map_inj_left]
      refine forall₂_congr fun field member => ?_
      obtain ⟨nonempty, string⟩ := token_mem field (List.mem_append_left _ member)
      rw [profile.cdrFileGetfieldDelimiterFix_eq_iff]
      exact ⟨fun enclosed => ⟨nonempty, string, enclosed⟩, fun readable => readable.enclosed⟩
    simp only [List.modifyLast_concat, Option.some.injEq, List.map_append, List.map_singleton,
      List.forall_mem_append, List.forall_mem_singleton]
    rw [← first_iff, ← last_iff]
    constructor
    · intro same
      obtain ⟨same_first, same_last⟩ := List.append_inj' same rfl
      exact ⟨same_first, by simpa using same_last⟩
    · rintro ⟨same_first, same_last⟩
      rw [same_first, same_last]
  · rw [if_neg short]
    simp [short]

end Buffer

/-! ## The rows of a file -/

namespace CdrFileProfile

variable (profile : CdrFileProfile)

/-- The texts that the parser takes from a buffer. -/
def bufferRows (readbuf : List Char) : List (Option (List (List Char))) :=
  if profile.Passes readbuf then [profile.cdrFileGetfield readbuf] else []

/-- The texts that the parser takes from a line. -/
def lineRows (line : List Char) : List (Option (List (List Char))) :=
  (fgetsAll line).flatMap profile.bufferRows

/-- The texts of a line in the grammar. -/
def grammarRows (line : List Char) : List (Option (List (List Char))) :=
  if profile.InGrammar line then [some ((profile.fields line).map profile.undelimit)] else []

end CdrFileProfile

section Rows

variable {profile : CdrFileProfile}

/-- The parser reads a file line by line. -/
theorem CdrFileProfile.cdrFileParser_eq {Column : Type} (hdr : List (CdrFileHeader Column))
    (content : List Char) :
    profile.cdrFileParser hdr content =
      ((physicalLines content).flatMap profile.lineRows).map (Option.map (profile.fill hdr)) := by
  have by_lines : fgetsAll content = (physicalLines content).flatMap fgetsAll := by
    refine (cutAfter_flatMap (fun _ _ c stop => ?_) content).symm
    rw [fills, stop, Bool.true_or]
  rw [CdrFileProfile.cdrFileParser, by_lines, List.flatMap_assoc, List.map_flatMap]
  refine List.flatMap_congr fun line _ => ?_
  rw [CdrFileProfile.lineRows, List.map_flatMap]
  refine List.flatMap_congr fun readbuf _ => ?_
  rw [CdrFileProfile.bufferRows]
  split <;> rfl

theorem CdrFileProfile.lineCdrs_eq {Column : Type} (hdr : List (CdrFileHeader Column))
    (lines : List (List Char)) :
    (lines.flatMap (profile.lineCdrs hdr)).map some =
      (lines.flatMap profile.grammarRows).map (Option.map (profile.fill hdr)) := by
  rw [List.map_flatMap, List.map_flatMap]
  refine List.flatMap_congr fun line _ => ?_
  rw [CdrFileProfile.lineCdrs, CdrFileProfile.grammarRows]
  split <;> rfl

/-- The parser takes only nonempty C strings from a buffer. -/
theorem cdrFileGetfield_texts {readbuf : List Char} {arr : List (List Char)}
    (read : profile.cdrFileGetfield readbuf = some arr) :
    arr.length = profile.cdrFileFieldAnalize readbuf ∧ ∀ txt ∈ arr, txt ≠ [] ∧ '\x00' ∉ txt := by
  rw [CdrFileProfile.cdrFileGetfield] at read
  rw [CdrFileProfile.cdrFileFieldAnalize]
  simp only [strtokAll_cString] at read ⊢
  split at read
  · obtain rfl := (Option.some.inj read).symm
    have token_part : ∀ token ∈ tokens profile.separates (cString readbuf),
        token ≠ [] ∧ '\x00' ∉ token := by
      intro token member
      obtain ⟨nonempty, part⟩ := mem_tokens member
      exact ⟨nonempty, fun zero => (mem_cString (part _ zero)).2 rfl⟩
    have fixed : ∀ row : List Char, row ≠ [] ∧ '\x00' ∉ row →
        profile.cdrFileGetfieldDelimiterFix row ≠ [] ∧
          '\x00' ∉ profile.cdrFileGetfieldDelimiterFix row := by
      rintro row ⟨nonempty, string⟩
      obtain ⟨kept, part⟩ := profile.cdrFileGetfieldDelimiterFix_part nonempty
      exact ⟨kept, fun zero => string (part _ zero)⟩
    rcases List.eq_nil_or_concat' (tokens profile.separates (cString readbuf)) with
      none | ⟨first, last, all⟩
    · rw [none]
      simp [List.modifyLast, List.modifyLast.go]
    · rw [all] at token_part ⊢
      rw [List.modifyLast_concat]
      refine ⟨by simp, List.forall_mem_map.mpr fun row member => fixed row ?_⟩
      rcases List.mem_append.mp member with before | new
      · exact token_part row (List.mem_append_left _ before)
      · obtain ⟨nonempty, string⟩ := token_part last (by simp)
        obtain ⟨kept, part⟩ := cdrFileGetfieldCrFix_part nonempty
        rw [List.mem_singleton.mp new]
        exact ⟨kept, fun zero => string (part _ zero)⟩
  · cases read

/-- A column gets the text at its position. -/
theorem CdrFileProfile.mem_fill {Column : Type} {hdr : List (CdrFileHeader Column)}
    {arr : List (List Char)} {func : Column} {txt : List Char} :
    (func, txt) ∈ profile.fill hdr arr ↔
      ∃ column ∈ hdr, column.func = some func ∧ column.hdrId < profile.fileFieldNum ∧
        txt = arr.getD column.hdrId [] := by
  simp only [CdrFileProfile.fill, List.mem_flatMap, List.mem_range, List.mem_filterMap]
  constructor
  · rintro ⟨i, i_lt, column, member, placed⟩
    split at placed
    · rename_i own
      obtain ⟨found, func_eq, pair⟩ := Option.map_eq_some_iff.mp placed
      obtain ⟨rfl, rfl⟩ := Prod.mk.inj pair
      exact ⟨column, member, func_eq, own ▸ i_lt, by rw [own]⟩
    · cases placed
  · rintro ⟨column, member, func_eq, placed, rfl⟩
    exact ⟨column.hdrId, placed, column, member, by rw [if_pos rfl, func_eq, Option.map_some]⟩

/-- Each position as a column of its own. -/
def CdrFileProfile.positions (profile : CdrFileProfile) : List (CdrFileHeader ℕ) :=
  (List.range profile.fileFieldNum).map fun i => { hdrId := i, func := some i }

/-- The columns of the positions tell the texts apart. -/
theorem CdrFileProfile.fill_positions_inj {arr arr' : List (List Char)}
    (complete : arr.length = profile.fileFieldNum) (complete' : arr'.length = profile.fileFieldNum)
    (same : profile.fill profile.positions arr = profile.fill profile.positions arr') :
    arr = arr' := by
  refine List.ext_getElem (complete.trans complete'.symm) fun i i_lt i_lt' => ?_
  have own : (i, arr.getD i []) ∈ profile.fill profile.positions arr :=
    CdrFileProfile.mem_fill.mpr ⟨⟨i, some i⟩, List.mem_map.mpr
      ⟨i, List.mem_range.mpr (complete ▸ i_lt), rfl⟩, rfl, complete ▸ i_lt, rfl⟩
  rw [same] at own
  obtain ⟨column, member, func_eq, -, txt_eq⟩ := CdrFileProfile.mem_fill.mp own
  obtain ⟨j, -, rfl⟩ := List.mem_map.mp member
  obtain rfl : j = i := Option.some.inj func_eq
  simpa [List.getD_eq_getElem?_getD, i_lt, i_lt'] using txt_eq

/-- The parser fills the columns as the grammar does, under every mapping, exactly when the
texts are the same. -/
theorem CdrFileProfile.acceptsGrammar_iff_rows (content : List Char) :
    profile.AcceptsGrammar content ↔
      (physicalLines content).flatMap profile.lineRows =
        (physicalLines content).flatMap profile.grammarRows := by
  rw [CdrFileProfile.AcceptsGrammar]
  simp only [CdrFileProfile.cdrFileParser_eq, CdrFileProfile.lineCdrs_eq]
  refine ⟨fun same => eq_of_map_eq_map ?_ (same ℕ profile.positions), fun same _ _ => by rw [same]⟩
  intro row row_mem row' row_mem' filled
  obtain ⟨line', -, member'⟩ := List.mem_flatMap.mp row_mem'
  obtain ⟨line, -, member⟩ := List.mem_flatMap.mp row_mem
  obtain ⟨readbuf, -, member⟩ := List.mem_flatMap.mp member
  rw [CdrFileProfile.grammarRows] at member'
  rw [CdrFileProfile.bufferRows] at member
  split at member'
  · rename_i grammar
    split at member
    · rename_i passes
      rw [List.mem_singleton.mp member'] at filled ⊢
      cases read : profile.cdrFileGetfield readbuf with
      | none =>
          rw [List.mem_singleton.mp member, read] at filled
          cases filled
      | some arr =>
          rw [List.mem_singleton.mp member, read] at filled ⊢
          have arr_length := (cdrFileGetfield_texts read).1.trans passes.2.2.symm
          have row_length : ((profile.fields line').map profile.undelimit).length =
              profile.fileFieldNum := by
            rw [List.length_map]
            exact grammar.2.2
          rw [profile.fill_positions_inj arr_length row_length (Option.some.inj filled)]
    · cases member
  · cases member'

end Rows

/-! ## Lines of the grammar -/

section Lines

variable {profile : CdrFileProfile}

/-- A physical line is its text with at most one line break. -/
theorem exists_lineText_append {content line : List Char} (member : line ∈ physicalLines content) :
    ∃ tail, line = lineText line ++ tail ∧ '\n' ∉ lineText line ∧ line ≠ [] ∧
      (tail = [] ∨ tail = ['\n']) := by
  obtain ⟨text, tail, rfl, unmarked, nonempty, ended⟩ := exists_of_mem_cutAfter member
  have plain : '\n' ∉ text := fun inside => by simpa using unmarked '\n' inside
  have ended' : tail = [] ∨ tail = ['\n'] := by
    rcases ended with rfl | ⟨c, marked, rfl⟩
    · exact .inl rfl
    · exact .inr (by simpa using marked)
  have text_eq : lineText (text ++ tail) = text := by
    rw [lineText, List.takeWhile_append_of_pos
      fun c inside => by simpa using ne_of_mem_of_not_mem inside plain]
    rcases ended' with rfl | rfl <;> simp
  exact ⟨tail, by rw [text_eq], by rwa [text_eq], nonempty, ended'⟩

/-- A line is read by a first buffer and by further ones if it is too long. -/
theorem fgetsAll_line {content line : List Char} (member : line ∈ physicalLines content) :
    fgetsAll line =
      line.take (readbufLen - 1) :: fgetsAll (line.drop (readbufLen - 1)) := by
  obtain ⟨tail, line_eq, plain, nonempty, ended⟩ := exists_lineText_append member
  rw [line_eq] at nonempty ⊢
  have unmarked : ∀ c ∈ lineText line, (c == '\n') = false := fun c inside => by
    simpa using ne_of_mem_of_not_mem inside plain
  refine @cutAfter_fills Char 1022 _ _ _ unmarked ?_ nonempty
  · rcases ended with rfl | rfl
    · exact .inl rfl
    · exact .inr ⟨'\n', rfl, rfl⟩

/-- The first buffer of a line in the grammar holds its text and at most the line break. -/
theorem exists_first_buffer {content line : List Char} (member : line ∈ physicalLines content)
    (grammar : profile.InGrammar line) :
    ∃ tail, line.take (readbufLen - 1) = lineText line ++ tail ∧ '\n' ∉ lineText line ∧
      (tail = [] ∨ tail = ['\n']) ∧
        (line.take (readbufLen - 1)).head? ≠ some profile.hdrComm := by
  obtain ⟨tail, line_eq, plain, -, ended⟩ := exists_lineText_append member
  have fits : (lineText line).length ≤ readbufLen - 1 := Nat.le_sub_one_of_lt grammar.2.1
  refine ⟨tail.take (readbufLen - 1 - (lineText line).length), ?_, plain, ?_, ?_⟩
  · conv_lhs => rw [line_eq]
    rw [List.take_append, List.take_of_length_le fits]
  · rcases ended with rfl | rfl
    · exact .inl List.take_nil
    · cases readbufLen - 1 - (lineText line).length with
      | zero => exact .inl rfl
      | succ room => exact .inr (by simp)
  · have header := grammar.1
    cases line with
    | nil => simp
    | cons c rest => simpa [readbufLen] using header

/-- A line of the grammar passes when its fields are nonempty C strings. -/
theorem passes_of_fields {content line : List Char} (member : line ∈ physicalLines content)
    (grammar : profile.InGrammar line)
    (filled : ∀ field ∈ profile.fields line, field ≠ [] ∧ '\x00' ∉ field) :
    profile.Passes (line.take (readbufLen - 1)) ∧
      cString (line.take (readbufLen - 1)) = line.take (readbufLen - 1) := by
  obtain ⟨tail, buf_eq, plain, ended, header⟩ := exists_first_buffer member grammar
  have string : '\x00' ∉ lineText line := by
    intro inside
    have no_separator : profile.separates '\x00' = false := by
      simpa [CdrFileProfile.separates] using profile.colSep_ne.symm
    obtain ⟨field, field_mem, zero⟩ := exists_mem_splitOnP inside no_separator
    exact (filled field field_mem).2 zero
  have buf_string : cString (line.take (readbufLen - 1)) = line.take (readbufLen - 1) := by
    refine cString_eq_self fun zero => ?_
    rw [buf_eq] at zero
    rcases List.mem_append.mp zero with inside | break_mem
    · exact string inside
    · rcases ended with rfl | rfl <;> simp at break_mem
  have kept : ∀ more : List Char, (∀ c ∈ more, profile.separates c = false) →
      (tokens profile.separates (lineText line ++ more)).length = profile.fileFieldNum := by
    intro more more_plain
    obtain ⟨first, last, fields_eq, whole_eq⟩ := splitOnP_append (lineText line) more_plain
    have count := grammar.2.2
    rw [CdrFileProfile.fields, fields_eq] at filled count
    rw [tokens, whole_eq, List.filter_eq_self.mpr, ← count]
    · simp
    · intro field field_mem
      rcases List.mem_append.mp field_mem with before | new
      · simpa using (filled field (List.mem_append_left _ before)).1
      · obtain rfl := List.mem_singleton.mp new
        have last_ne := (filled last (by simp)).1
        simp [last_ne]
  have count : profile.cdrFileFieldAnalize (line.take (readbufLen - 1)) = profile.fileFieldNum := by
    rw [CdrFileProfile.cdrFileFieldAnalize, strtokAll_cString, buf_string, buf_eq]
    rcases ended with rfl | rfl
    · exact kept [] (by simp)
    · by_cases separates : profile.separates '\n' = true
      · rw [tokens_append_cons _ _ separates, tokens_nil]
        simpa using kept [] (by simp)
      · exact kept ['\n'] (by simpa using separates)
  refine ⟨⟨header, ?_, count.symm⟩, buf_string⟩
  rw [count, ← grammar.2.2, CdrFileProfile.fields]
  exact List.length_pos_of_ne_nil (List.splitOnP_ne_nil _ _)

/-- When the first buffer of a line of the grammar passes, the parser takes the texts of the line
from it exactly when the line is read. -/
theorem lineRows_eq_iff_readsLine {content line : List Char} (member : line ∈ physicalLines content)
    (passes : profile.InGrammar line → profile.Passes (line.take (readbufLen - 1))) :
    profile.lineRows line = profile.grammarRows line ↔ profile.ReadsLine line := by
  have no_further : (fgetsAll (line.drop (readbufLen - 1))).flatMap profile.bufferRows = [] ↔
      ∀ readbuf ∈ fgetsAll (line.drop (readbufLen - 1)), ¬ profile.Passes readbuf := by
    rw [List.flatMap_eq_nil_iff]
    refine forall₂_congr fun readbuf _ => ?_
    simp [CdrFileProfile.bufferRows]
  rw [CdrFileProfile.lineRows, fgetsAll_line member, List.flatMap_cons, CdrFileProfile.bufferRows,
    CdrFileProfile.grammarRows]
  by_cases grammar : profile.InGrammar line
  · have passed := passes grammar
    obtain ⟨tail, buf_eq, plain, ended, -⟩ := exists_first_buffer member grammar
    have count := passed.2.2.symm.trans grammar.2.2.symm
    rw [if_pos passed, if_pos grammar, List.singleton_append, List.cons.injEq, no_further, buf_eq,
      CdrFileProfile.fields,
      cdrFileGetfield_eq_iff plain ended (by rw [← buf_eq]; exact count)]
    constructor
    · rintro ⟨⟨readable, short⟩, further⟩
      have filled : ∀ field ∈ profile.fields line, field ≠ [] ∧ '\x00' ∉ field :=
        fun field field_mem => ⟨(readable field field_mem).nonempty,
          (readable field field_mem).cString⟩
      rw [← buf_eq, (passes_of_fields member grammar filled).2] at short
      exact ⟨fun _ => grammar, further, fun _ => readable, fun _ => short⟩
    · intro reads
      have readable := reads.readable grammar
      have filled : ∀ field ∈ profile.fields line, field ≠ [] ∧ '\x00' ∉ field :=
        fun field field_mem => ⟨(readable field field_mem).nonempty,
          (readable field field_mem).cString⟩
      refine ⟨⟨readable, ?_⟩, reads.further⟩
      rw [← buf_eq, (passes_of_fields member grammar filled).2]
      exact reads.short grammar
  · rw [if_neg grammar]
    by_cases passed : profile.Passes (line.take (readbufLen - 1))
    · rw [if_pos passed, List.singleton_append]
      exact iff_of_false (List.cons_ne_nil _ _) fun reads => grammar (reads.passes passed)
    · rw [if_neg passed, List.nil_append, no_further]
      exact ⟨fun further => ⟨fun passes => absurd passes passed, further,
        fun inside => absurd inside grammar, fun inside => absurd inside grammar⟩,
        fun reads => reads.further⟩

/-- The parser accepts exactly the grammar when it reads every line of the file. -/
theorem acceptsGrammar_iff_readsLine (profile : CdrFileProfile) (content : List Char) :
    profile.AcceptsGrammar content ↔ ∀ line ∈ physicalLines content, profile.ReadsLine line := by
  rw [profile.acceptsGrammar_iff_rows]
  constructor
  · intro same
    -- a row of the grammar is a row of the parser, whose texts are nonempty C strings
    have passes : ∀ line ∈ physicalLines content, profile.InGrammar line →
        profile.Passes (line.take (readbufLen - 1)) := by
      intro line member grammar
      have row_mem : some ((profile.fields line).map profile.undelimit) ∈
          (physicalLines content).flatMap profile.grammarRows := by
        refine List.mem_flatMap.mpr ⟨line, member, ?_⟩
        rw [CdrFileProfile.grammarRows, if_pos grammar]
        exact List.mem_singleton_self _
      rw [← same] at row_mem
      obtain ⟨other, -, row_mem⟩ := List.mem_flatMap.mp row_mem
      obtain ⟨readbuf, -, row_mem⟩ := List.mem_flatMap.mp row_mem
      rw [CdrFileProfile.bufferRows] at row_mem
      split at row_mem
      · have texts := (cdrFileGetfield_texts (List.mem_singleton.mp row_mem).symm).2
        refine (passes_of_fields member grammar fun field field_mem => ?_).1
        obtain ⟨nonempty, string⟩ := texts _ (List.mem_map_of_mem field_mem)
        refine ⟨?_, fun zero => string (profile.mem_undelimit zero)⟩
        rintro rfl
        exact nonempty profile.undelimit_nil
      · cases row_mem
    have longer : ∀ line ∈ physicalLines content,
        (profile.grammarRows line).length ≤ (profile.lineRows line).length := by
      intro line member
      rw [CdrFileProfile.grammarRows]
      split
      · rename_i grammar
        rw [CdrFileProfile.lineRows, fgetsAll_line member, List.flatMap_cons,
          CdrFileProfile.bufferRows, if_pos (passes line member grammar)]
        simp
      · exact Nat.zero_le _
    intro line member
    exact (lineRows_eq_iff_readsLine member (passes line member)).mp
      ((flatMap_eq_flatMap_iff longer).mp same line member)
  · intro reads
    refine List.flatMap_congr fun line member => ?_
    refine (lineRows_eq_iff_readsLine member fun grammar => ?_).mpr (reads line member)
    refine (passes_of_fields member grammar fun field field_mem => ?_).1
    have readable := (reads line member).readable grammar field field_mem
    exact ⟨readable.nonempty, readable.cString⟩

/-- A profile of two columns with commas between them. -/
def twoColumns : CdrFileProfile where
  colSep := ','
  hdrComm := '#'
  colDelimiter := some '|'
  fileFieldNum := 2
  colSep_ne := by decide
  colDelimiter_ne := by simp

/-- A line with three fields, of which the second one is empty, passes for a line with two. -/
theorem emptyField_merges : ¬ ∀ profile content, CdrFileProfile.AcceptsGrammar profile content := by
  intro claim
  have built := claim twoColumns ['1', ',', ',', '2', '\n'] ℕ twoColumns.positions
  revert built
  decide +kernel

end Lines

end RateEngine
