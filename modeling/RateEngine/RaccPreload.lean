import RateEngine.Lib.KeepFirst
import RateEngine.RaccCache
import RateEngine.SqlEscape

/-!
# The numbers of a preload

`rt_cache_preload_raccs` builds the list of an `IN` from the calling numbers of a batch.  It escapes
a number, puts it between quotes and looks for that text in the list built so far.  The buffers are
sized for numbers as they stand in a CDR.  This file says for which numbers the list asks for every
missing number once.
-/

namespace RateEngine

open Buffer SqlLiteral

/-! ## The loop on its buffers -/

/-- A number that fits the field of a CDR. -/
abbrev CallingNumber := {number : CText // number.1.length < 80}

/-- `in_clause`, `safe` and `c` of `rt_cache_preload_raccs`. -/
structure PreloadBuffers where
  inClause : List Char
  safe : List Char
  c : ℕ

/-- The key of a calling number in the subscriber cache. -/
def clgKey (number : List Char) : List Char := '1' :: ':' :: number

/-- One round of the loop; `cached` looks a key up.  Nothing when a write runs over a buffer. -/
def preloadRoundBuf (cached : List Char → Bool) (bufs : PreloadBuffers) :
    Option CallingNumber → Option PreloadBuffers
  | none => some bufs
  | some number =>
      if number.1.1 = [] then some bufs
      else
        (strcpy '\x00' (List.replicate 128 '\x00') (clgKey number.1.1)).bind fun key =>
          if cached (text '\x00' key) then some bufs
          else
            (dbSqlEscapeBuf (some number.1) (some bufs.safe) 160).bind fun result =>
              let safe := result.2.getD bufs.safe
              (strcpy '\x00' (List.replicate 84 '\x00')
                  ('\'' :: (text '\x00' safe ++ ['\'']))).bind fun needle =>
                if text '\x00' needle <:+: text '\x00' bufs.inClause then some { bufs with safe }
                else
                  (if 0 < bufs.c then strcat '\x00' bufs.inClause [',']
                    else some bufs.inClause).bind fun inClause =>
                    (strcat '\x00' inClause (text '\x00' needle)).map fun inClause =>
                      { inClause, safe, c := bufs.c + 1 }

/-- The text of `in_clause` after the loop. -/
def preloadInClause (cached : List Char → Bool) (numbers : List (Option CallingNumber)) :
    Option (List Char) :=
  (numbers.foldlM (preloadRoundBuf cached)
    { inClause := List.replicate (numbers.length * 84) '\x00'
      safe := List.replicate 160 '\x00'
      c := 0 }).map fun bufs => text '\x00' bufs.inClause

/-! ## What the list has to be -/

/-- The number as the statement has it. -/
def quotedNumber (number : List Char) : List Char := quoted '\'' '\\' number

/-- The list of an `IN`. -/
def inList : List (List Char) → List Char
  | [] => []
  | [number] => quotedNumber number
  | number :: next :: rest => quotedNumber number ++ ',' :: inList (next :: rest)

/-- The text of a number stands in the list of some numbers. -/
def StandsIn (asked : List (List Char)) (number : List Char) : Prop :=
  quotedNumber number <:+: inList asked

instance (asked : List (List Char)) : DecidablePred (StandsIn asked) := fun _ =>
  inferInstanceAs (Decidable (_ <:+: _))

/-- The nonempty numbers without a cached account, in the order of the batch. -/
def missingNumbers (cached : List Char → Bool) (numbers : List (Option CallingNumber)) :
    List (List Char) :=
  (numbers.filterMap (Option.map fun number => number.1.1)).filter fun number =>
    number ≠ [] && !cached (clgKey number)

/-- The list asks for each missing number once and for nothing else, and no buffer is written beyond
its size. -/
def AsksMissing (cached : List Char → Bool) (numbers : List (Option CallingNumber)) : Prop :=
  ∃ asked : List (List Char), asked.Nodup ∧
    (∀ number, number ∈ asked ↔ number ∈ missingNumbers cached numbers) ∧
      preloadInClause cached numbers = some (inList asked)

/-- The numbers fit the buffers, and no number stands between quotes inside the list of those that
come before it. -/
structure PreloadFits (missing : List (List Char)) : Prop where
  short : ∀ number ∈ missing, (escaped number).length < 82
  apart : ∀ before number after, missing = before ++ number :: after → number ∉ before →
    ¬ StandsIn (KeepFirst.merge id [] before) number

/-! ## Lists of numbers -/

section InList

theorem quotedNumber_ne (number : List Char) : quotedNumber number ≠ [] := List.cons_ne_nil _ _

theorem length_quotedNumber (number : List Char) :
    (quotedNumber number).length = (escaped number).length + 2 := length_quoted number

/-- A number is appended after a comma, the first one without. -/
theorem inList_concat (asked : List (List Char)) (number : List Char) :
    inList (asked ++ [number]) =
      if asked = [] then quotedNumber number else inList asked ++ ',' :: quotedNumber number := by
  induction asked with
  | nil => rfl
  | cons first rest induction =>
      rw [if_neg (List.cons_ne_nil first rest)]
      cases rest with
      | nil => rfl
      | cons next rest =>
          rw [if_neg (List.cons_ne_nil next rest)] at induction
          change quotedNumber first ++ ',' :: inList (next :: rest ++ [number]) = _
          rw [induction]
          simp [inList]

theorem quotedNumber_infix {asked : List (List Char)} {number : List Char}
    (member : number ∈ asked) :
    quotedNumber number <:+: inList asked := by
  induction asked using List.reverseRecOn with
  | nil => cases member
  | append_singleton asked last induction =>
      rw [inList_concat]
      rw [List.mem_append, List.mem_singleton] at member
      split
      · rename_i first
        rw [first, List.mem_nil_iff, false_or] at member
        rw [member]
      · rcases member with earlier | rfl
        · exact (induction earlier).trans (List.prefix_append _ _).isInfix
        · exact ((List.suffix_cons _ _).trans (List.suffix_append _ _)).isInfix

/-- Looking for the quoted text recognises the numbers of the list. -/
theorem recognises_quoted : KeepFirst.Recognises StandsIn where
  mem _ _ member := quotedNumber_infix member
  grows asked number last seen := by
    rw [StandsIn] at seen ⊢
    rw [inList_concat]
    split
    · rename_i first
      rw [first] at seen
      exact absurd (List.eq_nil_of_infix_nil seen) (quotedNumber_ne number)
    · exact seen.trans (List.prefix_append _ _).isInfix

/-- Different lists of numbers have different texts: reading the literals gives the numbers back. -/
theorem inList_injective : Function.Injective inList := by
  have read (number rest : List Char) (apart : '\'' ∉ rest.head?) :
      backslashLiteral (fun c => [c]) (quotedNumber number ++ rest) = some (number, rest) :=
    literal_escape_quoted _ apart
  have whole (number : List Char) : backslashLiteral (fun c => [c]) (quotedNumber number) =
      some (number, []) := by
    simpa using read number [] (by simp)
  have more (number : List Char) (rest : List Char) :
      backslashLiteral (fun c => [c]) (quotedNumber number ++ ',' :: rest) =
        some (number, ',' :: rest) := read number (',' :: rest) (by simp)
  intro asked
  induction asked with
  | nil =>
      intro asked' same
      rcases asked' with _ | ⟨number, _ | ⟨next, rest⟩⟩
      · rfl
      · exact absurd same.symm (quotedNumber_ne number)
      · simp [inList, quotedNumber, quoted] at same
  | cons number rest induction =>
      intro asked' same
      have texts := congrArg (backslashLiteral fun c => [c]) same
      cases rest with
      | nil =>
          rcases asked' with _ | ⟨number', _ | ⟨next', rest'⟩⟩
          · exact absurd same (quotedNumber_ne number)
          · simp only [inList, whole, Option.some.injEq, Prod.mk.injEq, and_true] at texts
            rw [texts]
          · simp only [inList, whole, more, Option.some.injEq, Prod.mk.injEq] at texts
            exact absurd texts.2 (List.cons_ne_nil _ _).symm
      | cons next rest =>
          rcases asked' with _ | ⟨number', _ | ⟨next', rest'⟩⟩
          · simp [inList, quotedNumber, quoted] at same
          · simp only [inList, whole, more, Option.some.injEq, Prod.mk.injEq] at texts
            exact absurd texts.2 (List.cons_ne_nil _ _)
          · simp only [inList, more, Option.some.injEq, Prod.mk.injEq, List.cons.injEq,
              true_and] at texts
            rw [texts.1, induction texts.2]

/-- The list of short numbers fits a buffer of 84 characters for each of them. -/
theorem length_inList_lt {asked : List (List Char)}
    (short : ∀ number ∈ asked, (escaped number).length < 82) :
    (inList asked).length + 1 ≤ max 1 (asked.length * 84) := by
  induction asked using List.reverseRecOn with
  | nil => simp [inList]
  | append_singleton asked last induction =>
      have earlier := induction fun number member => short number (by simp [member])
      have last_short := short last (by simp)
      rw [inList_concat, List.length_append, List.length_singleton]
      split
      · rw [length_quotedNumber]
        omega
      · rename_i more
        have positive := List.length_pos_iff.mpr more
        rw [List.length_append, List.length_cons, length_quotedNumber]
        omega

end InList

/-! ## The loop builds the list -/

section Loop

variable {cached : List Char → Bool} {size : ℕ}

/-- The buffers while the list asks for some numbers. -/
structure PreloadBuffers.Lists (size : ℕ) (bufs : PreloadBuffers) (asked : List (List Char)) :
    Prop where
  inClause : Holds '\x00' size (inList asked) bufs.inClause
  safe : bufs.safe.length = 160
  c : bufs.c = asked.length

/-- A number is appended to the list, after a comma unless it is the first. -/
theorem append_number {asked : List (List Char)} {inClause number : List Char}
    (holds : Holds '\x00' size (inList asked) inClause) (plain : '\x00' ∉ quotedNumber number)
    (room : (inList asked).length + (quotedNumber number).length + 1 < size ∨
      asked = [] ∧ (quotedNumber number).length < size) :
    ∃ after, ((if 0 < asked.length then strcat '\x00' inClause [','] else some inClause).bind
        fun inClause => strcat '\x00' inClause (quotedNumber number)) = some after ∧
      Holds '\x00' size (inList (asked ++ [number])) after := by
  rw [inList_concat]
  by_cases first : asked = []
  · subst first
    have fits : (quotedNumber number).length < size := by
      rcases room with more | ⟨-, alone⟩ <;> omega
    obtain ⟨after, joined, after_holds⟩ := holds.strcat_of_lt plain ((Nat.zero_add _).trans_lt fits)
    exact ⟨after, joined, after_holds⟩
  · have fits := room.resolve_right fun alone => first alone.1
    obtain ⟨comma, parted, comma_holds⟩ := holds.strcat_of_lt (show '\x00' ∉ [','] by decide) (by
      rw [List.length_singleton]
      omega)
    obtain ⟨after, joined, after_holds⟩ := comma_holds.strcat_of_lt plain (by
      rw [List.length_append, List.length_singleton]
      omega)
    refine ⟨after, ?_, ?_⟩
    · rw [if_pos (List.length_pos_iff.mpr first), parted, Option.bind_some, joined]
    · rw [if_neg first]
      rwa [List.append_assoc, List.singleton_append] at after_holds

/-- The key of a number fits its buffer. -/
theorem strcpy_clgKey (number : CallingNumber) :
    ∃ key, strcpy '\x00' (List.replicate 128 '\x00') (clgKey number.1.1) = some key ∧
      Holds '\x00' 128 (clgKey number.1.1) key := by
  have number_lt := number.2
  have plain : '\x00' ∉ clgKey number.1.1 := by
    simpa [clgKey] using number.1.2
  refine strcpy_of_lt _ plain List.length_replicate ?_
  simp only [clgKey, List.length_cons]
  omega

/-- A missing number is offered to the list, when its quoted text fits `needle`. -/
theorem preloadRoundBuf_of_missing {bufs : PreloadBuffers} {asked : List (List Char)}
    (lists : bufs.Lists size asked) (room : (asked.length + 1) * 84 ≤ size)
    (asked_short : ∀ number ∈ asked, (escaped number).length < 82) {number : CallingNumber}
    (nonempty : number.1.1 ≠ []) (missing : cached (clgKey number.1.1) = false) :
    if (escaped number.1.1).length < 82 then
      ∃ bufs', preloadRoundBuf cached bufs (some number) = some bufs' ∧
        bufs'.Lists size (if StandsIn asked number.1.1 then asked else asked ++ [number.1.1])
    else preloadRoundBuf cached bufs (some number) = none := by
  have number_lt := number.2
  obtain ⟨key, key_copied, key_holds⟩ := strcpy_clgKey number
  obtain ⟨safe, escapes, safe_holds⟩ :=
    dbSqlEscapeBuf_holds number.1 bufs.safe (by rw [lists.safe]; omega)
  rw [lists.safe] at escapes safe_holds
  have needle_plain : '\x00' ∉ quotedNumber number.1.1 := by
    have escaped_plain := safe_holds.plain
    simpa [quotedNumber, quoted, escaped] using escaped_plain
  have needle_length := length_quotedNumber number.1.1
  have list_length := length_inList_lt asked_short
  simp only [preloadRoundBuf, if_neg nonempty, key_copied, Option.bind_some, key_holds.text_eq,
    missing, Bool.false_eq_true, if_false]
  rw [show (160 : ℤ) = ((160 : ℕ) : ℤ) from rfl, escapes, Option.bind_some, Option.getD_some,
    safe_holds.text_eq, lists.inClause.text_eq, lists.c]
  change if _ then ∃ bufs', (strcpy '\x00' _ (quotedNumber number.1.1)).bind _ = some bufs' ∧ _
    else (strcpy '\x00' _ (quotedNumber number.1.1)).bind _ = none
  by_cases short : (escaped number.1.1).length < 82
  · obtain ⟨needle, quotes, needle_holds⟩ := strcpy_of_lt (List.replicate 84 '\x00') needle_plain
      List.length_replicate (by omega)
    rw [if_pos short, quotes, Option.bind_some, needle_holds.text_eq]
    by_cases seen : StandsIn asked number.1.1
    · rw [if_pos seen, if_pos (show quotedNumber number.1.1 <:+: inList asked from seen)]
      exact ⟨_, rfl, lists.inClause, safe_holds.length, rfl⟩
    · obtain ⟨after, appended, after_holds⟩ := append_number lists.inClause needle_plain (by
        by_cases first : asked = []
        · exact .inr ⟨first, by omega⟩
        · have positive := List.length_pos_iff.mpr first
          exact .inl (by omega))
      rw [if_neg seen, if_neg (show ¬ quotedNumber number.1.1 <:+: inList asked from seen)]
      refine ⟨⟨after, safe, asked.length + 1⟩, ?_, after_holds, safe_holds.length, by simp⟩
      obtain ⟨parted, part, joined⟩ := Option.bind_eq_some_iff.mp appended
      rw [part, Option.bind_some, joined, Option.map_some]
  · rw [if_neg short, strcpy_eq_none (by simp; omega), Option.bind_none]

/-- A number that is empty or cached changes nothing. -/
theorem preloadRoundBuf_of_skipped {bufs : PreloadBuffers} {number : CallingNumber}
    (skipped : number.1.1 = [] ∨ cached (clgKey number.1.1) = true) :
    preloadRoundBuf cached bufs (some number) = some bufs := by
  by_cases empty : number.1.1 = []
  · simp only [preloadRoundBuf, if_pos empty]
  · obtain ⟨key, key_copied, key_holds⟩ := strcpy_clgKey number
    simp only [preloadRoundBuf, if_neg empty, key_copied, Option.bind_some, key_holds.text_eq,
      skipped.resolve_left empty, if_true]

theorem missingNumbers_cons (number : CallingNumber) (numbers : List (Option CallingNumber)) :
    missingNumbers cached (some number :: numbers) =
      if number.1.1 = [] ∨ cached (clgKey number.1.1) = true then missingNumbers cached numbers
      else number.1.1 :: missingNumbers cached numbers := by
  simp only [missingNumbers, List.filterMap_cons, Option.map_some, List.filter_cons]
  by_cases empty : number.1.1 = []
  · simp [empty]
  · cases cached (clgKey number.1.1) <;> simp [empty]

/-- The loop offers the missing numbers to the list; one that does not fit `needle` runs over it. -/
theorem foldlM_preloadRoundBuf (cached : List Char → Bool) (numbers : List (Option CallingNumber))
    {bufs : PreloadBuffers} {asked : List (List Char)} (lists : bufs.Lists size asked)
    (room : (asked.length + numbers.length) * 84 ≤ size)
    (asked_short : ∀ number ∈ asked, (escaped number).length < 82) :
    if ∀ number ∈ missingNumbers cached numbers, (escaped number).length < 82 then
      ∃ bufs', numbers.foldlM (preloadRoundBuf cached) bufs = some bufs' ∧
        bufs'.Lists size (KeepFirst.offer StandsIn asked (missingNumbers cached numbers))
    else numbers.foldlM (preloadRoundBuf cached) bufs = none := by
  induction numbers generalizing bufs asked with
  | nil =>
      rw [if_pos fun _ member => absurd member (by simp [missingNumbers])]
      exact ⟨bufs, rfl, lists⟩
  | cons number numbers induction =>
      rw [List.length_cons] at room
      rw [List.foldlM_cons]
      match number with
      | none =>
          have same : missingNumbers cached (none :: numbers) = missingNumbers cached numbers := by
            simp [missingNumbers]
          rw [same]
          exact induction lists (by omega) asked_short
      | some number =>
          rw [missingNumbers_cons]
          by_cases skipped : number.1.1 = [] ∨ cached (clgKey number.1.1) = true
          · rw [preloadRoundBuf_of_skipped skipped]
            simp only [if_pos skipped]
            exact induction lists (by omega) asked_short
          · obtain ⟨nonempty, missing⟩ := not_or.mp skipped
            have round := preloadRoundBuf_of_missing lists (by omega) asked_short nonempty
              (Bool.eq_false_iff.mpr missing)
            simp only [if_neg skipped, List.forall_mem_cons]
            by_cases short : (escaped number.1.1).length < 82
            · rw [if_pos short] at round
              obtain ⟨bufs', ran, lists'⟩ := round
              simp only [short, true_and, ran, KeepFirst.offer_cons]
              by_cases seen : StandsIn asked number.1.1
              · rw [if_pos seen] at lists' ⊢
                exact induction lists' (by omega) asked_short
              · rw [if_neg seen] at lists' ⊢
                refine induction lists'
                  (by rw [List.length_append, List.length_singleton]; omega) ?_
                intro other member
                rcases List.mem_append.mp member with old | own
                · exact asked_short other old
                · rw [List.mem_singleton.mp own]
                  exact short
            · rw [if_neg short] at round
              simp only [short, false_and, if_false, round]
              rfl

/-- What the loop leaves in `in_clause`. -/
theorem preloadInClause_eq (cached : List Char → Bool) (numbers : List (Option CallingNumber)) :
    preloadInClause cached numbers =
      if ∀ number ∈ missingNumbers cached numbers, (escaped number).length < 82 then
        some (inList (KeepFirst.offer StandsIn [] (missingNumbers cached numbers)))
      else none := by
  cases numbers with
  | nil => rfl
  | cons first numbers =>
      have start : PreloadBuffers.Lists ((first :: numbers).length * 84)
          { inClause := List.replicate ((first :: numbers).length * 84) '\x00'
            safe := List.replicate 160 '\x00'
            c := 0 } [] := by
        refine ⟨⟨List.length_replicate, List.not_mem_nil, ?_⟩, List.length_replicate, rfl⟩
        refine ⟨List.replicate ((first :: numbers).length * 84 - 1) '\x00', ?_⟩
        rw [inList, List.nil_append, ← List.replicate_succ, List.length_cons]
        congr 1
      have ran := foldlM_preloadRoundBuf cached (first :: numbers) start (by simp)
        fun _ member => absurd member List.not_mem_nil
      rw [preloadInClause]
      by_cases short : ∀ number ∈ missingNumbers cached (first :: numbers),
      (escaped number).length < 82
      · rw [if_pos short] at ran ⊢
        obtain ⟨bufs, ran, lists⟩ := ran
        rw [ran, Option.map_some, lists.inClause.text_eq]
      · rw [if_neg short] at ran ⊢
        rw [ran, Option.map_none]

end Loop

/-! ## Exactly the missing numbers -/

/-- The key has a fresh entry in the subscriber cache. -/
def freshKey (cache : RaccCache) (now : ℤ) (key : List Char) : Bool :=
  (rtCacheRaccGet cache now (String.ofList key)).isSome

/-- Without regard to the buffers a round offers a missing number to the list. -/
theorem preloadRound_ofList (cached : List Char → Bool) (asked : List (List Char))
    (number : List Char) :
    preloadRound (fun text => cached (clgKey text.toList))
        (String.ofList (inList asked), asked.map String.ofList) (String.ofList number) =
      let asked' :=
        if number = [] ∨ cached (clgKey number) = true ∨ StandsIn asked number then asked
        else asked ++ [number]
      (String.ofList (inList asked'), asked'.map String.ofList) := by
  have needle :
      ("'" ++ dbSqlEscape (String.ofList number) ++ "'").toList = quotedNumber number := by
    simp [dbSqlEscape, quotedNumber, quoted, double]
  have empty : String.ofList number = "" ↔ number = [] := by
    rw [String.ext_iff]
    simp
  have stands : (quotedNumber number <:+: inList asked) = StandsIn asked number := rfl
  simp only [preloadRound, empty, String.toList_ofList, needle, stands]
  by_cases skipped : number = [] ∨ cached (clgKey number) = true ∨ StandsIn asked number
  · rw [if_pos skipped, if_pos skipped]
  · rw [if_neg skipped, if_neg skipped, inList_concat]
    by_cases first : asked = []
    · rw [if_pos first, first, List.map_nil, if_pos rfl, ← needle, String.ofList_toList]
      rfl
    · have some_asked : asked.map String.ofList ≠ [] := by simpa using first
      rw [if_neg first, if_neg some_asked, List.map_append, ← needle]
      simp [String.ext_iff]

theorem raccKey_clg (number : String) :
    raccKey .clg number = String.ofList (clgKey number.toList) := by
  have mode : (toString RtMode.clg.id ++ ":").toList = ['1', ':'] := by decide
  rw [raccKey, String.ext_iff, String.toList_append, mode, String.toList_ofList]
  rfl

/-- The rounds offer the missing numbers in turn. -/
theorem foldl_preloadRound (cached : List Char → Bool) (numbers : List (Option CallingNumber))
    (asked : List (List Char)) :
    (numbers.reduceOption.map fun number => String.ofList number.1.1).foldl
        (preloadRound fun text => cached (clgKey text.toList))
        (String.ofList (inList asked), asked.map String.ofList) =
      let asked' := KeepFirst.offer StandsIn asked (missingNumbers cached numbers)
      (String.ofList (inList asked'), asked'.map String.ofList) := by
  induction numbers generalizing asked with
  | nil => rfl
  | cons first numbers induction =>
      match first with
      | none => exact induction asked
      | some number =>
          rw [missingNumbers_cons]
          change List.foldl _ (preloadRound _ _ (String.ofList number.1.1)) _ = _
          rw [preloadRound_ofList]
          by_cases skipped : number.1.1 = [] ∨ cached (clgKey number.1.1) = true
          · have any : number.1.1 = [] ∨ cached (clgKey number.1.1) = true ∨
                StandsIn asked number.1.1 := or_assoc.mp (.inl skipped)
            simp only [if_pos skipped, if_pos any]
            exact induction asked
          · have same : (number.1.1 = [] ∨ cached (clgKey number.1.1) = true ∨
                StandsIn asked number.1.1) ↔ StandsIn asked number.1.1 := by
              rw [← or_assoc, or_iff_right skipped]
            simp only [if_neg skipped, same, KeepFirst.offer_cons]
            exact induction _

/-- The model of the preload without buffers asks for the numbers that the loop
offers to its list. -/
theorem preloadNumbers_eq (cache : RaccCache) (now : ℤ) (numbers : List (Option CallingNumber)) :
    preloadNumbers cache now (numbers.reduceOption.map fun number => String.ofList number.1.1) =
      (KeepFirst.offer StandsIn [] (missingNumbers (freshKey cache now) numbers)).map
        String.ofList := by
  simp only [preloadNumbers, raccKey_clg]
  exact congrArg Prod.snd (foldl_preloadRound (freshKey cache now) numbers [])

/-- The list asks for exactly the missing numbers, whatever the cache holds, if and only
if the numbers fit the buffers and none of them stands between quotes inside the list of
those before it. -/
theorem asksMissing_iff (cache : RaccCache) (now : ℤ) (numbers : List (Option CallingNumber)) :
    AsksMissing (freshKey cache now) numbers ↔
      PreloadFits (missingNumbers (freshKey cache now) numbers) := by
  have members := recognises_quoted.forall_mem_offer_iff
    (missingNumbers (freshKey cache now) numbers)
  constructor
  · rintro ⟨asked, -, members_iff, list_eq⟩
    rw [preloadInClause_eq] at list_eq
    split at list_eq
    · rename_i short
      refine ⟨short, members.mp fun number member => ?_⟩
      rw [inList_injective (Option.some.inj list_eq)]
      exact (members_iff number).mpr member
    · cases list_eq
  · rintro ⟨short, apart⟩
    refine ⟨KeepFirst.offer StandsIn [] (missingNumbers (freshKey cache now) numbers),
      recognises_quoted.nodup_offer List.nodup_nil, fun number => ?_, ?_⟩
    · exact ⟨fun member => (KeepFirst.mem_of_mem_offer member).resolve_left List.not_mem_nil,
        members.mpr apart number⟩
    · rw [preloadInClause_eq, if_pos short]

/-- With an empty cache `a'b` hides `b`, which stands between quotes in its text, and forty-one
apostrophes run over `needle`. -/
theorem apostrophes_not_asksMissing :
    ¬ AsksMissing (freshKey .empty 0)
        [some ⟨⟨"a'b".toList, by decide⟩, by decide⟩, some ⟨⟨"b".toList, by decide⟩, by decide⟩] ∧
      ¬ AsksMissing (freshKey .empty 0)
        [some ⟨⟨List.replicate 41 '\'', by decide⟩, by decide⟩] := by
  constructor
  · rintro ⟨asked, -, members, list_eq⟩
    have built : preloadInClause (freshKey .empty 0)
        [some ⟨⟨"a'b".toList, by decide⟩, by decide⟩, some ⟨⟨"b".toList, by decide⟩, by decide⟩] =
          some (inList ["a'b".toList]) := by decide +kernel
    rw [built] at list_eq
    have only := inList_injective (Option.some.inj list_eq)
    have hidden := (members "b".toList).mpr (by decide)
    rw [← only] at hidden
    revert hidden
    decide
  · rintro ⟨asked, -, -, list_eq⟩
    have overrun : preloadInClause (freshKey .empty 0)
        [some ⟨⟨List.replicate 41 '\'', by decide⟩, by decide⟩] = none := by decide +kernel
    rw [overrun] at list_eq
    cases list_eq

end RateEngine
