import RateEngine.CdrStore
import RateEngine.PriceAcceptance
import Mathlib.Data.List.TakeWhile

/-!
# The microseconds of a call from import to rating

`billusec` is read from a text into an `unsigned int`, printed as an `int` into a column of 64 bits,
and fetched again: by the classic engine through a text into an `unsigned int`, by the DuckDB engine
as the column holds it.  This file states for which calls the seconds that the engines price are the
rounded microseconds that were delivered.
-/

namespace RateEngine

open BlockTariff (ceilDiv)

/-! ## Numbers as texts -/

/-- The text of an integer column. -/
def columnText (n : ℤ) : List Char :=
  if n < 0 then '-' :: Nat.toDigits 10 n.natAbs else Nat.toDigits 10 n.natAbs

/-- Digits in front of a text are its leading number. -/
theorem leadingNat_digits {digits : List Char} (all : ∀ c ∈ digits, c.isDigit) :
    leadingNat digits = Nat.ofDigitChars 10 digits 0 := by
  have taken : digits.takeWhile Char.isDigit = digits := List.takeWhile_eq_self_iff.mpr all
  rw [leadingNat, taken]
  rfl

theorem leadingNat_toDigits (n : ℕ) : leadingNat (Nat.toDigits 10 n) = n := by
  have all : ∀ c ∈ Nat.toDigits 10 n, c.isDigit := fun c member =>
    Nat.isDigit_of_mem_toDigits (by decide) (by decide) member
  rw [leadingNat_digits all, Nat.ofDigitChars_ten_toDigits]

/-- `atoi` reads digits as their number. -/
theorem atoi_digits {digits : List Char} (all : ∀ c ∈ digits, c.isDigit) :
    atoi (String.ofList digits) = leadingNat digits := by
  have unspaced : digits.dropWhile Char.isWhitespace = digits := by
    cases digits with
    | nil => rfl
    | cons c rest =>
        have digit := all c List.mem_cons_self
        refine List.dropWhile_cons_of_neg fun space => ?_
        simp only [Char.isWhitespace, Char.isDigit, Bool.or_eq_true, decide_eq_true_eq,
          Bool.and_eq_true] at space digit
        rcases space with ((rfl | rfl) | rfl) | rfl <;> exact absurd digit (by decide)
  rw [atoi, String.toList_ofList, unspaced]
  split
  · exact absurd (all _ List.mem_cons_self) (by decide)
  · exact absurd (all _ List.mem_cons_self) (by decide)
  · rfl

/-- `atoi` reads the text of a column as its number. -/
theorem atoi_columnText (n : ℤ) : atoi (String.ofList (columnText n)) = n := by
  unfold columnText
  split
  · rename_i negative
    rw [atoi, String.toList_ofList]
    have unspaced : ('-' :: Nat.toDigits 10 n.natAbs).dropWhile Char.isWhitespace =
        '-' :: Nat.toDigits 10 n.natAbs := List.dropWhile_cons_of_neg (by decide)
    rw [unspaced]
    simp only [leadingNat_toDigits]
    omega
  · have all : ∀ c ∈ Nat.toDigits 10 n.natAbs, c.isDigit := fun c member =>
      Nat.isDigit_of_mem_toDigits (by decide) (by decide) member
    rw [atoi_digits all, leadingNat_toDigits]
    omega

/-- A decimal text of a number, with zeros in front. -/
def decimalText (zeros n : ℕ) : List Char := List.replicate zeros '0' ++ Nat.toDigits 10 n

theorem atoi_decimalText (zeros n : ℕ) : atoi (String.ofList (decimalText zeros n)) = n := by
  have all : ∀ c ∈ decimalText zeros n, c.isDigit := by
    intro c member
    rcases List.mem_append.mp member with zero | digit
    · rw [List.eq_of_mem_replicate zero]
      decide
    · exact Nat.isDigit_of_mem_toDigits (by decide) (by decide) digit
  rw [atoi_digits all, leadingNat_digits all, decimalText, Nat.ofDigitChars_append,
    Nat.ofDigitChars_replicate_zero, Nat.mul_zero, Nat.ofDigitChars_ten_toDigits]

/-! ## From the column to the engines -/

/-- `cdr_get_cdrs`: every column goes through its text and its setter. -/
def CdrsRow.fetched (row : CdrsRow) : CdrT where
  text field := (row.text field).take (field.len - 1)
  num field := asUnsigned field.bits (atoi (String.ofList (columnText (row.num field))))
  num_lt field := asUnsigned_lt field.bits _

/-- The CDR of the classic engine: `rt_cdr_to_rating` stores the seconds in an `int` and the
microseconds in a `long`. -/
def CdrsRow.classicCdr (row : CdrsRow) (id : ℕ) (recType : CdrRecType) : Cdr where
  id := id
  cdrServerId := row.fetched.num .cdrServerId
  recType := recType
  callingNumber := String.ofList (row.fetched.text .callingNumber)
  calledNumber := String.ofList (row.fetched.text .calledNumber)
  billsec := asInt (row.fetched.num .billsec)
  billusec := row.fetched.num .billusec
  startTs := String.ofList (row.fetched.text .startTs)
  startEpoch := row.fetched.num .startEpoch
  accountCode := String.ofList (row.fetched.text .accountCode)
  srcContext := String.ofList (row.fetched.text .srcContext)
  dstContext := String.ofList (row.fetched.text .dstContext)
  srcTgroup := String.ofList (row.fetched.text .srcTgroup)
  dstTgroup := String.ofList (row.fetched.text .dstTgroup)
  clgNadi := row.fetched.num .clgNadi
  cldNadi := row.fetched.num .cldNadi

/-- The CDR of the DuckDB engine: the columns as they are. -/
def CdrsRow.duckdbCdr (row : CdrsRow) (id : ℕ) (recType : CdrRecType) : Cdr where
  id := id
  cdrServerId := (row.num .cdrServerId).toNat
  recType := recType
  callingNumber := String.ofList (row.text .callingNumber)
  calledNumber := String.ofList (row.text .calledNumber)
  billsec := row.num .billsec
  billusec := row.num .billusec
  startTs := String.ofList (row.text .startTs)
  startEpoch := row.num .startEpoch
  accountCode := String.ofList (row.text .accountCode)
  srcContext := String.ofList (row.text .srcContext)
  dstContext := String.ofList (row.text .dstContext)
  srcTgroup := String.ofList (row.text .srcTgroup)
  dstTgroup := String.ofList (row.text .dstTgroup)
  clgNadi := row.num .clgNadi
  cldNadi := row.num .cldNadi

/-- The seconds that `rt_exec` prices for a CDR of an account with this round mode. -/
def classicSeconds (env : Env) (rtm : RtMode) (bacc : Bacc) (cdr : Cdr) : ℤ :=
  ({ rtm, bacc, pre := rtCdrToRating env cdr } : Racc).rounded.pre.billsec

/-- The seconds that `rt_duckdb_rate_batch` prices for a CDR of an account with this round mode. -/
def duckdbSeconds (roundModeId : ℕ) (cdr : Cdr) : ℤ :=
  matchedBillsec roundModeId cdr.billusec cdr.billsec

/-- Both engines price the rounded microseconds `n` of a stored CDR, unless they round to zero. -/
def BilledExactly (env : Env) (rtm : RtMode) (bacc : Bacc) (id : ℕ) (recType : CdrRecType)
    (row : CdrsRow) (n : ℕ) : Prop :=
  (ceilDiv n 1000000 ≠ 0 →
    classicSeconds env rtm { bacc with roundModeId := 1 } (row.classicCdr id recType) =
      ceilDiv n 1000000 ∧
    duckdbSeconds 1 (row.duckdbCdr id recType) = ceilDiv n 1000000) ∧
  ((n : ℤ) / 1000000 ≠ 0 →
    classicSeconds env rtm { bacc with roundModeId := 2 } (row.classicCdr id recType) =
      n / 1000000 ∧
    duckdbSeconds 2 (row.duckdbCdr id recType) = n / 1000000)

/-! ## What each step keeps -/

/-- The column holds the number that was read, modulo 32 bits and with a sign. -/
theorem row_billusec (cdr : CdrT) (filters : Option (List PrefixFilter)) (zeros n : ℕ) :
    ((cdr.cdrAddNum .billusec (decimalText zeros n)).prepared filters).row.num .billusec =
      asInt (n % 4294967296) := by
  have kept := ((cdr.cdrAddNum .billusec (decimalText zeros n)).prepared_kept filters).1
    .billusec (by decide)
  have stored : (cdr.cdrAddNum .billusec (decimalText zeros n)).num .billusec =
      n % 4294967296 := by
    rw [CdrT.cdrAddNum, atoi_decimalText, CdrT.num_setNum_self, CdrNum.bits, asUnsigned]
    omega
  exact congrArg asInt (kept.trans stored)

/-- The column holds the seconds of the CDR whatever its microseconds are. -/
theorem row_billsec (cdr : CdrT) (filters : Option (List PrefixFilter)) (txt : List Char) :
    ((cdr.cdrAddNum .billusec txt).prepared filters).row.num .billsec = cdr.row.num .billsec := by
  have kept := ((cdr.cdrAddNum .billusec txt).prepared_kept filters).1 .billsec (by decide)
  have seconds : (cdr.cdrAddNum .billusec txt).num .billsec = cdr.num .billsec :=
    cdr.num_setNum (by decide) _
  exact congrArg asInt (kept.trans seconds)

/-- A text and an `unsigned int` in between do not change an `int`. -/
theorem asInt_asUnsigned (n : ℕ) (n_lt : n < 4294967296) :
    asInt (asUnsigned 32 (atoi (String.ofList (columnText (asInt n))))) = asInt n := by
  rw [atoi_columnText, asUnsigned]
  have same : (asInt n % 2 ^ 32).toNat = n := by
    unfold asInt
    split <;> omega
  rw [same]

/-- The classic engine reads the microseconds without the sign. -/
theorem classicCdr_billusec (row : CdrsRow) (id : ℕ) (recType : CdrRecType) :
    (row.classicCdr id recType).billusec = row.num .billusec % 4294967296 := by
  simp only [CdrsRow.classicCdr, CdrsRow.fetched, atoi_columnText, CdrNum.bits, asUnsigned]
  omega

/-- The classic engine reads the seconds as the column holds them. -/
theorem classicCdr_billsec (cdr : CdrT) (id : ℕ) (recType : CdrRecType) :
    (cdr.row.classicCdr id recType).billsec = cdr.row.num .billsec := by
  have column : cdr.row.num .billsec = asInt (cdr.num .billsec) := rfl
  simp only [CdrsRow.classicCdr, CdrsRow.fetched, CdrNum.bits, column]
  exact asInt_asUnsigned (cdr.num .billsec) (cdr.num_lt .billsec)

/-- The seconds of the classic engine, in the form of those of the DuckDB engine. -/
theorem classicSeconds_eq (env : Env) (rtm : RtMode) (bacc : Bacc) (cdr : Cdr) :
    classicSeconds env rtm bacc cdr = matchedBillsec bacc.roundModeId cdr.billusec cdr.billsec :=
  rounded_billsec

theorem matchedBillsec_ceil (billusec billsec : ℤ) : matchedBillsec 1 billusec billsec =
    if ceilDiv billusec 1000000 ≠ 0 then ceilDiv billusec 1000000 else billsec := by
  simp [matchedBillsec]

theorem matchedBillsec_floor (billusec billsec : ℤ) : matchedBillsec 2 billusec billsec =
    if billusec / 1000000 ≠ 0 then billusec / 1000000 else billsec := by
  simp [matchedBillsec]

/-- The rounded-up millionths, by integer division. -/
theorem ceilDiv_million (n : ℤ) : ceilDiv n 1000000 = (n + 999999) / 1000000 := by
  rw [BlockTariff.ceilDiv_eq_iff (by decide)]
  omega

/-- The rounding of a residue `r` of 32 bits that is read without a sign change: it is that
of the whole number only when nothing has been cut off, or when the residue is lost in favour
of the seconds. -/
theorem rounds_residue_iff {n q r b : ℤ} (whole : n = 4294967296 * q + r) (q_nonneg : 0 ≤ q)
    (r_nonneg : 0 ≤ r) (r_lt : r < 4294967296) :
    ((n + 999999) / 1000000 ≠ 0 →
        (if (r + 999999) / 1000000 ≠ 0 then (r + 999999) / 1000000 else b) =
          (n + 999999) / 1000000) ∧
      (n / 1000000 ≠ 0 →
        (if r / 1000000 ≠ 0 then r / 1000000 else b) = n / 1000000) ↔
      q = 0 ∨ (r = 0 ∧ n = 1000000 * b) := by
  by_cases kept : q = 0
  · obtain rfl : n = r := by omega
    refine iff_of_true ⟨fun up => if_pos up, fun down => if_pos down⟩ (Or.inl kept)
  -- a carry into the upper half makes both quotients of the whole number positive
  have carried : 4294967296 + r ≤ n := by omega
  have up_ne : (n + 999999) / 1000000 ≠ 0 := by omega
  have down_ne : n / 1000000 ≠ 0 := by omega
  simp only [up_ne, down_ne, kept, ne_eq, not_false_eq_true, true_implies, false_or]
  by_cases lost : r = 0
  · subst lost
    have up : ¬ ((0 + 999999 : ℤ) / 1000000 ≠ 0) := by decide
    have down : ¬ ((0 : ℤ) / 1000000 ≠ 0) := by decide
    rw [if_neg up, if_neg down]
    constructor
    · rintro ⟨billed_up, billed_down⟩
      exact ⟨rfl, by omega⟩
    · rintro ⟨-, exactly⟩
      exact ⟨by omega, by omega⟩
  · have up : (r + 999999) / 1000000 ≠ 0 := by omega
    have apart : (r + 999999) / 1000000 < (n + 999999) / 1000000 := by omega
    rw [if_pos up]
    exact iff_of_false (fun both => apart.ne both.1) fun both => lost both.1

/-- Both engines price the rounded microseconds of a call exactly when these are below 31 bits.
There is one coincidence: whole multiples of 32 bits of microseconds are lost, and the engines fall
back to the seconds of the CDR, which may be the same. -/
theorem billedExactly_iff (env : Env) (rtm : RtMode) (bacc : Bacc) (id : ℕ) (recType : CdrRecType)
    (cdr : CdrT) (filters : Option (List PrefixFilter)) (zeros n : ℕ) :
    BilledExactly env rtm bacc id recType
        ((cdr.cdrAddNum .billusec (decimalText zeros n)).prepared filters).row n ↔
      n < 2147483648 ∨ (4294967296 ∣ n ∧ (n : ℤ) = 1000000 * cdr.row.num .billsec) := by
  have column := row_billusec cdr filters zeros n
  have seconds := row_billsec cdr filters (decimalText zeros n)
  obtain ⟨q, r, whole, r_lt⟩ : ∃ q r : ℕ, n = 4294967296 * q + r ∧ r < 4294967296 :=
    ⟨n / 4294967296, n % 4294967296, by omega, by omega⟩
  have cut : n % 4294967296 = r := by omega
  have unsigned : asInt r % 4294967296 = r := by
    unfold asInt
    split <;> omega
  simp only [BilledExactly, classicSeconds_eq, duckdbSeconds, classicCdr_billusec,
    classicCdr_billsec, CdrsRow.duckdbCdr, matchedBillsec_ceil, matchedBillsec_floor,
    ceilDiv_million, column, cut, seconds, unsigned]
  by_cases low : r < 2147483648
  · have residue := rounds_residue_iff (n := n) (q := q) (r := r) (b := cdr.row.num .billsec)
      (by omega) (by omega) (by omega) (by omega)
    rw [asInt, if_pos low, and_self, and_self, residue]
    clear residue unsigned column seconds
    omega
  · have high :
        ¬ (n < 2147483648 ∨ (4294967296 ∣ n ∧ (n : ℤ) = 1000000 * cdr.row.num .billsec)) := by
      clear unsigned column seconds
      omega
    rw [asInt, if_neg low]
    refine iff_of_false (fun exactly => ?_) high
    -- the DuckDB engine reads a negative number
    have down : ((r : ℤ) - 4294967296) / 1000000 ≠ 0 := by omega
    have billed := (exactly.2 (by omega)).2
    rw [if_pos down] at billed
    omega

/-- A call of 36 minutes, rounded down, has negative seconds in the DuckDB engine. -/
theorem not_billedExactly_minutes :
    ¬ BilledExactly bareEnv .clg {} 1 .voipA
      ((CdrT.cleared.cdrAddNum .billusec (decimalText 0 2147483648)).prepared none).row
      2147483648 := by
  intro exactly
  have column := row_billusec CdrT.cleared none 0 2147483648
  have billed := (exactly.2 (by decide)).2
  rw [duckdbSeconds, matchedBillsec_floor, CdrsRow.duckdbCdr, column] at billed
  revert billed
  decide

end RateEngine
