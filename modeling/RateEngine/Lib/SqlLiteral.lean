import Mathlib.Data.List.Basic
import Mathlib.Tactic.Common

/-!
# Quoted literals

A text between quotes, with every quote and every backslash in it written twice, is one literal for
two kinds of lexers: those that read only a doubled quote in a special way, and those that take a
backslash together with what follows it as well.  The second kind reads the text back.
-/

namespace SqlLiteral

variable {α : Type*} [DecidableEq α] (quote backslash : α)

/-- The text with every quote and every backslash twice. -/
def double (source : List α) : List α :=
  source.flatMap fun c => if c = quote ∨ c = backslash then [c, c] else [c]

/-- The text between quotes. -/
def quoted (source : List α) : List α := quote :: (double quote backslash source ++ [quote])

/-! ## Lexers -/

/-- The content of a literal whose opening quote has been read, and what follows it: two
quotes stand for one. -/
def plainBody : List α → Option (List α × List α)
  | [] => none
  | c :: rest =>
      if c = quote then
        match rest with
        | [] => some ([], [])
        | next :: rest =>
            if next = quote then (plainBody rest).map fun body => (quote :: body.1, body.2)
            else some ([], next :: rest)
      else (plainBody rest).map fun body => (c :: body.1, body.2)

/-- The same when a backslash and what follows it stand for one element, or for what `other` says
when that is neither a quote nor a backslash. -/
def escapeBody (other : α → List α) : List α → Option (List α × List α)
  | [] => none
  | c :: rest =>
      if c = quote then
        match rest with
        | [] => some ([], [])
        | next :: rest =>
            if next = quote then (escapeBody other rest).map fun body => (quote :: body.1, body.2)
            else some ([], next :: rest)
      else if c = backslash then
        match rest with
        | [] => none
        | next :: rest => (escapeBody other rest).map fun body =>
            ((if next = quote ∨ next = backslash then [next] else other next) ++ body.1, body.2)
      else (escapeBody other rest).map fun body => (c :: body.1, body.2)

/-- Read a literal with a lexer for what follows the opening quote. -/
def literal (body : List α → Option (List α × List α)) : List α → Option (List α × List α)
  | [] => none
  | c :: rest => if c = quote then body rest else none

/-! ## Doubled texts -/

variable {quote backslash} {source rest : List α}

@[simp]
theorem double_nil : double quote backslash [] = [] := rfl

theorem double_cons (c : α) (source : List α) :
    double quote backslash (c :: source) =
      (if c = quote ∨ c = backslash then [c, c] else [c]) ++ double quote backslash source :=
  List.flatMap_cons

theorem double_append (front back : List α) :
    double quote backslash (front ++ back) =
      double quote backslash front ++ double quote backslash back := List.flatMap_append

theorem mem_double {c : α} : c ∈ double quote backslash source ↔ c ∈ source := by
  simp only [double, List.mem_flatMap]
  constructor
  · rintro ⟨own, own_mem, member⟩
    split at member <;> simp at member <;> exact member ▸ own_mem
  · intro member
    refine ⟨c, member, ?_⟩
    split <;> simp

theorem length_double_le : (double quote backslash source).length ≤ 2 * source.length := by
  induction source with
  | nil => exact Nat.le_refl _
  | cons c source induction =>
      rw [double_cons, List.length_append, List.length_cons]
      split <;> simp only [List.length_cons, List.length_nil] <;> omega

/-! ## Reading -/

/-- The closing quote ends the body unless another quote follows it. -/
theorem plainBody_quote (apart : quote ∉ rest.head?) :
    plainBody quote (quote :: rest) = some ([], rest) := by
  rw [plainBody.eq_def]
  cases rest with
  | nil => simp
  | cons next rest =>
      have different : next ≠ quote := fun same => apart (by simp [same])
      simp [different]

theorem escapeBody_quote {other : α → List α} (apart : quote ∉ rest.head?) :
    escapeBody quote backslash other (quote :: rest) = some ([], rest) := by
  rw [escapeBody.eq_def]
  cases rest with
  | nil => simp
  | cons next rest =>
      have different : next ≠ quote := fun same => apart (by simp [same])
      simp [different]

/-- A lexer that knows doubled quotes only reads one literal, with the backslashes twice in it. -/
theorem plainBody_double (apart : quote ∉ rest.head?) :
    plainBody quote (double quote backslash source ++ quote :: rest) =
      some (source.flatMap (fun c => if c = backslash ∧ c ≠ quote then [c, c] else [c]), rest) := by
  induction source with
  | nil => exact plainBody_quote apart
  | cons c source induction =>
      rw [double_cons, List.append_assoc, List.flatMap_cons]
      by_cases is_quote : c = quote
      · subst is_quote
        simp only [true_or, if_true, List.cons_append, List.nil_append]
        rw [plainBody]
        simp [induction]
      by_cases is_backslash : c = backslash
      · subst is_backslash
        simp only [or_true, if_true, List.cons_append, List.nil_append]
        rw [plainBody.eq_def]
        simp only [is_quote, if_false]
        rw [plainBody.eq_def]
        simp [is_quote, induction]
      · simp only [is_quote, is_backslash, or_self, if_false, List.cons_append, List.nil_append]
        rw [plainBody.eq_def]
        simp [is_quote, induction]

/-- A lexer that knows backslashes as well reads the text. -/
theorem escapeBody_double (other : α → List α) (apart : quote ∉ rest.head?) :
    escapeBody quote backslash other (double quote backslash source ++ quote :: rest) =
      some (source, rest) := by
  induction source with
  | nil => exact escapeBody_quote apart
  | cons c source induction =>
      rw [double_cons, List.append_assoc]
      by_cases is_quote : c = quote
      · subst is_quote
        simp only [true_or, if_true, List.cons_append, List.nil_append]
        rw [escapeBody]
        simp [induction]
      by_cases is_backslash : c = backslash
      · subst is_backslash
        simp only [or_true, if_true, List.cons_append, List.nil_append]
        rw [escapeBody]
        simp [is_quote, induction]
      · simp only [is_quote, is_backslash, or_self, if_false, List.cons_append, List.nil_append]
        rw [escapeBody.eq_def]
        simp [is_quote, is_backslash, induction]

theorem literal_plain_quoted (apart : quote ∉ rest.head?) :
    literal quote (plainBody quote) (quoted quote backslash source ++ rest) =
      some (source.flatMap (fun c => if c = backslash ∧ c ≠ quote then [c, c] else [c]), rest) := by
  rw [quoted, List.cons_append, literal, if_pos rfl, List.append_assoc, List.singleton_append,
    plainBody_double apart]

theorem literal_escape_quoted (other : α → List α) (apart : quote ∉ rest.head?) :
    literal quote (escapeBody quote backslash other) (quoted quote backslash source ++ rest) =
      some (source, rest) := by
  rw [quoted, List.cons_append, literal, if_pos rfl, List.append_assoc, List.singleton_append,
    escapeBody_double other apart]

theorem length_quoted (source : List α) :
    (quoted quote backslash source).length = (double quote backslash source).length + 2 := by
  simp [quoted]

end SqlLiteral
