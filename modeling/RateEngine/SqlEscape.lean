import RateEngine.Lib.Buffer
import RateEngine.Lib.SqlLiteral

/-!
# Escaped texts in statements

`db_sql_escape` copies a text into a buffer and writes every quote and every backslash twice.  The
statements of the program put such texts between quotes.  This file proves that the copy stays in
its buffer, that a database reads it as one literal whether backslashes escape there or not, and
that it fits into a buffer of twice its length.
-/

namespace RateEngine

open Buffer SqlLiteral

/-! ## `db_sql_escape` -/

/-- The loop of `db_sql_escape` from a character of the source on: what it returns and the memory
from the destination on.  There is no result when a write misses the memory. -/
def dbSqlEscapeLoop (dstSize : ℤ) : List Char → List Char → ℕ → Option (ℤ × List Char)
  | [], dst, j => (store dst j '\x00').map fun dst => (j, dst)
  | c :: src, dst, j =>
      if dstSize - 2 ≤ j then some (-2, dst)
      else if c = '\'' then
        (storeAll dst j ['\'', '\'']).bind fun dst => dbSqlEscapeLoop dstSize src dst (j + 2)
      else if c = '\\' then
        (storeAll dst j ['\\', '\\']).bind fun dst => dbSqlEscapeLoop dstSize src dst (j + 2)
      else (store dst j c).bind fun dst => dbSqlEscapeLoop dstSize src dst (j + 1)

/-- `db_sql_escape`; a null pointer is `none`. -/
def dbSqlEscapeBuf (src : Option CText) (dst : Option (List Char)) (dstSize : ℤ) :
    Option (ℤ × Option (List Char)) :=
  match src, dst with
  | some src, some dst =>
      if dstSize ≤ 0 then some (-1, some dst)
      else (dbSqlEscapeLoop dstSize src.1 dst 0).map fun result => (result.1, some result.2)
  | _, dst => some (-1, dst)

/-- A literal of a database that reads only a doubled quote in a special way. -/
def sqlLiteral : List Char → Option (List Char × List Char) := literal '\'' (plainBody '\'')

/-- A literal of a database in which backslashes escape; `other` says what they make of a character
that is neither a quote nor a backslash. -/
def backslashLiteral (other : Char → List Char) : List Char → Option (List Char × List Char) :=
  literal '\'' (escapeBody '\'' '\\' other)

/-- The escaped form of a text. -/
def escaped (src : List Char) : List Char := double '\'' '\\' src

/-- Both databases read an escaped text between quotes to its end. -/
theorem sqlLiteral_quoted (src : List Char) :
    sqlLiteral ('\'' :: (escaped src ++ ['\''])) =
      some (src.flatMap (fun c => if c = '\\' ∧ c ≠ '\'' then [c, c] else [c]), []) := by
  have read : sqlLiteral (quoted '\'' '\\' src ++ []) = some (_, []) :=
    literal_plain_quoted (by simp)
  rwa [List.append_nil] at read

theorem backslashLiteral_quoted (other : Char → List Char) (src : List Char) :
    backslashLiteral other ('\'' :: (escaped src ++ ['\''])) = some (src, []) := by
  have read : backslashLiteral other (quoted '\'' '\\' src ++ []) = some (src, []) :=
    literal_escape_quoted other (by simp)
  rwa [List.append_nil] at read

/-! ## The loop -/

/-- One round writes a character once or twice, when the guard lets it. -/
theorem dbSqlEscapeLoop_cons {size : ℕ} (c : Char) (src front inside outside : List Char)
    (length : front.length + inside.length = size) (room : front.length + 2 < size) :
    ∃ inside', front.length + (escaped [c]).length + inside'.length = size ∧
      dbSqlEscapeLoop size (c :: src) (front ++ inside ++ outside) front.length =
        dbSqlEscapeLoop size src (front ++ escaped [c] ++ inside' ++ outside)
          (front ++ escaped [c]).length := by
  obtain ⟨first, second, inside, rfl⟩ : ∃ first second rest, inside = first :: second :: rest := by
    match inside, length with
    | [], length => simp at length; omega
    | [_], length => simp at length; omega
    | first :: second :: rest, _ => exact ⟨first, second, rest, rfl⟩
  have guard : ¬ ((size : ℤ) - 2 ≤ front.length) := by omega
  have cells : front ++ first :: second :: inside ++ outside =
      front ++ (first :: second :: (inside ++ outside)) := by simp
  simp only [List.length_cons] at length
  rw [dbSqlEscapeLoop, if_neg guard, cells]
  have twice (d : Char) : storeAll (front ++ (first :: second :: (inside ++ outside))) front.length
      [d, d] = some (front ++ [d, d] ++ (inside ++ outside)) := by
    rw [storeAll_append, if_pos (by simp)]
    rfl
  by_cases is_quote : c = '\''
  · have own : escaped [c] = ['\'', '\''] := by simp [escaped, double, is_quote]
    refine ⟨inside, by rw [own, ← length]; simp; omega, ?_⟩
    rw [if_pos is_quote, twice, Option.bind_some, own]
    simp
  rw [if_neg is_quote]
  by_cases is_backslash : c = '\\'
  · have own : escaped [c] = ['\\', '\\'] := by simp [escaped, double, is_backslash]
    refine ⟨inside, by rw [own, ← length]; simp; omega, ?_⟩
    rw [if_pos is_backslash, twice, Option.bind_some, own]
    simp
  · have own : escaped [c] = [c] := by simp [escaped, double, is_quote, is_backslash]
    refine ⟨second :: inside, by rw [own, ← length]; simp; omega, ?_⟩
    rw [if_neg is_backslash, store_append, Option.bind_some, own]
    simp

/-- The loop writes the escaped source after what is there, or stops with an error before the end of
the destination; it does not stop when every character has room for two. -/
theorem dbSqlEscapeLoop_spec {size : ℕ} (src front inside outside : List Char)
    (length : front.length + inside.length = size) (room : front.length < size) :
    ∃ ret cells, dbSqlEscapeLoop size src (front ++ inside ++ outside) front.length =
        some (ret, cells ++ outside) ∧ cells.length = size ∧
      (0 ≤ ret → ret = (front ++ escaped src).length ∧
        ∃ rest, cells = front ++ escaped src ++ '\x00' :: rest) ∧
      (front.length + 2 * src.length + 1 ≤ size → 0 ≤ ret) := by
  induction src generalizing front inside with
  | nil =>
      obtain ⟨first, inside, rfl⟩ : ∃ first rest, inside = first :: rest := by
        cases inside with
        | nil => simp at length; omega
        | cons first rest => exact ⟨first, rest, rfl⟩
      refine ⟨front.length, front ++ '\x00' :: inside, ?_, by simpa using length, ?_, by omega⟩
      · rw [List.append_assoc, List.cons_append, dbSqlEscapeLoop, store_append]
        simp
      · exact fun _ => ⟨by simp [escaped], inside, by simp [escaped]⟩
  | cons c src induction =>
      by_cases guard : (size : ℤ) - 2 ≤ front.length
      · refine ⟨-2, front ++ inside, ?_, by simpa using length, by omega, ?_⟩
        · rw [dbSqlEscapeLoop, if_pos guard]
        · simp only [List.length_cons]
          omega
      · obtain ⟨inside', length', same⟩ :=
          dbSqlEscapeLoop_cons c src front inside outside length (by omega)
        have short : (escaped [c]).length ≤ 2 := length_double_le
        obtain ⟨ret, cells, ran, cells_length, holds, succeeds⟩ :=
          induction (front ++ escaped [c]) inside' (by simpa using length') (by simp; omega)
        have whole : escaped (c :: src) = escaped [c] ++ escaped src := double_append [c] src
        refine ⟨ret, cells, same.trans ran, cells_length, ?_, ?_⟩
        · rw [whole, ← List.append_assoc]
          exact holds
        · simp only [List.length_cons, List.length_append] at succeeds ⊢
          omega

/-- A buffer of twice the length and one more gets the escaped source. -/
theorem dbSqlEscapeBuf_holds (src : CText) (dst : List Char)
    (room : 2 * src.1.length + 1 ≤ dst.length) :
    ∃ dst', dbSqlEscapeBuf (some src) (some dst) dst.length =
        some (((escaped src.1).length : ℤ), some dst') ∧
      Holds '\x00' dst.length (escaped src.1) dst' := by
  have length : ([] : List Char).length + dst.length = dst.length := Nat.zero_add _
  obtain ⟨ret, cells, ran, cells_length, holds, succeeds⟩ :=
    dbSqlEscapeLoop_spec src.1 [] dst [] length (by simp; omega)
  obtain ⟨ret_eq, rest, cells_eq⟩ := holds (succeeds (by simpa using room))
  have positive : ¬ ((dst.length : ℤ) ≤ 0) := by omega
  simp only [List.nil_append, List.append_nil, List.length_nil] at ran ret_eq cells_eq
  refine ⟨cells, ?_, cells_length, fun member => src.2 (mem_double.mp member), rest, cells_eq⟩
  rw [dbSqlEscapeBuf, if_neg positive, ran, ret_eq, Option.map_some]

/-! ## Safe and complete -/

/-- Escaping into a buffer of `size` characters, with any memory after it.  What follows the buffer
stays.  When the result is `n` the buffer holds a text of `n` characters and its end; between quotes
the text is one literal, and a database in which backslashes escape reads the source from it.  The
result is one when the size is at least twice the length of the source and one more. -/
theorem dbSqlEscapeBuf_safe (src : CText) (size : ℤ) (memory : List Char)
    (room : size ≤ memory.length) :
    ∃ ret memory', dbSqlEscapeBuf (some src) (some memory) size = some (ret, some memory') ∧
      memory'.length = memory.length ∧ memory'.drop size.toNat = memory.drop size.toNat ∧
      (0 ≤ ret → ∃ body rest, memory' = body ++ '\x00' :: rest ∧ (body.length : ℤ) = ret ∧
        ret < size ∧ '\x00' ∉ body ∧
        (∃ content, sqlLiteral ('\'' :: (body ++ ['\''])) = some (content, [])) ∧
        ∀ other, backslashLiteral other ('\'' :: (body ++ ['\''])) = some (src.1, [])) ∧
      (2 * src.1.length + 1 ≤ size → 0 ≤ ret) := by
  by_cases empty : size ≤ 0
  · refine ⟨-1, memory, ?_, rfl, rfl, by omega, by omega⟩
    rw [dbSqlEscapeBuf, if_pos empty]
  · obtain ⟨size, rfl⟩ : ∃ n : ℕ, size = n := ⟨size.toNat, by omega⟩
    have length : (memory.take size).length = size := by
      rw [List.length_take]
      omega
    have cells_room : ([] : List Char).length + (memory.take size).length = size := by
      rw [List.length_nil, Nat.zero_add, length]
    obtain ⟨ret, cells, ran, cells_length, holds, succeeds⟩ := dbSqlEscapeLoop_spec src.1 []
      (memory.take size) (memory.drop size) cells_room (by simp; omega)
    simp only [List.nil_append, List.length_nil, List.take_append_drop] at ran
    refine ⟨ret, cells ++ memory.drop size, ?_, ?_, ?_, ?_, ?_⟩
    · rw [dbSqlEscapeBuf, if_neg empty, ran, Option.map_some]
    · rw [List.length_append, List.length_drop, cells_length]
      omega
    · rw [Int.toNat_natCast, List.drop_append_of_le_length cells_length.ge, ← cells_length,
        List.drop_length, List.nil_append]
    · intro ok
      obtain ⟨ret_eq, rest, cells_eq⟩ := holds ok
      rw [List.nil_append] at ret_eq cells_eq
      refine ⟨escaped src.1, rest ++ memory.drop size, by simp [cells_eq], ret_eq.symm,
        ?_, ?_, ?_, ?_⟩
      · rw [ret_eq, ← cells_length, cells_eq]
        simp only [List.length_append, List.length_cons]
        omega
      · exact fun member => src.2 (mem_double.mp member)
      · exact ⟨_, sqlLiteral_quoted src.1⟩
      · exact fun other => backslashLiteral_quoted other src.1
    · intro fits
      exact succeeds (by simp; omega)

/-- Two quotes in a buffer of five characters. -/
theorem dbSqlEscapeBuf_safe_quotes :
    ∃ ret memory', dbSqlEscapeBuf (some ⟨['\'', '\''], by decide⟩) (some (List.replicate 5 'x')) 5 =
        some (ret, some memory') ∧
      memory'.length = 5 ∧ memory'.drop 5 = [] ∧
      (0 ≤ ret → ∃ body rest, memory' = body ++ '\x00' :: rest ∧ (body.length : ℤ) = ret ∧
        ret < 5 ∧ '\x00' ∉ body ∧
        (∃ content, sqlLiteral ('\'' :: (body ++ ['\''])) = some (content, [])) ∧
        ∀ other, backslashLiteral other ('\'' :: (body ++ ['\''])) = some (['\'', '\''], [])) ∧
      ((2 * 2 + 1 : ℤ) ≤ 5 → 0 ≤ ret) :=
  dbSqlEscapeBuf_safe ⟨['\'', '\''], by decide⟩ 5 (List.replicate 5 'x') (by simp)

end RateEngine
