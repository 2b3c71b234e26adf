import Mathlib.Data.List.Basic
import Mathlib.Data.List.TakeWhile
import Mathlib.Tactic.Common

/-!
# Texts in buffers

A buffer is a row of cells, and the text in it ends at the first cell with the terminator.  A write
past the end of a buffer gives nothing; every other write changes the cells it is meant for.
-/

namespace Buffer

variable {α : Type*}

/-! ## Cells -/

/-- Write one cell. -/
def store (buffer : List α) (i : ℕ) (a : α) : Option (List α) :=
  if i < buffer.length then some (buffer.set i a) else none

/-- Write cells one after the other. -/
def storeAll : List α → ℕ → List α → Option (List α)
  | buffer, _, [] => some buffer
  | buffer, i, a :: rest => (store buffer i a).bind fun buffer => storeAll buffer (i + 1) rest

theorem store_append (front cells : List α) (cell a : α) :
    store (front ++ cell :: cells) front.length a = some (front ++ a :: cells) := by
  rw [store, if_pos (by simp), List.set_append_right _ _ le_rfl, Nat.sub_self, List.set_cons_zero]

theorem store_end (buffer : List α) (a : α) : store buffer buffer.length a = none :=
  if_neg (Nat.lt_irrefl _)

theorem length_store {buffer after : List α} {i : ℕ} {a : α}
    (stored : store buffer i a = some after) :
    after.length = buffer.length := by
  rw [store] at stored
  split at stored
  · cases stored
    exact List.length_set
  · nomatch stored

theorem length_storeAll {buffer after : List α} {i : ℕ} {list : List α}
    (stored : storeAll buffer i list = some after) : after.length = buffer.length := by
  induction list generalizing buffer i with
  | nil =>
      cases stored
      rfl
  | cons a rest induction =>
      obtain ⟨between, first, later⟩ := Option.bind_eq_some_iff.mp stored
      exact (induction later).trans (length_store first)

/-- The cells after the first ones are overwritten, when there are enough of them. -/
theorem storeAll_append (front cells list : List α) :
    storeAll (front ++ cells) front.length list =
      if list.length ≤ cells.length then some
        (front ++ list ++ cells.drop list.length) else none := by
  induction list generalizing front cells with
  | nil => simp [storeAll]
  | cons a rest induction =>
      cases cells with
      | nil => rw [storeAll, List.append_nil, store_end, Option.bind_none, if_neg (by simp)]
      | cons cell cells =>
          have later := induction (front ++ [a]) cells
          rw [List.length_append, List.length_singleton, List.append_assoc,
            List.singleton_append] at later
          rw [storeAll, store_append, Option.bind_some, later]
          simp

/-- Cells are written from the start of a buffer when they fit. -/
theorem storeAll_zero (buffer list : List α) : storeAll buffer 0 list =
    if list.length ≤ buffer.length then some (list ++ buffer.drop list.length) else none :=
  storeAll_append [] buffer list

/-- A write from the start of a buffer that fits leaves a buffer of the same size. -/
theorem exists_storeAll_zero {buffer list : List α} (fits : list.length ≤ buffer.length) :
    ∃ after, storeAll buffer 0 list = some after ∧ after.length = buffer.length :=
  ⟨_, (storeAll_zero buffer list).trans (if_pos fits), by simp; omega⟩

/-- `memset` of the first `n` cells. -/
def memset (a : α) (buffer : List α) (n : ℕ) : Option (List α) :=
  storeAll buffer 0 (List.replicate n a)

theorem exists_memset (a : α) {buffer : List α} {n : ℕ} (fits : n ≤ buffer.length) :
    ∃ after, memset a buffer n = some after ∧ after.length = buffer.length :=
  exists_storeAll_zero (by rwa [List.length_replicate])

theorem memset_length (a : α) (buffer : List α) :
    memset a buffer buffer.length = some (List.replicate buffer.length a) := by
  rw [memset, storeAll_zero, if_pos (by simp)]
  simp

/-! ## Texts -/

/-- A text without the terminator. -/
abbrev Content (nul : α) := {content : List α // nul ∉ content}

section Text

variable [DecidableEq α] (nul : α)

/-- The text that a buffer holds. -/
def text (buffer : List α) : List α := buffer.takeWhile (· ≠ nul)

/-- `strlen`, which runs out of a buffer without the terminator. -/
def strlen (buffer : List α) : Option ℕ :=
  if nul ∈ buffer then some (text nul buffer).length else none

theorem strlen_of_mem {buffer : List α} (ends : nul ∈ buffer) :
    strlen nul buffer = some (text nul buffer).length := if_pos ends

theorem length_text_le (buffer : List α) : (text nul buffer).length ≤ buffer.length :=
  (List.takeWhile_sublist _).length_le

/-- `strcpy`. -/
def strcpy (buffer src : List α) : Option (List α) := storeAll buffer 0 (src ++ [nul])

/-- `strcat`. -/
def strcat (buffer src : List α) : Option (List α) :=
  storeAll buffer (text nul buffer).length (src ++ [nul])

/-- `strncpy`: the cells after a shorter text are filled with the terminator. -/
def strncpy (buffer src : List α) (n : ℕ) : Option (List α) :=
  storeAll buffer 0 (src.take n ++ List.replicate (n - src.length) nul)

/-- A buffer of some size that holds a text. -/
structure Holds (size : ℕ) (content buffer : List α) : Prop where
  length : buffer.length = size
  plain : nul ∉ content
  ends : ∃ rest, buffer = content ++ nul :: rest

variable {nul} {size : ℕ} {content buffer src : List α}

namespace Holds

omit [DecidableEq α] in
theorem length_lt (holds : Holds nul size content buffer) : content.length < size := by
  obtain ⟨rest, rfl⟩ := holds.ends
  rw [← holds.length]
  simp

theorem text_eq (holds : Holds nul size content buffer) : text nul buffer = content := by
  obtain ⟨rest, rfl⟩ := holds.ends
  have kept : ∀ a ∈ content, decide (a ≠ nul) = true := by
    intro a member
    exact decide_eq_true fun same => holds.plain (same ▸ member)
  rw [text, List.takeWhile_append_of_pos kept, List.takeWhile_cons_of_neg (by simp),
    List.append_nil]

end Holds

omit [DecidableEq α] in
/-- A copy of a text succeeds when the text and its terminator fit. -/
theorem strcpy_of_lt (buffer : List α) (plain : nul ∉ src) (length : buffer.length = size)
    (fits : src.length < size) :
    ∃ after, strcpy nul buffer src = some after ∧ Holds nul size src after := by
  have stored := storeAll_append [] buffer (src ++ [nul])
  rw [if_pos (by simp; omega)] at stored
  refine ⟨_, stored, ?_, plain, ?_⟩
  · simp
    omega
  · exact ⟨buffer.drop (src.length + 1), by simp⟩

omit [DecidableEq α] in
theorem strcpy_eq_none (long : buffer.length ≤ src.length) : strcpy nul buffer src = none := by
  have stored := storeAll_append [] buffer (src ++ [nul])
  rwa [if_neg (by simp; omega)] at stored

/-- The first characters of a text are copied; the terminator after them makes them the text of the
buffer. -/
theorem strncpy_store (buffer : List α) (plain : nul ∉ src) {n : ℕ} (fits : n < buffer.length) :
    ∃ after, (strncpy nul buffer src n).bind (fun buffer => store buffer n nul) = some after ∧
      text nul after = src.take n := by
  let copied := src.take n ++ List.replicate (n - src.length) nul
  have copied_length : copied.length = n := by
    simp [copied]
    omega
  have stored := storeAll_append [] buffer copied
  rw [if_pos (by omega), copied_length] at stored
  obtain ⟨cell, rest, drop_eq⟩ : ∃ cell rest, buffer.drop n = cell :: rest :=
    List.exists_cons_of_ne_nil fun empty => by
      have := List.drop_eq_nil_iff.mp empty
      omega
  have ended := store_append copied rest cell nul
  rw [copied_length] at ended
  refine ⟨copied ++ nul :: rest, ?_, ?_⟩
  · rw [strncpy]
    change (storeAll ([] ++ buffer) ([] : List α).length copied).bind _ = _
    rw [stored, Option.bind_some, drop_eq, List.nil_append, ended]
  · have kept : ∀ a ∈ src.take n, decide (a ≠ nul) = true := by
      intro a member
      exact decide_eq_true fun same => plain (same ▸ List.mem_of_mem_take member)
    rw [text, List.append_assoc, List.takeWhile_append_of_pos kept]
    cases n - src.length <;> simp [List.replicate_succ]

/-- A text is appended when both and the terminator fit. -/
theorem Holds.strcat_of_lt (holds : Holds nul size content buffer) (plain : nul ∉ src)
    (fits : content.length + src.length < size) :
    ∃ after, strcat nul buffer src = some after ∧ Holds nul size (content ++ src) after := by
  have length := holds.length
  rw [strcat, holds.text_eq]
  obtain ⟨rest, rfl⟩ := holds.ends
  rw [List.length_append, List.length_cons] at length
  rw [storeAll_append, if_pos (by simp; omega)]
  refine ⟨_, rfl, ?_, ?_, ?_⟩
  · simp
    omega
  · simp [holds.plain, plain]
  · exact ⟨rest.drop src.length, by simp⟩

theorem Holds.strcat_eq_none (holds : Holds nul size content buffer)
    (long : size ≤ content.length + src.length) : strcat nul buffer src = none := by
  have length := holds.length
  rw [strcat, holds.text_eq]
  obtain ⟨rest, rfl⟩ := holds.ends
  rw [List.length_append, List.length_cons] at length
  rw [storeAll_append, if_neg (by simp; omega)]

end Text

end Buffer

/-- The characters of a C string. -/
abbrev CText := Buffer.Content '\x00'
