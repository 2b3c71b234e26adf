import Mathlib.Algebra.Order.BigOperators.Group.List
import Mathlib.Algebra.Order.Group.Nat
import Mathlib.Data.List.Basic
import Mathlib.Data.List.TakeWhile

/-!
# Pieces of a text

A text is cut after the elements that end a piece, such as a line break or the element that fills a
buffer: a finer cut is the same cut of each piece of a coarser one.  A piece is taken apart at
separators by a tokenizer that skips empty fields: its tokens are the nonempty fields.
-/

namespace Fields

variable {α : Type*}

/-! ## Cutting -/

section Cut

/-- The pieces of a list, cut after every element that ends the piece read so far. -/
def cutAfter (ends : List α → α → Bool) : List α → List α → List (List α)
  | piece, [] => if piece.isEmpty then [] else [piece]
  | piece, a :: rest =>
      if ends piece a then (piece ++ [a]) :: cutAfter ends [] rest
      else cutAfter ends (piece ++ [a]) rest

variable {ends fine : List α → α → Bool}

/-- A finer cut is the finer cut of each piece. -/
theorem cutAfter_flatMap (finer : ∀ piece piece' a, ends piece a = true → fine piece' a = true)
    (list : List α) :
    (cutAfter ends [] list).flatMap (cutAfter fine []) = cutAfter fine [] list := by
  -- `done` and `inner` are what the finer cut has made of the piece read so far
  have along : ∀ piece inner done,
      (∀ rest, cutAfter fine [] (piece ++ rest) = done ++ cutAfter fine inner rest) →
        (cutAfter ends piece list).flatMap (cutAfter fine []) =
          done ++ cutAfter fine inner list := by
    induction list with
    | nil =>
        intro piece inner done read
        have all := read []
        rw [List.append_nil] at all
        rw [← all]
        cases piece <;> simp [cutAfter]
    | cons a rest induction =>
        intro piece inner done read
        have piece_read := read [a]
        by_cases stop : ends piece a = true
        · rw [cutAfter, if_pos (finer piece inner a stop), cutAfter, List.isEmpty_nil,
            if_pos rfl] at piece_read
          rw [cutAfter, if_pos stop, List.flatMap_cons, piece_read, cutAfter,
            if_pos (finer piece inner a stop), induction [] [] [] fun _ => rfl, List.nil_append,
            List.append_assoc, List.singleton_append]
        · rw [cutAfter, if_neg stop, cutAfter]
          by_cases inner_stop : fine inner a = true
          · rw [if_pos inner_stop, List.append_cons done]
            refine induction _ _ _ fun more => ?_
            rw [List.append_assoc, List.singleton_append, read, cutAfter, if_pos inner_stop,
              List.append_cons done]
          · rw [if_neg inner_stop]
            refine induction _ _ _ fun more => ?_
            rw [List.append_assoc, List.singleton_append, read, cutAfter, if_neg inner_stop]
  exact along [] [] [] fun _ => rfl

/-- A piece of a cut at marks is a text without marks, followed by at most one mark. -/
theorem exists_of_mem_cutAfter {mark : α → Bool} {list piece : List α}
    (member : piece ∈ cutAfter (fun _ => mark) [] list) :
    ∃ text tail, piece = text ++ tail ∧ (∀ a ∈ text, mark a = false) ∧ piece ≠ [] ∧
      (tail = [] ∨ ∃ a, mark a = true ∧ tail = [a]) := by
  have along : ∀ read : List α, (∀ a ∈ read, mark a = false) →
      piece ∈ cutAfter (fun _ => mark) read list →
        ∃ text tail, piece = text ++ tail ∧ (∀ a ∈ text, mark a = false) ∧ piece ≠ [] ∧
          (tail = [] ∨ ∃ a, mark a = true ∧ tail = [a]) := by
    clear member
    induction list with
    | nil =>
        intro read unmarked member
        cases read with
        | nil => simp [cutAfter] at member
        | cons b read =>
            obtain rfl : piece = b :: read := by simpa [cutAfter] using member
            exact ⟨b :: read, [], by simp, unmarked, List.cons_ne_nil _ _, .inl rfl⟩
    | cons a rest induction =>
        intro read unmarked member
        rw [cutAfter] at member
        by_cases marked : mark a = true
        · rw [if_pos marked] at member
          rcases List.mem_cons.mp member with rfl | later
          · exact ⟨read, [a], rfl, unmarked, by simp, .inr ⟨a, marked, rfl⟩⟩
          · exact induction [] (by simp) later
        · rw [if_neg marked] at member
          refine induction _ (fun b b_mem => ?_) member
          rcases List.mem_append.mp b_mem with old | new
          · exact unmarked b old
          · rw [List.mem_singleton.mp new]
            exact Bool.eq_false_iff.mpr marked
  exact along [] (by simp) member

/-- The end of a piece that is read into a buffer: the buffer is full or a mark is read. -/
def fills (size : ℕ) (mark : α → Bool) (piece : List α) (a : α) : Bool :=
  mark a || piece.length + 1 == size

/-- The first piece of a buffered cut of a line is as much of it as the buffer takes. -/
theorem cutAfter_fills {size : ℕ} {mark : α → Bool} {text tail : List α}
    (unmarked : ∀ a ∈ text, mark a = false)
    (ended : tail = [] ∨ ∃ a, mark a = true ∧ tail = [a]) (nonempty : text ++ tail ≠ []) :
    cutAfter (fills (size + 1) mark) [] (text ++ tail) =
      (text ++ tail).take (size + 1) ::
        cutAfter (fills (size + 1) mark) [] ((text ++ tail).drop (size + 1)) := by
  have along : ∀ (room : ℕ) (read : List α), read.length + room = size →
      read ++ (text ++ tail) ≠ [] →
      cutAfter (fills (size + 1) mark) read (text ++ tail) =
        (read ++ (text ++ tail).take (room + 1)) ::
          cutAfter (fills (size + 1) mark) [] ((text ++ tail).drop (room + 1)) := by
    clear nonempty
    induction text with
    | nil =>
        intro room read filled nonempty
        rcases ended with rfl | ⟨a, marked, rfl⟩
        · have started : read.isEmpty = false := by
            simpa using nonempty
          simp [cutAfter, started]
        · simp [cutAfter, fills, marked]
    | cons a text induction =>
        intro room read filled _
        have unmarked_a : mark a = false := unmarked a List.mem_cons_self
        cases room with
        | zero =>
            have full : read.length = size := filled
            simp [cutAfter, fills, full]
        | succ room =>
            have open_buffer : fills (size + 1) mark read a = false := by
              simp only [fills, unmarked_a, Bool.false_or, beq_eq_false_iff_ne]
              omega
            rw [List.cons_append, cutAfter, open_buffer, if_neg Bool.false_ne_true,
              induction (fun b member => unmarked b (List.mem_cons_of_mem a member)) room
                (read ++ [a]) (by simp only [List.length_append, List.length_singleton]; omega)
                (by simp),
              List.take_succ_cons, List.drop_succ_cons, List.append_assoc, List.singleton_append]
  simpa using along size [] (by simp) (by simpa using nonempty)

end Cut

/-! ## Tokens -/

section Tokens

variable {sep : α → Bool}

/-- `strtok`: the first token and what follows its separator, or none. -/
def strtok (sep : α → Bool) (text : List α) : Option (List α × List α) :=
  match text.dropWhile sep with
  | [] => none
  | a :: rest =>
      some (a :: rest.takeWhile fun b => !sep b, (rest.dropWhile fun b => !sep b).tail)

/-- The tokens that repeated calls of `strtok` give, at most as many as the fuel. -/
def strtokAll (sep : α → Bool) : ℕ → List α → List (List α)
  | 0, _ => []
  | fuel + 1, text =>
      match strtok sep text with
      | none => []
      | some (token, rest) => token :: strtokAll sep fuel rest

/-- The nonempty fields of a text. -/
def tokens (sep : α → Bool) (text : List α) : List (List α) :=
  (text.splitOnP sep).filter fun field => !field.isEmpty

/-- A separator parts the tokens before it from those after it. -/
theorem tokens_append_cons (before after : List α) {a : α} (separates : sep a = true) :
    tokens sep (before ++ a :: after) = tokens sep before ++ tokens sep after := by
  rw [tokens, List.splitOnP_append_cons before after separates, List.filter_append, tokens, tokens]

/-- A text without separators is one token, unless it is empty. -/
theorem tokens_eq_singleton {text : List α} (plain : ∀ a ∈ text, sep a = false)
    (nonempty : text ≠ []) : tokens sep text = [text] := by
  simp [tokens, List.splitOnP_eq_singleton plain, nonempty]

@[simp]
theorem tokens_nil : tokens sep [] = [] := by simp [tokens]

/-- Separators at the start give no tokens. -/
theorem tokens_dropWhile (text : List α) : tokens sep (text.dropWhile sep) = tokens sep text := by
  induction text with
  | nil => rfl
  | cons a rest induction =>
      by_cases separates : sep a = true
      · rw [List.dropWhile_cons_of_pos separates, induction]
        simpa using (tokens_append_cons [] rest separates).symm
      · rw [List.dropWhile_cons_of_neg separates]

/-- A token is nonempty and consists of elements of the text that are no separators. -/
theorem strtok_eq_some {text token rest : List α} (found : strtok sep text = some (token, rest)) :
    token ≠ [] ∧ ∀ a ∈ token, a ∈ text ∧ sep a = false := by
  rw [strtok] at found
  cases kept : text.dropWhile sep with
  | nil => simp [kept] at found
  | cons a more =>
      have head_kept : sep a = false := by
        have := List.head?_dropWhile_not sep text
        simpa [kept] using this
      have from_text : ∀ b ∈ a :: more, b ∈ text := fun b member =>
        (List.dropWhile_suffix sep).subset (kept ▸ member)
      simp only [kept, Option.some.injEq, Prod.mk.injEq] at found
      obtain ⟨rfl, -⟩ := found
      refine ⟨List.cons_ne_nil _ _, fun b member => ?_⟩
      rcases List.mem_cons.mp member with rfl | later
      · exact ⟨from_text b List.mem_cons_self, head_kept⟩
      · exact ⟨from_text b (List.mem_cons_of_mem a ((List.takeWhile_prefix _).subset later)),
          by simpa using List.mem_takeWhile_imp later⟩

/-- The separators before the first token and the token are at the start of the text. -/
theorem length_strtok_le {text token rest : List α} (found : strtok sep text = some (token, rest)) :
    (text.takeWhile sep).length + token.length ≤ text.length := by
  have parts := congrArg List.length (List.takeWhile_append_dropWhile (p := sep) (l := text))
  rw [List.length_append] at parts
  rw [strtok] at found
  split at found
  · nomatch found
  · rename_i a more kept
    obtain ⟨rfl, -⟩ := Prod.mk.inj (Option.some.inj found)
    have short := (List.takeWhile_sublist (p := fun b => !sep b) (l := more)).length_le
    rw [kept, List.length_cons] at parts
    rw [List.length_cons]
    omega

/-- A text of separators has no token. -/
theorem strtok_eq_none {text : List α} (blank : ∀ a ∈ text, sep a = true) :
    strtok sep text = none := by
  rw [strtok, List.dropWhile_eq_nil_iff.mpr blank]

/-- The first token of a text that starts with it. -/
theorem strtok_append {token after : List α} (plain : ∀ a ∈ token, sep a = false)
    (nonempty : token ≠ []) (parted : ∀ a ∈ after.head?, sep a = true) :
    strtok sep (token ++ after) = some (token, after.tail) := by
  obtain ⟨a, token, rfl⟩ := List.exists_cons_of_ne_nil nonempty
  have rest_plain : ∀ b ∈ token, (!sep b) = true := fun b member => by
    simp [plain b (List.mem_cons_of_mem a member)]
  have taken : (token ++ after).takeWhile (fun b => !sep b) = token := by
    rw [List.takeWhile_append_of_pos rest_plain]
    cases after with
    | nil => simp
    | cons b after => simp [parted b rfl]
  have dropped : (token ++ after).dropWhile (fun b => !sep b) = after := by
    rw [List.dropWhile_append_of_pos rest_plain]
    cases after with
    | nil => simp
    | cons b after => simp [parted b rfl]
  have kept : List.dropWhile sep (a :: (token ++ after)) = a :: (token ++ after) := by
    rw [List.dropWhile_cons_of_neg (by simp [plain a List.mem_cons_self])]
  rw [List.cons_append, strtok, kept]
  simp only [taken, dropped]

/-- With enough fuel the tokenizer gives the nonempty fields. -/
theorem strtokAll_eq_tokens {fuel : ℕ} {text : List α} (enough : text.length ≤ fuel) :
    strtokAll sep fuel text = tokens sep text := by
  induction fuel generalizing text with
  | zero =>
      obtain rfl : text = [] := List.length_eq_zero_iff.mp (Nat.le_zero.mp enough)
      simp [strtokAll]
  | succ fuel induction =>
      rw [strtokAll, strtok, ← tokens_dropWhile]
      have shorter : (text.dropWhile sep).length ≤ text.length := List.length_dropWhile_le sep text
      cases kept : text.dropWhile sep with
      | nil => simp
      | cons a rest =>
          rw [kept, List.length_cons] at shorter
          have head_kept : sep a = false := by
            have := List.head?_dropWhile_not sep text
            simpa [kept] using this
          have plain : ∀ b ∈ a :: rest.takeWhile (fun b => !sep b), sep b = false := by
            intro b member
            rcases List.mem_cons.mp member with rfl | later
            · exact head_kept
            · simpa using List.mem_takeWhile_imp later
          have parted : a :: rest =
              (a :: rest.takeWhile fun b => !sep b) ++ rest.dropWhile fun b => !sep b := by
            rw [List.cons_append, List.takeWhile_append_dropWhile]
          have rest_shorter := List.length_dropWhile_le (fun b => !sep b) rest
          have rest_enough : (rest.dropWhile fun b => !sep b).tail.length ≤ fuel := by
            rw [List.length_tail]
            omega
          simp only [induction rest_enough]
          conv_rhs => rw [parted]
          cases after : rest.dropWhile fun b => !sep b with
          | nil => rw [List.append_nil, tokens_eq_singleton plain (by simp)]; simp
          | cons b more =>
              have separates : sep b = true := by
                have := List.head?_dropWhile_not (fun b => !sep b) rest
                simpa [after] using this
              rw [tokens_append_cons _ _ separates, tokens_eq_singleton plain (by simp)]
              simp

end Tokens

/-! ## Fields -/

section Splitting

variable {sep : α → Bool}

/-- There is one field more than separators. -/
theorem length_splitOnP (text : List α) : (text.splitOnP sep).length = text.countP sep + 1 := by
  induction text with
  | nil => simp
  | cons a rest induction =>
      rw [List.splitOnP_cons_eq_if_modifyHead, List.countP_cons]
      split <;> simp [induction]

/-- A text without separators is added to the last field. -/
theorem splitOnP_append (text : List α) {more : List α} (plain : ∀ a ∈ more, sep a = false) :
    ∃ first last, text.splitOnP sep = first ++ [last] ∧
      (text ++ more).splitOnP sep = first ++ [last ++ more] := by
  induction text with
  | nil => exact ⟨[], [], by simp, by simp [List.splitOnP_eq_singleton plain]⟩
  | cons a rest induction =>
      obtain ⟨first, last, fields, fields_more⟩ := induction
      rw [List.cons_append, List.splitOnP_cons_eq_if_modifyHead, fields,
        List.splitOnP_cons_eq_if_modifyHead, fields_more]
      split
      · exact ⟨[] :: first, last, rfl, rfl⟩
      · cases first with
        | nil => exact ⟨[], a :: last, rfl, rfl⟩
        | cons field first => exact ⟨(a :: field) :: first, last, rfl, rfl⟩

/-- A field consists of the elements of the text that are no separators. -/
theorem mem_splitOnP {text field : List α} (member : field ∈ text.splitOnP sep) {a : α}
    (a_mem : a ∈ field) : a ∈ text := by
  induction text generalizing field a with
  | nil =>
      rw [List.splitOnP_nil, List.mem_singleton] at member
      simp [member] at a_mem
  | cons b rest induction =>
      obtain ⟨first, others, fields⟩ :=
        List.exists_cons_of_ne_nil (List.splitOnP_ne_nil sep rest)
      rw [List.splitOnP_cons_eq_if_modifyHead, fields] at member
      rw [fields] at induction
      split at member
      · rcases List.mem_cons.mp member with rfl | later
        · cases a_mem
        · exact List.mem_cons_of_mem b (induction later a_mem)
      · rcases List.mem_cons.mp member with rfl | later
        · rcases List.mem_cons.mp a_mem with rfl | inner
          · exact List.mem_cons_self
          · exact List.mem_cons_of_mem b (induction List.mem_cons_self inner)
        · exact List.mem_cons_of_mem b (induction (List.mem_cons_of_mem first later) a_mem)

/-- An element that is no separator is in a field. -/
theorem exists_mem_splitOnP {text : List α} {a : α} (member : a ∈ text) (plain : sep a = false) :
    ∃ field ∈ text.splitOnP sep, a ∈ field := by
  induction text with
  | nil => cases member
  | cons b rest induction =>
      obtain ⟨first, others, fields⟩ :=
        List.exists_cons_of_ne_nil (List.splitOnP_ne_nil sep rest)
      rw [List.splitOnP_cons_eq_if_modifyHead, fields]
      rw [fields] at induction
      rcases List.mem_cons.mp member with rfl | later
      · rw [if_neg (by simp [plain])]
        exact ⟨a :: first, List.mem_cons_self, List.mem_cons_self⟩
      · obtain ⟨field, field_mem, a_mem⟩ := induction later
        split
        · exact ⟨field, List.mem_cons_of_mem _ field_mem, a_mem⟩
        · rcases List.mem_cons.mp field_mem with rfl | other
          · exact ⟨b :: field, List.mem_cons_self, List.mem_cons_of_mem b a_mem⟩
          · exact ⟨field, List.mem_cons_of_mem _ other, a_mem⟩

/-- When a text has as many tokens as fields, the tokens are the fields. -/
theorem tokens_eq_splitOnP {text : List α}
    (all : (tokens sep text).length = (text.splitOnP sep).length) :
    tokens sep text = text.splitOnP sep := by
  rw [tokens]
  exact List.filter_eq_self.mpr (List.length_filter_eq_length_iff.mp all)

end Splitting

/-! ## Pieces put together -/

section Pieces

variable {β : Type*} {left right : α → List β}

/-- Texts put together from pieces, of which the pieces of one are at least as long, are the same
exactly when the pieces are. -/
theorem flatMap_eq_flatMap_iff {list : List α}
    (longer : ∀ a ∈ list, (right a).length ≤ (left a).length) :
    list.flatMap left = list.flatMap right ↔ ∀ a ∈ list, left a = right a := by
  have all_longer : ∀ rest : List α, (∀ a ∈ rest, (right a).length ≤ (left a).length) →
      (rest.flatMap right).length ≤ (rest.flatMap left).length := by
    intro rest longer
    simp only [List.length_flatMap]
    exact List.sum_le_sum longer
  refine ⟨fun same => ?_, fun pieces => List.flatMap_congr pieces⟩
  induction list with
  | nil => simp
  | cons a rest induction =>
      have rest_longer := fun b member => longer b (List.mem_cons_of_mem a member)
      rw [List.flatMap_cons, List.flatMap_cons] at same
      have lengths := congrArg List.length same
      rw [List.length_append, List.length_append] at lengths
      have first_longer := longer a List.mem_cons_self
      have others_longer := all_longer rest rest_longer
      obtain ⟨first, others⟩ := List.append_inj same (by omega)
      exact List.forall_mem_cons.mpr ⟨first, induction rest_longer others⟩

/-- Lists with the same images are the same when the map tells their elements apart. -/
theorem eq_of_map_eq_map {list list' : List α} {f : α → β}
    (apart : ∀ a ∈ list, ∀ a' ∈ list', f a = f a' → a = a') (same : list.map f = list'.map f) :
    list = list' := by
  induction list generalizing list' with
  | nil => exact (List.map_eq_nil_iff.mp same.symm).symm
  | cons a rest induction =>
      obtain ⟨a', rest', rfl, first, others⟩ := List.map_eq_cons_iff.mp same.symm
      rw [apart a List.mem_cons_self a' List.mem_cons_self first.symm,
        induction (fun b member b' member' => apart b (List.mem_cons_of_mem a member) b'
          (List.mem_cons_of_mem a' member')) others.symm]

end Pieces

end Fields
