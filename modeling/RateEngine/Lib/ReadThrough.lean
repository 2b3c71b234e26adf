import RateEngine.Lib.CopyCache
import RateEngine.Lib.GuardedRun

/-!
# Lookups through a cache of copied arrays

Workers look keys up in a shared cache.  A lookup that misses reads its rows from a source with two
statements and puts them into the cache.  Meanwhile the source changes and time passes.  This file
proves how old the rows of a lookup can be: the time to live of an entry and the time of one lookup.
-/

namespace ReadThrough

/-! ## Lookups -/

/-- What a lookup reads from the source: a note by its first statement, and the rows by its second;
`none` when it makes no array of them.  A copied row may lose fields that are not read. -/
structure Fetch (Source K Note Row : Type*) where
  note : Source → K → Note
  rows : Source → K → Note → Option (List Row)
  copy : Row → Row
  copy_copy : ∀ row, copy (copy row) = copy row
  copied : ∀ {source key known read}, rows source key known = some read →
    ∀ row ∈ read, copy row = row

/-- How far a worker is with its lookup. -/
inductive Lookup (K Note : Type*) where
  | idle
  /-- The cache had no fresh entry. -/
  | missed (key : K) (since : ℤ)
  | noted (key : K) (since : ℤ) (note : Note)
  /-- The rows are in an array of the worker and not yet in the cache. -/
  | filled (key : K) (since : ℤ) (p count : ℕ)
  /-- The lookup has ended with an array. -/
  | given (key : K) (ended : ℤ) (p : ℕ)
  /-- The worker has written into its array. -/
  | changed (p : ℕ)
deriving DecidableEq

namespace Lookup

variable {K Note : Type*}

/-- The array of the worker. -/
def array : Lookup K Note → Option ℕ
  | filled _ _ p _ | given _ _ p | changed p => some p
  | idle | missed .. | noted .. => none

/-- The array of a lookup that has ended. -/
def ended : Lookup K Note → Option ℕ
  | given _ _ p | changed p => some p
  | idle | missed .. | noted .. | filled .. => none

/-- When a lookup that has not ended began. -/
def began : Lookup K Note → Option ℤ
  | missed _ since | noted _ since _ | filled _ since _ _ => some since
  | idle | given .. | changed _ => none

end Lookup

/-- The clock, the source with those that it replaced, the cache and the workers. -/
structure State (B K Note Row Source : Type*) where
  now : ℤ := 0
  source : Source
  /-- The former sources, each with the time of its replacement. -/
  past : List (ℤ × Source) := []
  cache : CopyCache B K Row := {}
  lookups : List (Lookup K Note)

/-- The steps of the clock, the source and the workers. -/
inductive Action (K Note Row Source : Type*) where
  | tick (now : ℤ)
  | edit (source : Source)
  | look (w : ℕ) (key : K)
  /-- The first statement; if it gives no result, the note is what the variable holds. -/
  | first (w : ℕ) (lost : Option Note)
  | second (w : ℕ) (lost : Bool)
  | put (w : ℕ)
  | write (w : ℕ) (change : Cells Row → Cells Row)
  | release (w : ℕ)

namespace State

variable {B K Note Row Source : Type*} [DecidableEq B] [DecidableEq K]

/-- The first step of a lookup of an idle worker. -/
def look (f : Fetch Source K Note Row) (hash : K → B) (ttl : ℤ) (s : State B K Note Row Source)
    (w : ℕ) (key : K) : Option (State B K Note Row Source) :=
  (s.cache.get hash f.copy ttl s.now key).map fun result =>
    { s with
      cache := result.2
      lookups := s.lookups.set w (match result.1 with
        | some copied => .given key s.now copied.1
        | none => .missed key s.now) }

/-- The array that a worker makes of its rows. -/
def fill (f : Fetch Source K Note Row) (s : State B K Note Row Source) (w : ℕ) (key : K)
    (since : ℤ) (note : Note) : Option (State B K Note Row Source) :=
  match f.rows s.source key note with
  | none => some { s with lookups := s.lookups.set w .idle }
  | some rows =>
      (s.cache.caller (.new (rows.map some ++ [none]))).map fun cache =>
        { s with
          cache
          lookups := s.lookups.set w (.filled key since s.cache.heap.next rows.length) }

/-- One step; `none` when it is not possible.  A lookup takes at most `span`. -/
def step (f : Fetch Source K Note Row) (hash : K → B) (ttl span : ℤ)
    (s : State B K Note Row Source) :
    Action K Note Row Source → Option (State B K Note Row Source)
  | .tick now =>
      if s.now ≤ now ∧ ∀ l ∈ s.lookups, ∀ since ∈ l.began, now ≤ since + span then
        some { s with now }
      else none
  | .edit source => some { s with source, past := (s.now, s.source) :: s.past }
  | .look w key =>
      match s.lookups[w]? with
      | some .idle => s.look f hash ttl w key
      | _ => none
  | .first w lost =>
      match s.lookups[w]? with
      | some (.missed key since) =>
          some { s with
            lookups := s.lookups.set w (.noted key since (lost.getD (f.note s.source key))) }
      | _ => none
  | .second w lost =>
      match s.lookups[w]? with
      | some (.noted key since note) =>
          if lost then some { s with lookups := s.lookups.set w .idle }
          else s.fill f w key since note
      | _ => none
  | .put w =>
      match s.lookups[w]? with
      | some (.filled key _ p count) =>
          (s.cache.put hash f.copy s.now key (some p) count).map fun cache =>
            { s with cache, lookups := s.lookups.set w (.given key s.now p) }
      | _ => none
  | .write w change =>
      match (s.lookups[w]?).bind Lookup.ended with
      | some p =>
          (s.cache.caller (.write p change)).map fun cache =>
            { s with cache, lookups := s.lookups.set w (.changed p) }
      | none => none
  | .release w =>
      match (s.lookups[w]?).bind Lookup.ended with
      | some p =>
          (s.cache.caller (.free p)).map fun cache =>
            { s with cache, lookups := s.lookups.set w .idle }
      | none => none

end State

/-! ## The age of rows -/

section Age

variable {B K Note Row Source : Type*}
variable (f : Fetch Source K Note Row) (ttl span : ℤ) (junk : Set Note)

namespace State

variable (s : State B K Note Row Source)

/-- The source was in force at some time from `since` on. -/
def InForce (since : ℤ) (source : Source) : Prop :=
  source = s.source ∨ ∃ replaced, (replaced, source) ∈ s.past ∧ since ≤ replaced

/-- A note of a source that was in force from `since` on, or one that no source gave. -/
def Notes (since : ℤ) (key : K) (note : Note) : Prop :=
  note ∈ junk ∨ ∃ source, s.InForce since source ∧ f.note source key = note

/-- The rows that sources in force from `since` on give for a key. -/
def Answers (since : ℤ) (key : K) (rows : List Row) : Prop :=
  ∃ note source, s.Notes f junk since key note ∧ s.InForce since source ∧
    f.rows source key note = some rows

/-- A worker has an array with the rows, closed by a cell of zeros. -/
def Has (p : ℕ) (rows : List Row) : Prop :=
  p ∈ s.cache.callers ∧ s.cache.heap.get? p = some (rows.map some ++ [none])

/-- A lookup that began at `since` is still allowed to go on. -/
def InTime (since : ℤ) : Prop := since ≤ s.now ∧ s.now ≤ since + span

/-- What holds of a worker. -/
def Allows : Lookup K Note → Prop
  | .idle => True
  | .missed _ since => s.InTime span since
  | .noted key since note => s.InTime span since ∧ s.Notes f junk since key note
  | .filled key since p count =>
      s.InTime span since ∧
        ∃ rows, rows.length = count ∧ s.Has p rows ∧ s.Answers f junk since key rows
  | .given key ended p =>
      ended ≤ s.now ∧ ∃ rows, s.Has p rows ∧ s.Answers f junk (ended - ttl - span) key rows
  | .changed p => p ∈ s.cache.callers

/-- What holds of the last stores of the cache. -/
def Stores (last : LastStores K Row) : Prop :=
  ∀ key stamp cells, last key = some (stamp, cells) →
    stamp ≤ s.now ∧ ∃ rows, cells = rows.map some ∧ s.Answers f junk (stamp - span) key rows

variable {f ttl span junk} {s} {t : State B K Note Row Source} {since since' : ℤ} {key : K}
  {note : Note} {rows : List Row}

theorem InForce.earlier {source : Source} (force : s.InForce since source)
    (earlier : since' ≤ since) : s.InForce since' source :=
  force.imp_right fun ⟨replaced, member, later⟩ => ⟨replaced, member, earlier.trans later⟩

theorem Notes.earlier (notes : s.Notes f junk since key note) (earlier : since' ≤ since) :
    s.Notes f junk since' key note :=
  notes.imp_right fun ⟨source, force, same⟩ => ⟨source, force.earlier earlier, same⟩

theorem Answers.earlier (answers : s.Answers f junk since key rows) (earlier : since' ≤ since) :
    s.Answers f junk since' key rows := by
  obtain ⟨note, source, notes, force, read⟩ := answers
  exact ⟨note, source, notes.earlier earlier, force.earlier earlier, read⟩

/-! ## What a step leaves -/

/-- Sources that were in force stay so. -/
def Later (s t : State B K Note Row Source) : Prop :=
  ∀ since source, since ≤ s.now → s.InForce since source → t.InForce since source

theorem Later.of_same (source : t.source = s.source) (past : t.past = s.past) : Later s t := by
  intro since source' _ force
  rwa [InForce, source, past]

theorem later_edit (s : State B K Note Row Source) (source : Source) :
    Later s { s with source, past := (s.now, s.source) :: s.past } := by
  rintro since source' now_le (rfl | ⟨replaced, member, later⟩)
  · exact Or.inr ⟨s.now, List.mem_cons_self, now_le⟩
  · exact Or.inr ⟨replaced, List.mem_cons_of_mem _ member, later⟩

theorem Notes.later (notes : s.Notes f junk since key note) (later : Later s t)
    (now_le : since ≤ s.now) : t.Notes f junk since key note :=
  notes.imp_right fun ⟨source, force, same⟩ => ⟨source, later since source now_le force, same⟩

theorem Answers.later (answers : s.Answers f junk since key rows) (later : Later s t)
    (now_le : since ≤ s.now) : t.Answers f junk since key rows := by
  obtain ⟨note, source, notes, force, read⟩ := answers
  exact ⟨note, source, notes.later later now_le, later since source now_le force, read⟩

/-- The array of a caller is left to it, with its contents. -/
def Keeps (c c' : CopyCache B K Row) (p : ℕ) : Prop :=
  p ∈ c.callers → p ∈ c'.callers ∧ c'.heap.get? p = c.heap.get? p

theorem Has.keeps {p : ℕ} (has : s.Has p rows) (keeps : Keeps s.cache t.cache p) : t.Has p rows :=
  ⟨(keeps has.1).1, (keeps has.1).2.trans has.2⟩

theorem Allows.mem_callers {l : Lookup K Note} (allows : s.Allows f ttl span junk l) {p : ℕ}
    (own : l.array = some p) : p ∈ s.cache.callers := by
  cases l with
  | idle | missed | noted => cases own
  | filled key since q count =>
      obtain rfl := Option.some.inj own
      obtain ⟨-, rows, -, has, -⟩ := allows
      exact has.1
  | given key ended q =>
      obtain rfl := Option.some.inj own
      obtain ⟨-, rows, has, -⟩ := allows
      exact has.1
  | changed q =>
      obtain rfl := Option.some.inj own
      exact allows

theorem Allows.le_began {l : Lookup K Note} (allows : s.Allows f ttl span junk l)
    (began : since ∈ l.began) : s.now ≤ since + span := by
  cases l with
  | idle | given | changed => cases began
  | missed key since' =>
      obtain rfl := Option.some.inj began
      exact allows.2
  | noted key since' note =>
      obtain rfl := Option.some.inj began
      exact allows.1.2
  | filled key since' p count =>
      obtain rfl := Option.some.inj began
      exact allows.1.2

/-- What holds of a worker holds later, if its array is left to it and its lookup is in time. -/
theorem Allows.later {l : Lookup K Note} (allows : s.Allows f ttl span junk l)
    (ttl_nonneg : 0 ≤ ttl) (span_nonneg : 0 ≤ span) (later : Later s t) (now_le : s.now ≤ t.now)
    (keeps : ∀ p ∈ l.array, Keeps s.cache t.cache p)
    (in_time : ∀ since ∈ l.began, t.now ≤ since + span) : t.Allows f ttl span junk l := by
  cases l with
  | idle => trivial
  | missed key since => exact ⟨allows.1.trans now_le, in_time since rfl⟩
  | noted key since note =>
      obtain ⟨began, notes⟩ := allows
      exact ⟨⟨began.1.trans now_le, in_time since rfl⟩, notes.later later began.1⟩
  | filled key since p count =>
      obtain ⟨began, rows, length, has, answers⟩ := allows
      exact ⟨⟨began.1.trans now_le, in_time since rfl⟩, rows, length, has.keeps (keeps p rfl),
        answers.later later began.1⟩
  | given key ended p =>
      obtain ⟨ended_le, rows, has, answers⟩ := allows
      exact ⟨ended_le.trans now_le, rows, has.keeps (keeps p rfl),
        answers.later later (by omega)⟩
  | changed p => exact (keeps p rfl allows).1

theorem Stores.later {last : LastStores K Row} (stores : s.Stores f span junk last)
    (span_nonneg : 0 ≤ span) (later : Later s t) (now_le : s.now ≤ t.now) :
    t.Stores f span junk last := by
  intro key stamp cells stored
  obtain ⟨stamp_le, rows, cells_eq, answers⟩ := stores key stamp cells stored
  exact ⟨stamp_le.trans now_le, rows, cells_eq, answers.later later (by omega)⟩

/-! ## The invariant -/

section Invariant

variable [DecidableEq K]

/-- The cache is sound, its rows and those of the workers are recent, and no two workers share an
array. -/
structure Recent (f : Fetch Source K Note Row) (hash : K → B) (ttl span : ℤ) (junk : Set Note)
    (s : State B K Note Row Source) : Prop where
  stored : ∃ last, s.cache.Sound hash f.copy last ∧ s.Stores f span junk last
  allowed : ∀ l ∈ s.lookups, s.Allows f ttl span junk l
  apart : ∀ (w w' p : ℕ), (s.lookups[w]?).bind Lookup.array = some p →
    (s.lookups[w']?).bind Lookup.array = some p → w = w'

variable {hash : K → B} {c c' : CopyCache B K Row} {copy : Row → Row} {last : LastStores K Row}
  {p q : ℕ}

theorem keeps_new (sound : c.Sound hash copy last) (cells : Cells Row)
    (made : c.caller (.new cells) = some c') : Keeps c c' p := by
  obtain rfl := Option.some.inj made
  intro own
  refine ⟨Finset.mem_insert_of_mem own, ?_⟩
  rw [ObjectHeap.get?_alloc, if_neg (sound.callers p own).1.ne]

omit [DecidableEq K] in
theorem keeps_write (change : Cells Row → Cells Row)
    (written : c.caller (.write q change) = some c') (other : q ≠ p) : Keeps c c' p := by
  obtain ⟨-, same⟩ := Option.ite_none_right_eq_some.mp written
  obtain rfl := Option.some.inj same
  intro own
  exact ⟨own, by rw [ObjectHeap.get?_write, if_neg other]⟩

omit [DecidableEq K] in
theorem keeps_free (freed : c.caller (.free q) = some c') (other : q ≠ p) : Keeps c c' p := by
  obtain ⟨-, same⟩ := Option.ite_none_right_eq_some.mp freed
  obtain rfl := Option.some.inj same
  intro own
  exact ⟨Finset.mem_erase.mpr ⟨other.symm, own⟩, ObjectHeap.get?_free _ _ _⟩

/-- A store of an array of a caller leaves the arrays of the callers. -/
theorem keeps_put [DecidableEq B] (sound : c.Sound hash copy last) {now : ℤ} {key : K} {count : ℤ}
    (stored : c.put hash copy now key (some q) count = some c') : Keeps c c' p := by
  simp only [CopyCache.put] at stored
  split at stored
  · obtain rfl := Option.some.inj stored
    exact fun own => ⟨own, rfl⟩
  · obtain ⟨-, duplicated⟩ := Option.ite_none_right_eq_some.mp stored
    obtain ⟨heap, heap_eq, rfl⟩ := Option.map_eq_some_iff.mp duplicated
    intro own
    refine ⟨own, ?_⟩
    rw [CopyCache.get?_release]
    unfold CopyCache.dup at heap_eq
    split at heap_eq
    · cases heap_eq
    · obtain ⟨-, same⟩ := Option.ite_none_right_eq_some.mp heap_eq
      obtain rfl := Option.some.inj same
      rw [ObjectHeap.get?_alloc, ObjectHeap.next_use, if_neg (sound.callers p own).1.ne,
        ObjectHeap.get?_use]

/-- A worker goes on with its lookup: it keeps its array, drops it or gets a new one. -/
theorem Recent.go (recent : s.Recent f hash ttl span junk) (ttl_nonneg : 0 ≤ ttl)
    (span_nonneg : 0 ≤ span) {w : ℕ} {l l' : Lookup K Note} (found : s.lookups[w]? = some l)
    (lookups : t.lookups = s.lookups.set w l') (later : Later s t) (now_eq : t.now = s.now)
    (keeps : ∀ p, l.array ≠ some p → Keeps s.cache t.cache p)
    (stored : ∃ last, t.cache.Sound hash f.copy last ∧ t.Stores f span junk last)
    (allowed : t.Allows f ttl span junk l')
    (own : ∀ p, l'.array = some p → l.array = some p ∨ p = s.cache.heap.next) :
    t.Recent f hash ttl span junk := by
  have at_iff (w' : ℕ) : t.lookups[w']? = if w = w' then some l' else s.lookups[w']? := by
    rw [lookups, List.getElem?_set]
    have below := (List.getElem?_eq_some_iff.mp found).1
    split <;> simp_all
  have fresh (w' p : ℕ) (theirs : (s.lookups[w']?).bind Lookup.array = some p) :
      p ≠ s.cache.heap.next := by
    obtain ⟨other, other_eq, array⟩ := Option.bind_eq_some_iff.mp theirs
    obtain ⟨last, sound, -⟩ := recent.stored
    have member := (recent.allowed other (List.mem_of_getElem? other_eq)).mem_callers array
    exact (sound.callers p member).1.ne
  have mine (p : ℕ) (array : l'.array = some p) :
      ∀ w', (s.lookups[w']?).bind Lookup.array = some p → w' = w := by
    intro w' theirs
    rcases own p array with old | new
    · exact recent.apart w' w p theirs (by rw [found]; exact old)
    · exact absurd new (fresh w' p theirs)
  constructor
  · exact stored
  · intro other member
    obtain ⟨w', other_eq⟩ := List.mem_iff_getElem?.mp member
    rw [at_iff] at other_eq
    split at other_eq
    · obtain rfl := Option.some.inj other_eq
      exact allowed
    · rename_i different
      have allows := recent.allowed other (List.mem_of_getElem? other_eq)
      refine allows.later ttl_nonneg span_nonneg later now_eq.ge (fun p array => ?_) ?_
      · refine keeps p fun same => different ?_
        exact recent.apart w w' p (by rw [found]; exact same) (by rw [other_eq]; exact array)
      · intro since began
        rw [now_eq]
        exact allows.le_began began
  · intro w₁ w₂ p array₁ array₂
    rw [at_iff] at array₁ array₂
    split at array₁ <;> split at array₂
    · rename_i same₁ same₂
      exact same₁.symm.trans same₂
    · rename_i same₁ _
      exact same₁.symm.trans (mine p array₁ w₂ array₂).symm
    · rename_i _ same₂
      exact (mine p array₂ w₁ array₁).trans same₂
    · exact recent.apart w₁ w₂ p array₁ array₂

/-! ## The steps -/

variable {w : ℕ}

/-- A worker goes on without the cache. -/
theorem Recent.go_on (recent : s.Recent f hash ttl span junk) (ttl_nonneg : 0 ≤ ttl)
    (span_nonneg : 0 ≤ span) {l l' : Lookup K Note} (found : s.lookups[w]? = some l)
    (allowed : s.Allows f ttl span junk l') (own : ∀ p, l'.array = some p → l.array = some p) :
    State.Recent f hash ttl span junk { s with lookups := s.lookups.set w l' } := by
  refine recent.go ttl_nonneg span_nonneg found rfl (.of_same rfl rfl) rfl
    (fun p _ kept => ⟨kept, rfl⟩) recent.stored ?_ fun p array => Or.inl (own p array)
  cases l' <;> exact allowed

theorem Recent.look (recent : s.Recent f hash ttl span junk) (ttl_nonneg : 0 ≤ ttl)
    (span_nonneg : 0 ≤ span) {key : K} (found : s.lookups[w]? = some .idle)
    (steps : s.look f hash ttl w key = some t) : t.Recent f hash ttl span junk := by
  obtain ⟨last, sound, stores⟩ := recent.stored
  obtain ⟨result, looked, rfl⟩ := Option.map_eq_some_iff.mp steps
  have pair : _ = some (result.1, result.2) := looked
  have sound' : result.2.Sound hash f.copy last := sound.get pair
  rw [sound.get_eq] at looked
  have began : s.InTime span s.now := ⟨le_rfl, by omega⟩
  have missed (result_eq : (none, s.cache) = result) : State.Recent f hash ttl span junk
      { s with
        cache := result.2
        lookups := s.lookups.set w (match result.1 with
          | some copied => .given key s.now copied.1
          | none => .missed key s.now) } := by
    subst result_eq
    exact recent.go_on ttl_nonneg span_nonneg found began fun p array => by cases array
  cases stored : last key with
  | none =>
      rw [stored] at looked
      exact missed (Option.some.inj looked)
  | some store =>
      simp only [stored] at looked
      split at looked
      · rename_i fresh
        have result_eq := Option.some.inj looked
        obtain ⟨stamp_le, rows, rows_eq, answers⟩ := stores key store.1 store.2 stored
        have made : s.cache.caller (.new (store.2 ++ [none])) = some result.2 := by
          rw [← result_eq]
          rfl
        refine recent.go ttl_nonneg span_nonneg found rfl (.of_same rfl rfl) rfl
          (fun p _ => keeps_new sound _ made) ⟨last, sound', stores⟩ ?_ ?_
        · rw [← result_eq]
          refine ⟨le_rfl, rows, ⟨Finset.mem_insert_self _ _, ?_⟩, answers.earlier (by omega)⟩
          change (s.cache.heap.alloc _).get? s.cache.heap.next = _
          rw [ObjectHeap.get?_alloc, if_pos rfl, rows_eq]
        · intro p array
          rw [← result_eq] at array
          exact Or.inr (Option.some.inj array).symm
      · exact missed (Option.some.inj looked)

theorem Recent.fill (recent : s.Recent f hash ttl span junk) (ttl_nonneg : 0 ≤ ttl)
    (span_nonneg : 0 ≤ span) {key : K} {note : Note}
    (found : s.lookups[w]? = some (.noted key since note))
    (steps : s.fill f w key since note = some t) : t.Recent f hash ttl span junk := by
  obtain ⟨began, notes⟩ := recent.allowed _ (List.mem_of_getElem? found)
  obtain ⟨last, sound, stores⟩ := recent.stored
  unfold State.fill at steps
  split at steps
  · obtain rfl := Option.some.inj steps
    exact recent.go_on ttl_nonneg span_nonneg found trivial fun p array => by cases array
  · rename_i rows read
    obtain ⟨cache, made, rfl⟩ := Option.map_eq_some_iff.mp steps
    refine recent.go ttl_nonneg span_nonneg found rfl (.of_same rfl rfl) rfl
      (fun p _ => keeps_new sound _ made) ⟨last, sound.caller made, stores⟩ ?_ ?_
    · obtain rfl := Option.some.inj made
      refine ⟨began, rows, rfl, ⟨Finset.mem_insert_self _ _, ?_⟩, note, s.source, notes,
        Or.inl rfl, read⟩
      change (s.cache.heap.alloc _).get? s.cache.heap.next = _
      rw [ObjectHeap.get?_alloc, if_pos rfl]
    · exact fun p array => Or.inr (Option.some.inj array).symm

theorem Recent.put [DecidableEq B] (recent : s.Recent f hash ttl span junk) (ttl_nonneg : 0 ≤ ttl)
    (span_nonneg : 0 ≤ span) {key : K} {p count : ℕ} {cache : CopyCache B K Row}
    (found : s.lookups[w]? = some (.filled key since p count))
    (stored : s.cache.put hash f.copy s.now key (some p) count = some cache) :
    State.Recent f hash ttl span junk
      { s with cache, lookups := s.lookups.set w (.given key s.now p) } := by
  obtain ⟨began, rows, length, has, answers⟩ := recent.allowed _ (List.mem_of_getElem? found)
  obtain ⟨last, sound, stores⟩ := recent.stored
  have keeps (q : ℕ) : Keeps s.cache cache q := keeps_put sound stored
  refine recent.go ttl_nonneg span_nonneg found rfl (.of_same rfl rfl) rfl (fun q _ => keeps q)
    ⟨_, sound.put f.copy_copy stored, ?_⟩ ?_ fun q array => Or.inl array
  · simp only [CopyCache.noted]
    split
    · exact stores
    · intro key' stamp cells stored'
      by_cases own : key' = key
      · subst own
        rw [Function.update_self, has.2, Option.map_some, Option.map_some] at stored'
        obtain ⟨rfl, rfl⟩ := Prod.mk.inj (Option.some.inj stored')
        refine ⟨le_rfl, rows, ?_, answers.earlier (by have := began.2; omega)⟩
        obtain ⟨_, _, _, _, read⟩ := answers
        rw [Int.toNat_natCast, List.take_left' (by rw [List.length_map, length]), List.map_map]
        exact List.map_congr_left fun row member => congrArg some (f.copied read row member)
      · rw [Function.update_of_ne own] at stored'
        exact stores key' stamp cells stored'
  · exact ⟨le_rfl, rows, has.keeps (keeps p), answers.earlier (by have := began.2; omega)⟩

theorem Recent.write (recent : s.Recent f hash ttl span junk) (ttl_nonneg : 0 ≤ ttl)
    (span_nonneg : 0 ≤ span) {change : Cells Row → Cells Row} {cache : CopyCache B K Row}
    (found : (s.lookups[w]?).bind Lookup.ended = some p)
    (written : s.cache.caller (.write p change) = some cache) :
    State.Recent f hash ttl span junk
      { s with cache, lookups := s.lookups.set w (.changed p) } := by
  obtain ⟨l, l_eq, ended⟩ := Option.bind_eq_some_iff.mp found
  obtain ⟨last, sound, stores⟩ := recent.stored
  have array : l.array = some p := by cases l <;> first | exact ended | cases ended
  refine recent.go ttl_nonneg span_nonneg l_eq rfl (.of_same rfl rfl) rfl
    (fun q other => keeps_write change written fun same => other (same ▸ array))
    ⟨last, sound.caller written, stores⟩ ?_ fun q own => Or.inl (array.trans own)
  obtain ⟨own, same⟩ := Option.ite_none_right_eq_some.mp written
  obtain rfl := Option.some.inj same
  exact own

theorem Recent.release (recent : s.Recent f hash ttl span junk) (ttl_nonneg : 0 ≤ ttl)
    (span_nonneg : 0 ≤ span) {cache : CopyCache B K Row}
    (found : (s.lookups[w]?).bind Lookup.ended = some p)
    (freed : s.cache.caller (.free p) = some cache) :
    State.Recent f hash ttl span junk { s with cache, lookups := s.lookups.set w .idle } := by
  obtain ⟨l, l_eq, ended⟩ := Option.bind_eq_some_iff.mp found
  obtain ⟨last, sound, stores⟩ := recent.stored
  have array : l.array = some p := by cases l <;> first | exact ended | cases ended
  exact recent.go ttl_nonneg span_nonneg l_eq rfl (.of_same rfl rfl) rfl
    (fun q other => keeps_free freed fun same => other (same ▸ array))
    ⟨last, sound.caller freed, stores⟩ trivial fun q own => by cases own

theorem Recent.tick (recent : s.Recent f hash ttl span junk) (ttl_nonneg : 0 ≤ ttl)
    (span_nonneg : 0 ≤ span) {now : ℤ} (now_le : s.now ≤ now)
    (in_time : ∀ l ∈ s.lookups, ∀ since ∈ l.began, now ≤ since + span) :
    State.Recent f hash ttl span junk { s with now } := by
  obtain ⟨last, sound, stores⟩ := recent.stored
  have later : Later s { s with now } := .of_same rfl rfl
  exact
    { stored := ⟨last, sound, stores.later span_nonneg later now_le⟩
      allowed := fun l member => (recent.allowed l member).later ttl_nonneg span_nonneg later
        now_le (fun p _ kept => ⟨kept, rfl⟩) (in_time l member)
      apart := recent.apart }

theorem Recent.edit (recent : s.Recent f hash ttl span junk) (ttl_nonneg : 0 ≤ ttl)
    (span_nonneg : 0 ≤ span) (source : Source) :
    State.Recent f hash ttl span junk
      { s with source, past := (s.now, s.source) :: s.past } := by
  obtain ⟨last, sound, stores⟩ := recent.stored
  have later := later_edit s source
  exact
    { stored := ⟨last, sound, stores.later span_nonneg later le_rfl⟩
      allowed := fun l member => (recent.allowed l member).later ttl_nonneg span_nonneg later
        le_rfl (fun p _ kept => ⟨kept, rfl⟩) fun _ began =>
          (recent.allowed l member).le_began began
      apart := recent.apart }

variable [DecidableEq B]

/-- Every step keeps the invariant, if the notes of first statements without a result are junk. -/
theorem Recent.step (recent : s.Recent f hash ttl span junk) (ttl_nonneg : 0 ≤ ttl)
    (span_nonneg : 0 ≤ span) {action : Action K Note Row Source}
    (lost : ∀ w n, action = .first w (some n) → n ∈ junk)
    (steps : s.step f hash ttl span action = some t) : t.Recent f hash ttl span junk := by
  cases action with
  | tick now =>
      obtain ⟨⟨now_le, in_time⟩, same⟩ := Option.ite_none_right_eq_some.mp steps
      obtain rfl := Option.some.inj same
      exact recent.tick ttl_nonneg span_nonneg now_le in_time
  | edit source =>
      obtain rfl := Option.some.inj steps
      exact recent.edit ttl_nonneg span_nonneg source
  | look w key =>
      simp only [State.step] at steps
      split at steps
      · rename_i found
        exact recent.look ttl_nonneg span_nonneg found steps
      · cases steps
  | first w given =>
      simp only [State.step] at steps
      split at steps
      · rename_i key since found
        obtain rfl := Option.some.inj steps
        have began := recent.allowed _ (List.mem_of_getElem? found)
        refine recent.go_on ttl_nonneg span_nonneg found ⟨began, ?_⟩ fun p array => by cases array
        cases given with
        | none => exact Or.inr ⟨s.source, Or.inl rfl, rfl⟩
        | some n => exact Or.inl (lost w n rfl)
      · cases steps
  | second w given =>
      simp only [State.step] at steps
      split at steps
      · rename_i key since note found
        split at steps
        · obtain rfl := Option.some.inj steps
          exact recent.go_on ttl_nonneg span_nonneg found trivial fun p array => by cases array
        · exact recent.fill ttl_nonneg span_nonneg found steps
      · cases steps
  | put w =>
      simp only [State.step] at steps
      split at steps
      · rename_i key since p count found
        obtain ⟨cache, stored, rfl⟩ := Option.map_eq_some_iff.mp steps
        exact recent.put ttl_nonneg span_nonneg found stored
      · cases steps
  | write w change =>
      simp only [State.step] at steps
      split at steps
      · rename_i p found
        obtain ⟨cache, written, rfl⟩ := Option.map_eq_some_iff.mp steps
        exact recent.write ttl_nonneg span_nonneg found written
      · cases steps
  | release w =>
      simp only [State.step] at steps
      split at steps
      · rename_i p found
        obtain ⟨cache, freed, rfl⟩ := Option.map_eq_some_iff.mp steps
        exact recent.release ttl_nonneg span_nonneg found freed
      · cases steps

omit [DecidableEq B] in
/-- Nothing is cached and no lookup has begun. -/
theorem Recent.start {source : Source} (workers : ℕ) :
    State.Recent f hash ttl span junk
      { source, lookups := List.replicate workers .idle } where
  stored := ⟨fun _ => none, .empty, fun _ _ _ stored => by cases stored⟩
  allowed l member := by
    obtain rfl := List.eq_of_mem_replicate member
    trivial
  apart w w' p array _ := by
    obtain ⟨l, l_eq, own⟩ := Option.bind_eq_some_iff.mp array
    obtain rfl := List.eq_of_mem_replicate (List.mem_of_getElem? l_eq)
    cases own

/-- A run keeps the invariant. -/
theorem Recent.run (recent : s.Recent f hash ttl span junk) (ttl_nonneg : 0 ≤ ttl)
    (span_nonneg : 0 ≤ span) {actions : List (Action K Note Row Source)}
    (lost : ∀ w n, .first w (some n) ∈ actions → n ∈ junk)
    (ran : execAll (State.step f hash ttl span) s actions = some t) :
    t.Recent f hash ttl span junk := by
  induction actions generalizing s with
  | nil =>
      obtain rfl := Option.some.inj ran
      exact recent
  | cons action rest induction =>
      obtain ⟨next, steps, ran⟩ := Option.bind_eq_some_iff.mp ran
      refine induction (recent.step ttl_nonneg span_nonneg (fun w n same => ?_) steps)
        (fun w n member => lost w n (List.mem_cons_of_mem _ member)) ran
      exact lost w n (same ▸ List.mem_cons_self)

end Invariant

end State

end Age

end ReadThrough
