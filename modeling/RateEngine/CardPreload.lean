import RateEngine.Lib.GroupScan
import RateEngine.Lib.KeepFirst
import RateEngine.Lib.RankedRows
import RateEngine.RtCache

/-!
# Preloaded cards

`rt_cache_preload_pcards` asks for the active cards of every account in the subscriber cache with
one statement and cuts the rows into the card arrays of the accounts; `rt_data_q_pcard_sql` asks for
one account.  This file proves that the cache gets the arrays that the single statements would give.
-/

namespace RateEngine

/-! ## The statements -/

/-- `pcard`; its dates have at most ten characters. -/
structure PcardTable where
  rows : List PcardRow
  dates : ∀ row ∈ rows, row.card.start.length ≤ 10 ∧ row.card.stop.length ≤ 10

namespace PcardTable

variable (table : PcardTable)

/-- The rows of the active cards of an account. -/
def activeCards (baccId : ℕ) : List PcardRow :=
  table.rows.filter fun row => row.baccId = baccId ∧ row.card.status = .active

/-- An answer of the statement of `rt_data_q_pcard_sql`: cards of one start date
come in any order. -/
structure Answers (baccId : ℕ) (answer : List PcardRow) : Prop where
  perm : answer.Perm (table.activeCards baccId)
  sorted : answer.Pairwise fun row row' => row.card.ComesFirst row'.card

/-- An answer of the statement of `rt_cache_preload_pcards` for a list of accounts. -/
structure PreloadAnswers (ids : List ℕ) (answer : List PcardRow) : Prop where
  perm : answer.Perm (table.rows.filter fun row => row.baccId ∈ ids ∧ row.card.status = .active)
  sorted : answer.Pairwise fun row row' =>
    row.baccId < row'.baccId ∨ row.baccId = row'.baccId ∧ row.card.ComesFirst row'.card

end PcardTable

/-! ## The code -/

/-- The array that `rt_data_q_pcard_sql` makes of the rows of its statement: a row
of zeros ends it. -/
def rtDataQPcardArray (answer : List PcardRow) : Cells Pcard :=
  answer.map (fun row => some row.card) ++ [none]

/-- `strncpy` of at most `DATE_LEN - 1` characters into a cleared field. -/
def copiedDate (date : String) : String := String.ofList (date.toList.take 31)

/-- The card that the preload makes of a row. -/
def PcardRow.preloaded (row : PcardRow) : Pcard :=
  { row.card with
    start := copiedDate row.card.start
    stop := copiedDate row.card.stop }

/-- Put the cards of one account: allocate and fill an array, put a copy, free the array. -/
def flushCards (clock : ℕ → ℤ) (pcards : CopyCache ℕ ℕ Pcard) (baccId : ℕ) (group : List PcardRow) :
    Option (CopyCache ℕ ℕ Pcard) :=
  let cards := pcards.heap.next
  (pcards.caller (.new (group.map (fun row => some row.preloaded) ++ [none]))).bind fun pcards =>
    (RtCache.pcardPut (clock baccId) pcards baccId (some cards) group.length).bind fun pcards =>
      pcards.caller (.free cards)

/-- The accounts of the subscriber cache, entry by entry. -/
def cachedAccounts (raccs : BucketCache ℕ (List UInt8) RaccData) : List ℕ :=
  (((List.range 256).flatMap raccs.chain).map fun entry => entry.value.baccId).filter (0 < ·)

/-- `bacc_ids`: every account once, while there is room. -/
def baccIds (raccs : BucketCache ℕ (List UInt8) RaccData) : List ℕ :=
  KeepFirst.mergeUpTo 1024 [] (cachedAccounts raccs)

/-- `rt_cache_preload_pcards`: the card table after it.  `answer` is what the statement for some
accounts gives, `clock` the time of the put of an account. -/
def rtCachePreloadPcards (clock : ℕ → ℤ) (answer : List ℕ → Option (List PcardRow))
    (cache : RtCache) : Option (CopyCache ℕ ℕ Pcard) :=
  if baccIds cache.raccs = [] then some cache.pcards
  else
    match answer (baccIds cache.raccs) with
    | none => some cache.pcards
    | some rows => GroupScan.scan (flushCards clock) PcardRow.baccId 0 rows cache.pcards

/-! ## One account -/

section Flush

variable {clock : ℕ → ℤ} {pcards : CopyCache ℕ ℕ Pcard} {last : LastStores ℕ Pcard}

/-- The cards of an account become its last put; every other account keeps its entry. -/
theorem flushCards_spec (sound : pcards.Sound rtCacheHashInt id last) (baccId : ℕ)
    {group : List PcardRow} (nonempty : group ≠ []) :
    ∃ after, flushCards clock pcards baccId group = some after ∧
      after.Sound rtCacheHashInt id (Function.update last baccId
        (some (clock baccId, group.map fun row => some row.preloaded))) ∧
      ∀ other ≠ baccId, after.chains.find rtCacheHashInt other =
        pcards.chains.find rtCacheHashInt other := by
  let cells : Cells Pcard := group.map (fun row => some row.preloaded) ++ [none]
  let filled : CopyCache ℕ ℕ Pcard :=
    { pcards with
      heap := pcards.heap.alloc cells
      callers := insert pcards.heap.next pcards.callers }
  have filled_sound : filled.Sound rtCacheHashInt id last := sound.new cells
  have own : pcards.heap.next ∈ filled.callers := Finset.mem_insert_self _ _
  have content : filled.heap.get? pcards.heap.next = some cells := by
    rw [ObjectHeap.get?_alloc, if_pos rfl]
  have unfreed : filled.heap.frees pcards.heap.next = 0 := (filled_sound.callers _ own).2
  have positive : ¬ ((group.length : ℤ) ≤ 0) := by
    have := List.length_pos_iff.mpr nonempty
    omega
  have enough : group.length ≤ cells.length := by simp [cells]
  have rows : (cells.take group.length).map (Option.map id) =
      group.map fun row => some row.preloaded := by
    simp [cells]
  have copied : (group.map fun row => some row.preloaded).map (Option.map id) =
      group.map fun row => some row.preloaded := by simp
  have stored_sound := filled_sound.store (clock baccId) baccId copied
  rw [List.length_map] at stored_sound
  let stored : CopyCache ℕ ℕ Pcard :=
    { filled with
      chains := filled.chains.put rtCacheHashInt
        ⟨baccId, clock baccId, filled.heap.next, group.length⟩
      heap := CopyCache.release
        (filled.heap.alloc (group.map (fun row => some row.preloaded) ++ [none]))
        (filled.chains.find rtCacheHashInt baccId) }
  have put : RtCache.pcardPut (clock baccId) filled baccId (some pcards.heap.next) group.length =
      some stored := by
    rw [RtCache.pcardPut, CopyCache.put, if_neg positive, if_pos own, Int.toNat_natCast,
      CopyCache.dup_eq unfreed content enough, rows, Option.map_some]
  have freed : stored.caller (.free pcards.heap.next) = some
      { stored with
        heap := stored.heap.free pcards.heap.next
        callers := stored.callers.erase pcards.heap.next } := if_pos own
  refine ⟨_, ?_, stored_sound.caller freed, fun other different => ?_⟩
  · rw [flushCards]
    change (RtCache.pcardPut (clock baccId) filled baccId _ _).bind _ = _
    rw [put, Option.bind_some]
    exact freed
  · exact (BucketCache.find_put ..).trans (if_neg different)

end Flush

/-! ## The rows of one account in the answer for many -/

section Answers

variable {table : PcardTable} {ids : List ℕ} {answer : List PcardRow}

theorem copiedDate_eq {date : String} (short : date.length ≤ 10) : copiedDate date = date := by
  rw [copiedDate, List.take_of_length_le (by rw [String.length_toList]; omega),
    String.ofList_toList]

/-- Both functions make the same card of a row. -/
theorem preloaded_eq {row : PcardRow} (member : row ∈ table.rows) : row.preloaded = row.card := by
  obtain ⟨start, stop⟩ := table.dates row member
  rw [PcardRow.preloaded, copiedDate_eq start, copiedDate_eq stop]

theorem mem_of_preloadAnswers (answers : table.PreloadAnswers ids answer) {row : PcardRow}
    (member : row ∈ answer) :
    row ∈ table.rows ∧ row.baccId ∈ ids ∧ row.card.status = .active := by
  simpa using answers.perm.mem_iff.mp member

/-- The rows of an account are an answer of its own statement. -/
theorem answers_filter (answers : table.PreloadAnswers ids answer) {baccId : ℕ}
    (asked : baccId ∈ ids) :
    table.Answers baccId (answer.filter fun row => row.baccId = baccId) where
  perm := by
    refine (answers.perm.filter _).trans (.of_eq ?_)
    rw [List.filter_filter, PcardTable.activeCards]
    refine List.filter_congr fun row _ => ?_
    by_cases own : row.baccId = baccId
    · simp [own, asked]
    · simp [own]
  sorted := by
    refine (answers.sorted.filter _).imp_of_mem fun {row row'} member member' ordered => ?_
    have own := of_decide_eq_true (List.mem_filter.mp member).2
    have own' := of_decide_eq_true (List.mem_filter.mp member').2
    exact (ordered.resolve_left (by rw [own, own']; exact lt_irrefl _)).2

/-- When the start dates differ the statement has one answer. -/
theorem PcardTable.Answers.unique {baccId : ℕ} {answer other : List PcardRow}
    (answers : table.Answers baccId answer) (answers' : table.Answers baccId other)
    (distinct : (other.map fun row => row.card.start).Nodup) : other = answer := by
  have perm := answers'.perm.trans answers.perm.symm
  refine perm.eq_of_pairwise ?_ answers'.sorted answers.sorted
  intro row row' member member' first second
  have same : row.card.start = row'.card.start := by
    rcases first with absent | ⟨given, below⟩
    · rcases second with absent' | ⟨given, -⟩
      · rw [absent, absent']
      · exact absurd absent given
    · rcases second with absent' | ⟨-, above⟩
      · exact absurd absent' given
      · exact String.le_antisymm above below
  exact List.inj_on_of_nodup_map distinct member (perm.mem_iff.mpr member') same

instance : Std.Total Pcard.ComesFirst where
  total card card' := by
    by_cases absent : card.start = ""
    · exact .inl (.inl absent)
    · by_cases absent' : card'.start = ""
      · exact .inr (.inl absent')
      · rcases String.le_total card.start card'.start with below | above
        · exact .inr (.inr ⟨absent, below⟩)
        · exact .inl (.inr ⟨absent', above⟩)

instance : IsTrans Pcard Pcard.ComesFirst where
  trans card card' card'' first second := by
    rcases first with absent | ⟨given, below⟩
    · exact .inl absent
    · rcases second with absent | ⟨given', below'⟩
      · exact absurd absent given
      · exact .inr ⟨given', String.le_trans below' below⟩

/-- The stable answer of the single statement is one of them. -/
theorem rtDataQPcardSql_answers (table : PcardTable) {db : Db} (same : db.pcard = table.rows)
    (baccId : ℕ) :
    ∃ answer, table.Answers baccId answer ∧
      answer.map PcardRow.card = rtDataQPcardSql db baccId := by
  let before (row row' : PcardRow) : Prop := row.card.ComesFirst row'.card
  refine ⟨(table.activeCards baccId).insertionSort before, ⟨List.perm_insertionSort .., ?_⟩, ?_⟩
  · exact RankedRows.pairwise_insertionSort Pcard.ComesFirst PcardRow.card _
  · rw [rtDataQPcardSql, same]
    exact List.map_insertionSort before Pcard.ComesFirst _ _ fun _ _ _ _ => Iff.rfl

end Answers

/-! ## The preload -/

/-- What the card table is after the preload: the entry of an account that is in the subscriber
cache and has active cards holds what `rt_data_q_pcard_sql` would load; nothing else has changed. -/
structure PcardTable.Preloaded (table : PcardTable) (clock : ℕ → ℤ)
    (raccs : BucketCache ℕ (List UInt8) RaccData) (before after : CopyCache ℕ ℕ Pcard) : Prop where
  cached : ∀ baccId ∈ cachedAccounts raccs, table.activeCards baccId ≠ [] →
    ∃ entry, after.chains.find rtCacheHashInt baccId = some entry ∧ entry.stamp = clock baccId ∧
      after.heap.frees entry.value.1 = 0 ∧
      ∃ answer, table.Answers baccId answer ∧ entry.value.2 = answer.length ∧
        after.heap.get? entry.value.1 = some (rtDataQPcardArray answer) ∧
        ∀ other, table.Answers baccId other → (other.map fun row => row.card.start).Nodup →
          other = answer
  unchanged : ∀ baccId, baccId ∉ cachedAccounts raccs ∨ table.activeCards baccId = [] →
    after.chains.find rtCacheHashInt baccId = before.chains.find rtCacheHashInt baccId

section Preload

variable {table : PcardTable} {raccs : BucketCache ℕ (List UInt8) RaccData}

theorem mem_baccIds (room : (cachedAccounts raccs).toFinset.card ≤ 1024) {baccId : ℕ} :
    baccId ∈ baccIds raccs ↔ baccId ∈ cachedAccounts raccs := by
  rw [baccIds, KeepFirst.mergeUpTo_eq_merge List.nodup_nil (by simpa using room),
    KeepFirst.mem_merge_id]
  exact ⟨fun member => member.resolve_left List.not_mem_nil, .inr⟩

/-- An account of the answer is asked for and has active cards. -/
theorem mem_map_baccId {ids : List ℕ} {rows : List PcardRow}
    (answers : table.PreloadAnswers ids rows)
    {baccId : ℕ} : baccId ∈ rows.map PcardRow.baccId ↔
      baccId ∈ ids ∧ table.activeCards baccId ≠ [] := by
  rw [List.mem_map]
  constructor
  · rintro ⟨row, member, rfl⟩
    obtain ⟨stored, asked, active⟩ := mem_of_preloadAnswers answers member
    exact ⟨asked, List.ne_nil_of_mem (List.mem_filter.mpr ⟨stored, by simp [active]⟩)⟩
  · rintro ⟨asked, given⟩
    obtain ⟨row, active⟩ := List.exists_mem_of_ne_nil _ given
    have member := (answers_filter answers asked).perm.mem_iff.mpr active
    obtain ⟨row_mem, own⟩ := List.mem_filter.mp member
    exact ⟨row, row_mem, of_decide_eq_true own⟩

/-- What the scan has done when it has handed on some accounts. -/
structure Scanned (clock : ℕ → ℤ) (rows : List PcardRow) (before : CopyCache ℕ ℕ Pcard)
    (handed : List ℕ) (pcards : CopyCache ℕ ℕ Pcard) : Prop where
  put : ∃ last, pcards.Sound rtCacheHashInt id last ∧ ∀ baccId ∈ handed, last baccId =
    some (clock baccId,
      (rows.filter fun row => row.baccId = baccId).map fun row => some row.preloaded)
  rest : ∀ baccId ∉ handed,
    pcards.chains.find rtCacheHashInt baccId = before.chains.find rtCacheHashInt baccId

/-- Handing on one account. -/
theorem Scanned.flush {clock : ℕ → ℤ} {rows : List PcardRow} {before pcards : CopyCache ℕ ℕ Pcard}
    {handed : List ℕ} (scanned : Scanned clock rows before handed pcards) {baccId : ℕ}
    (new : baccId ∉ handed) (member : baccId ∈ rows.map PcardRow.baccId) :
    ∃ after, flushCards clock pcards baccId
      (rows.filter fun row => row.baccId = baccId) = some after ∧
      Scanned clock rows before (handed ++ [baccId]) after := by
  obtain ⟨⟨last, sound, noted⟩, rest⟩ := scanned
  have nonempty : (rows.filter fun row => row.baccId = baccId) ≠ [] := by
    obtain ⟨row, row_mem, own⟩ := List.mem_map.mp member
    exact List.ne_nil_of_mem (List.mem_filter.mpr ⟨row_mem, decide_eq_true own⟩)
  obtain ⟨after, flushed, after_sound, kept⟩ := flushCards_spec sound baccId nonempty
  refine ⟨after, flushed, ⟨_, after_sound, fun other among => ?_⟩, fun other absent => ?_⟩
  · rcases List.mem_append.mp among with old | own
    · have different : other ≠ baccId := fun same => new (same ▸ old)
      rw [Function.update_of_ne different]
      exact noted other old
    · rw [List.mem_singleton.mp own, Function.update_self]
  · rw [List.mem_append, List.mem_singleton, not_or] at absent
    exact (kept other absent.2).trans (rest other absent.1)

/-- The scan of an answer hands on the accounts that it has rows of. -/
theorem scan_scanned {ids : List ℕ} {rows : List PcardRow} (answers : table.PreloadAnswers ids rows)
    (clock : ℕ → ℤ) {pcards : CopyCache ℕ ℕ Pcard} {last : LastStores ℕ Pcard}
    (sound : pcards.Sound rtCacheHashInt id last) :
    ∃ after handed, GroupScan.scan (flushCards clock) PcardRow.baccId 0 rows pcards = some after ∧
      Scanned clock rows pcards handed after ∧
      ∀ baccId, baccId ∈ handed ↔ baccId ∈ rows.map PcardRow.baccId := by
  have sorted : rows.Pairwise fun row row' => row.baccId ≤ row'.baccId :=
    answers.sorted.imp fun ordered => ordered.elim le_of_lt fun same => same.1.le
  have start : Scanned clock rows pcards [] pcards :=
    ⟨⟨last, sound, fun _ member => absurd member List.not_mem_nil⟩, fun _ _ => rfl⟩
  exact GroupScan.scan_rule sorted
    (fun _ _ _ scanned new member => scanned.flush new member) 0 start

/-- After the scan the table is preloaded. -/
theorem Scanned.preloaded {ids : List ℕ} {rows : List PcardRow}
    (answers : table.PreloadAnswers ids rows)
    (asked : ∀ baccId, baccId ∈ ids ↔ baccId ∈ cachedAccounts raccs) {clock : ℕ → ℤ}
    {before after : CopyCache ℕ ℕ Pcard} {handed : List ℕ}
    (scanned : Scanned clock rows before handed after)
    (all : ∀ baccId, baccId ∈ handed ↔ baccId ∈ rows.map PcardRow.baccId) :
    table.Preloaded clock raccs before after where
  cached baccId member active := by
    obtain ⟨last, sound, noted⟩ := scanned.put
    have inside := (asked baccId).mpr member
    have put := noted baccId ((all baccId).mpr ((mem_map_baccId answers).mpr ⟨inside, active⟩))
    obtain ⟨entry, found⟩ := Option.isSome_iff_exists.mp (sound.copied baccId _ _ put).1
    obtain ⟨-, unfreed, stored, stored_put, count, content⟩ := sound.stored baccId entry found
    obtain ⟨stamp, rfl⟩ := Prod.mk.inj (Option.some.inj (put.symm.trans stored_put))
    have own := answers_filter answers inside
    refine ⟨entry, found, stamp.symm, unfreed, _, own, ?_, ?_, fun _ other => own.unique other⟩
    · rw [count, List.length_map]
    · rw [content, rtDataQPcardArray]
      congr 2
      refine List.map_congr_left fun row own => ?_
      rw [preloaded_eq (mem_of_preloadAnswers answers (List.mem_of_mem_filter own)).1]
  unchanged baccId without := by
    refine scanned.rest baccId fun member => ?_
    obtain ⟨inside, active⟩ := (mem_map_baccId answers).mp ((all baccId).mp member)
    exact without.elim (fun absent => absent ((asked baccId).mp inside)) fun none => active none

end Preload

/-- Whatever the cache has gone through: when the subscriber cache has at most 1024 accounts, the
preload leaves every account the cards that its own statement would load. -/
theorem rtCachePreloadPcards_preloaded (table : PcardTable) {ops : List RtCacheOp} {cache : RtCache}
    {last : LastPuts} (ran : rtCacheRun ops = some (cache, last))
    (room : (cachedAccounts cache.raccs).toFinset.card ≤ 1024)
    (answer : List ℕ → Option (List PcardRow)) {rows : List PcardRow}
    (answered : answer (baccIds cache.raccs) = some rows)
    (answers : table.PreloadAnswers (baccIds cache.raccs) rows) (clock : ℕ → ℤ) :
    ∃ after, rtCachePreloadPcards clock answer cache = some after ∧
      table.Preloaded clock cache.raccs cache.pcards after := by
  rw [rtCachePreloadPcards]
  by_cases empty : baccIds cache.raccs = []
  · refine ⟨cache.pcards, if_pos empty, fun baccId member _ => ?_, fun _ _ => rfl⟩
    have asked := (mem_baccIds room).mpr member
    rw [empty] at asked
    cases asked
  · rw [if_neg empty, answered]
    have sound := (RtCache.Sound.empty.run ran).pcards
    obtain ⟨after, handed, done, scanned, all⟩ := scan_scanned answers clock sound
    exact ⟨after, done, scanned.preloaded answers (fun _ => mem_baccIds room) all⟩

/-- Account 7 has two active cards and a blocked one; account 8 has a blocked card only. -/
def twoAccounts : PcardTable where
  rows :=
    [⟨7, ⟨1, 10, "2024-01-01", "2024-02-01", .active, .creditCard, 0⟩⟩,
      ⟨7, ⟨2, 20, "2024-02-01", "2024-03-01", .active, .creditCard, 0⟩⟩,
      ⟨7, ⟨3, 30, "2024-03-01", "2024-04-01", .block, .creditCard, 0⟩⟩,
      ⟨8, ⟨4, 40, "2024-01-01", "2024-02-01", .block, .debitCard, 0⟩⟩]
  dates := by decide

/-- One number of each account is in the subscriber cache. -/
def twoNumbers : BucketCache ℕ (List UInt8) RaccData :=
  RtCache.raccPut 0 (RtCache.raccPut 0 .empty ⟨[49, 58, 49], by decide⟩ { baccId := 7 })
    ⟨[49, 58, 50], by decide⟩ { baccId := 8 }

/-- The answer of the statement. -/
def twoCards : List PcardRow :=
  [⟨7, ⟨2, 20, "2024-02-01", "2024-03-01", .active, .creditCard, 0⟩⟩,
    ⟨7, ⟨1, 10, "2024-01-01", "2024-02-01", .active, .creditCard, 0⟩⟩]

theorem rtCachePreloadPcards_preloaded_two :
    ∃ after, rtCachePreloadPcards (fun _ => 5) (fun _ => some twoCards) { raccs := twoNumbers } =
        some after ∧
      twoAccounts.Preloaded (fun _ => 5) twoNumbers {} after := by
  have ran : rtCacheRun [.raccPut 0 ⟨[49, 58, 49], by decide⟩ { baccId := 7 },
      .raccPut 0 ⟨[49, 58, 50], by decide⟩ { baccId := 8 }] =
    some ({ raccs := twoNumbers }, _) := rfl
  have accounts : cachedAccounts twoNumbers = [7, 8] := by decide +kernel
  have room : (cachedAccounts twoNumbers).toFinset.card ≤ 1024 := by
    rw [accounts]
    decide
  refine rtCachePreloadPcards_preloaded twoAccounts ran room (fun _ => some twoCards) rfl ?_ _
  rw [baccIds, accounts]
  constructor
  · decide +kernel
  · decide +kernel

end RateEngine
