import Mathlib.Data.List.Sort
import RateEngine.Lib.GuardedRun
import RateEngine.Maxsec
import RateEngine.RaccCache

/-!
# Blocked cards

`pcard_manager` takes the active cards of an account from the shared cache before it asks the
database, and `rt_prerating_process` blocks a card in the database alone.  A list that was read
before the block stays in the cache until `RT_CACHE_TTL` has passed.  This file follows the lists
through the requests of any number of workers: after a block, a later request grants seconds against
the card from such a list only.
-/

namespace RateEngine

/-! ## Card lists -/

/-- `order by start_date desc`; a card without the date comes first. -/
def Pcard.ComesFirst (card card' : Pcard) : Prop :=
  card.start = "" ∨ card'.start ≠ "" ∧ card'.start ≤ card.start

instance : DecidableRel Pcard.ComesFirst := fun _ _ => inferInstanceAs (Decidable (_ ∨ _))

/-- The statement of `rt_data_q_pcard_sql` for the active cards of an account. -/
def rtDataQPcardSql (db : Db) (baccId : ℕ) : List Pcard :=
  ((db.pcard.filter fun row => row.baccId = baccId ∧ row.card.status = .active).map
    PcardRow.card).insertionSort Pcard.ComesFirst

/-- The cards of an account, with the step at which they were read. -/
structure CardList where
  cards : List Pcard
  readAt : ℕ

/-- The chains of `pcards`. -/
abbrev PcardCache := BucketCache ℕ ℕ CardList

/-- `rt_cache_hash_int`. -/
def rtCacheHashInt (key : ℕ) : ℕ := key % 256

/-- `rt_cache_pcard_get`: the entry of the account while it is fresh. -/
def rtCachePcardGet (cache : PcardCache) (now : ℤ) (baccId : ℕ) : Option (CacheEntry ℕ CardList) :=
  (cache.find rtCacheHashInt baccId).filter fun entry => now - entry.stamp ≤ rtCacheTtl

/-- `rt_cache_pcard_put`. -/
def rtCachePcardPut (cache : PcardCache) (now : ℤ) (baccId : ℕ) (list : CardList) : PcardCache :=
  cache.put rtCacheHashInt ⟨baccId, now, list⟩

/-! ## Requests and workers -/

/-- A call of `rt_maxsec`, with the step at which `pcard_manager` looks for the cards. -/
structure CardRequest where
  env : Env
  pre : Rating
  sim : ℤ
  since : ℕ

/-- Where a request has its cards from: the database, or an entry of the cache with its stamp and
the time at which it was found. -/
inductive CardSource where
  | read
  | cached (stamp looked : ℤ)

/-- What a worker is at. -/
inductive CardTask where
  | idle
  /-- The cache has no fresh entry. -/
  | reading (request : CardRequest) (baccId : ℕ)
  /-- The cards are read and not yet in the cache. -/
  | storing (request : CardRequest) (baccId : ℕ) (list : CardList)
  /-- `pcard_manager` has the cards. -/
  | searching (request : CardRequest) (source : CardSource) (list : CardList)
  /-- `rt_rate_searching` has returned. -/
  | answering (request : CardRequest) (source : CardSource) (list : CardList) (rtp : Racc)
      (card : Pcard)
  /-- `rt_cache_preload_pcards` has read the cards of some accounts. -/
  | preloading (pending : List (ℕ × CardList))

/-- The database, the shared cache, the clock, the number of steps and the workers. -/
structure CardSystem where
  db : Db
  cache : PcardCache := .empty
  clock : ℤ
  tick : ℕ := 0
  task : ℕ → CardTask := fun _ => .idle

/-- The steps of the system. -/
inductive CardAction where
  | wait (seconds : ℕ)
  /-- Other clients of the database write their tables. -/
  | write (db : Db)
  /-- A request comes in, finds its account and asks the cache. -/
  | lookup (w : ℕ) (env : Env) (pre : Rating) (sim : ℤ)
  | select (w : ℕ)
  | store (w : ℕ)
  | search (w : ℕ)
  | answer (w : ℕ)
  /-- A batch rater reads the cards of the accounts that are cached. -/
  | preload (w : ℕ) (baccIds : List ℕ)

/-- The environment of a request that has its cards. -/
def Env.withCards (env : Env) (cards : List Pcard) : Env :=
  { env with pcard := fun _ => some cards }

/-- The worker is between a read of cards and their store. -/
def CardTask.Pending : CardTask → Bool
  | .storing .. | .preloading (_ :: _) => true
  | .idle | .reading .. | .searching .. | .answering .. | .preloading [] => false

namespace CardSystem

/-- A worker goes on to its next task. -/
def goes (s : CardSystem) (w : ℕ) (task : CardTask) : CardSystem :=
  { s with task := Function.update s.task w task, tick := s.tick + 1 }

/-- `rt_maxsec` up to the cache: a request without account or plan is refused. -/
def lookedUp (s : CardSystem) (request : CardRequest) : CardTask :=
  match rtRaccVoipAvA request.env request.pre with
  | none => .idle
  | some rtp =>
      if rtp.bacc.id = 0 ∨ rtp.bplan.id = 0 then .idle
      else
        match rtCachePcardGet s.cache s.clock rtp.bacc.id with
        | some entry => .searching request (.cached entry.stamp s.clock) entry.value
        | none => .reading request rtp.bacc.id

/-- The cards of an account, read now. -/
def read (s : CardSystem) (baccId : ℕ) : CardList := ⟨rtDataQPcardSql s.db baccId, s.tick⟩

/-- A step of the system. -/
def step (s : CardSystem) : CardAction → Option CardSystem
  | .wait seconds => some { s with clock := s.clock + seconds, tick := s.tick + 1 }
  | .write db => some { s with db, tick := s.tick + 1 }
  | .lookup w env pre sim =>
      match s.task w with
      | .idle => some (s.goes w (s.lookedUp ⟨env, pre, sim, s.tick⟩))
      | _ => none
  | .select w =>
      match s.task w with
      | .reading request baccId =>
          some (s.goes w
            (if (s.read baccId).cards = [] then .searching request .read (s.read baccId)
            else .storing request baccId (s.read baccId)))
      | _ => none
  | .store w =>
      match s.task w with
      | .storing request baccId list =>
          some { s.goes w (.searching request .read list) with
            cache := rtCachePcardPut s.cache s.clock baccId list }
      | .preloading ((baccId, list) :: pending) =>
          some { s.goes w (.preloading pending) with
            cache := rtCachePcardPut s.cache s.clock baccId list }
      | .preloading [] => some (s.goes w .idle)
      | _ => none
  | .search w =>
      match s.task w with
      | .searching request source list =>
          match rtMaxsecAccount (request.env.withCards list.cards) request.pre with
          | .error _ => some (s.goes w .idle)
          | .ok (rtp, card) =>
              let searched := rtRateSearching request.env s.db rtp
              some { s.goes w (.answering request source list searched.1 card) with
                db := searched.2 }
      | _ => none
  | .answer w =>
      match s.task w with
      | .answering .. => some (s.goes w .idle)
      | _ => none
  | .preload w baccIds =>
      match s.task w with
      | .idle =>
          some (s.goes w (.preloading
            ((baccIds.filter fun baccId => (s.read baccId).cards ≠ []).map fun baccId =>
              (baccId, s.read baccId))))
      | _ => none

/-- The answer of the worker is a grant against the card. -/
def Grants (s : CardSystem) (w cardId : ℕ) : Bool :=
  match s.task w with
  | .answering request _ _ rtp card =>
      card.id = cardId && (rtMaxsecGrant request.env rtp card request.sim).toOption.isSome
  | _ => false

/-- The rate search of the worker blocks the card: the statement of `rt_prerating_process` has its
effect. -/
def BlocksCard (s : CardSystem) (w cardId : ℕ) : Bool :=
  match s.task w with
  | .searching request _ list =>
      match rtMaxsecAccount (request.env.withCards list.cards) request.pre with
      | .error _ => false
      | .ok (rtp, card) =>
          card.id = cardId && !request.env.lost .pcardSet &&
            decide ((rtRateSearching request.env s.db rtp).2 =
              rtDataQPcardSet request.env s.db cardId .block)
  | _ => false

/-- The request of the worker came to its cards after a step. -/
def Later (s : CardSystem) (w blockedAt : ℕ) : Bool :=
  match s.task w with
  | .answering request .. => blockedAt < request.since
  | _ => false

end CardSystem

/-- Nobody makes the card active. -/
def KeepsBlocked (cardId : ℕ) : CardSystem → CardAction → Prop
  | _, .write db => ∀ row ∈ db.pcard, row.card.id = cardId → row.card.status ≠ .active
  | _, _ => True

/-! ## What a step can do -/

/-- The steps of the system with what they change. -/
inductive CardSystem.Move (s : CardSystem) : CardAction → CardSystem → Prop
  | wait (seconds : ℕ) :
      CardSystem.Move s (.wait seconds) { s with clock := s.clock + seconds, tick := s.tick + 1 }
  | write (db : Db) : CardSystem.Move s (.write db) { s with db, tick := s.tick + 1 }
  | lookup (w : ℕ) (env : Env) (pre : Rating) (sim : ℤ) :
      CardSystem.Move s (.lookup w env pre sim) (s.goes w (s.lookedUp ⟨env, pre, sim, s.tick⟩))
  | selectNone (w : ℕ) {request : CardRequest} {baccId : ℕ}
      (task : s.task w = .reading request baccId) :
      CardSystem.Move s (.select w) (s.goes w (.searching request .read (s.read baccId)))
  | selectCards (w : ℕ) {request : CardRequest} {baccId : ℕ}
      (task : s.task w = .reading request baccId) :
      CardSystem.Move s (.select w) (s.goes w (.storing request baccId (s.read baccId)))
  | store (w : ℕ) {request : CardRequest} {baccId : ℕ} {list : CardList}
      (task : s.task w = .storing request baccId list) :
      CardSystem.Move s (.store w) { s.goes w (.searching request .read list) with
        cache := rtCachePcardPut s.cache s.clock baccId list }
  | storeNext (w : ℕ) {baccId : ℕ} {list : CardList} {pending : List (ℕ × CardList)}
      (task : s.task w = .preloading ((baccId, list) :: pending)) :
      CardSystem.Move s (.store w) { s.goes w (.preloading pending) with
        cache := rtCachePcardPut s.cache s.clock baccId list }
  | storeEnds (w : ℕ) : CardSystem.Move s (.store w) (s.goes w .idle)
  | refuse (w : ℕ) : CardSystem.Move s (.search w) (s.goes w .idle)
  | search (w : ℕ) {request : CardRequest} {source : CardSource} {list : CardList} {rtp : Racc}
      {card : Pcard} (task : s.task w = .searching request source list)
      (found : rtMaxsecAccount (request.env.withCards list.cards) request.pre = .ok (rtp, card)) :
      CardSystem.Move s (.search w)
        { s.goes w
          (.answering request source list (rtRateSearching request.env s.db rtp).1 card) with
          db := (rtRateSearching request.env s.db rtp).2 }
  | answer (w : ℕ) : CardSystem.Move s (.answer w) (s.goes w .idle)
  | preload (w : ℕ) (baccIds : List ℕ) :
      CardSystem.Move s (.preload w baccIds) (s.goes w (.preloading
        ((baccIds.filter fun baccId => (s.read baccId).cards ≠ []).map fun baccId =>
          (baccId, s.read baccId))))

theorem CardSystem.move_of_step {s t : CardSystem} {action : CardAction}
    (steps : s.step action = some t) : CardSystem.Move s action t := by
  cases action with
  | wait seconds =>
      obtain rfl := Option.some.inj steps
      exact .wait seconds
  | write db =>
      obtain rfl := Option.some.inj steps
      exact .write db
  | lookup w env pre sim =>
      rw [step] at steps
      split at steps
      · obtain rfl := Option.some.inj steps
        exact .lookup w env pre sim
      · cases steps
  | select w =>
      rw [step] at steps
      split at steps
      · rename_i task
        obtain rfl := Option.some.inj steps
        split
        · exact .selectNone w task
        · exact .selectCards w task
      · cases steps
  | store w =>
      rw [step] at steps
      split at steps
      · rename_i task
        obtain rfl := Option.some.inj steps
        exact .store w task
      · rename_i task
        obtain rfl := Option.some.inj steps
        exact .storeNext w task
      · obtain rfl := Option.some.inj steps
        exact .storeEnds w
      · cases steps
  | search w =>
      rw [step] at steps
      split at steps
      · rename_i task
        split at steps
        · obtain rfl := Option.some.inj steps
          exact .refuse w
        · rename_i found
          obtain rfl := Option.some.inj steps
          exact .search w task found
      · cases steps
  | answer w =>
      rw [step] at steps
      split at steps
      · obtain rfl := Option.some.inj steps
        exact .answer w
      · cases steps
  | preload w baccIds =>
      rw [step] at steps
      split at steps
      · obtain rfl := Option.some.inj steps
        exact .preload w baccIds
      · cases steps

/-! ## The cards of a request -/

theorem Pcard.withWindow_id (card : Pcard) (window : String × String) :
    (card.withWindow window).id = card.id := by
  simp only [Pcard.withWindow]
  split <;> split <;> rfl

/-- The card that is selected is one of the list. -/
theorem id_mem_of_selectPcard {window : String × String} {current : String} {cards : List Pcard}
    {card : Pcard} (selected : selectPcard window current cards = some card) :
    ∃ other ∈ cards, other.id = card.id := by
  induction cards with
  | nil => cases selected
  | cons first rest induction =>
      have later (found : selectPcard window current rest = some card) :
          ∃ other ∈ first :: rest, other.id = card.id := by
        obtain ⟨other, member, own⟩ := induction found
        exact ⟨other, List.mem_cons_of_mem first member, own⟩
      rw [selectPcard] at selected
      split at selected
      · cases selected
      cases type : first.type with
      | creditCard =>
          simp only [type] at selected
          split at selected
          · obtain rfl := Option.some.inj selected
            exact ⟨first, List.mem_cons_self, (first.withWindow_id window).symm⟩
          · exact later selected
      | debitCard =>
          simp only [type] at selected
          split at selected
          · exact later selected
          split at selected
          · obtain rfl := Option.some.inj selected
            exact ⟨first, List.mem_cons_self, rfl⟩
          · exact later selected
      | unkn =>
          simp only [type] at selected
          exact later selected

/-- The card of a request is one of the list that it holds. -/
theorem id_mem_of_rtMaxsecAccount {env : Env} {cards : List Pcard} {pre : Rating} {rtp : Racc}
    {card : Pcard} (found : rtMaxsecAccount (env.withCards cards) pre = .ok (rtp, card)) :
    ∃ other ∈ cards, other.id = card.id := by
  simp only [rtMaxsecAccount] at found
  split at found
  · cases found
  split at found
  · cases found
  split at found
  · cases found
  split at found
  · cases found
  · rename_i chosen card_eq
    simp only [Except.ok.injEq, Prod.mk.injEq] at found
    obtain ⟨-, rfl⟩ := found
    exact id_mem_of_selectPcard card_eq

/-- A rate search writes nothing, or blocks a card. -/
theorem rtRateSearching_db (env : Env) (db : Db) (rtp : Racc) :
    (rtRateSearching env db rtp).2 = db ∨
      ∃ cardId, (rtRateSearching env db rtp).2 = rtDataQPcardSet env db cardId .block := by
  simp only [rtRateSearching]
  split
  · simp only [rtPreratingProcess]
    split
    · exact .inr ⟨_, rfl⟩
    split
    · split
      · exact .inr ⟨_, rfl⟩
      · exact .inl rfl
    · exact .inl rfl
  · exact .inl rfl

/-- No row of the card is active. -/
def Db.Inactive (db : Db) (cardId : ℕ) : Prop :=
  ∀ row ∈ db.pcard, row.card.id = cardId → row.card.status ≠ .active

/-- Blocking a card makes none active. -/
theorem Db.Inactive.rtDataQPcardSet {db : Db} {cardId : ℕ}
    (inactive : db.Inactive cardId) (env : Env)
    (other : ℕ) : (rtDataQPcardSet env db other .block).Inactive cardId := by
  simp only [RateEngine.rtDataQPcardSet, Env.exec]
  split
  · exact inactive
  · intro row member own
    obtain ⟨old, old_mem, rfl⟩ := List.mem_map.mp member
    split
    · exact PcardStatus.noConfusion
    · rename_i different
      rw [if_neg different] at own
      exact inactive old old_mem own

/-- A card that is blocked has no active row. -/
theorem inactive_rtDataQPcardSet {env : Env} (written : env.lost .pcardSet = false) (db : Db)
    (cardId : ℕ) : (rtDataQPcardSet env db cardId .block).Inactive cardId := by
  intro row member own
  rw [rtDataQPcardSet, Env.exec, written, if_neg Bool.false_ne_true] at member
  obtain ⟨old, -, rfl⟩ := List.mem_map.mp member
  split
  · exact PcardStatus.noConfusion
  · rename_i different
    rw [if_neg different] at own
    exact absurd own different

/-- The cards that are read while a card has no active row are others. -/
theorem ne_of_mem_rtDataQPcardSql {db : Db} {cardId : ℕ} (inactive : db.Inactive cardId)
    (baccId : ℕ) : ∀ card ∈ rtDataQPcardSql db baccId, card.id ≠ cardId := by
  intro card member own
  rw [rtDataQPcardSql, List.mem_insertionSort] at member
  obtain ⟨row, row_mem, rfl⟩ := List.mem_map.mp member
  obtain ⟨row_mem, selected⟩ := List.mem_filter.mp row_mem
  exact inactive row row_mem own (of_decide_eq_true selected).2

/-! ## The lists before a block -/

/-- The lists and the request of a task are from earlier steps. -/
def CardTask.Dated (tick : ℕ) : CardTask → Prop
  | .idle => True
  | .reading request _ => request.since < tick
  | .storing request _ list | .searching request _ list | .answering request _ list _ _ =>
      request.since < tick ∧ list.readAt < tick
  | .preloading pending => ∀ pair ∈ pending, pair.2.readAt < tick

theorem CardTask.Dated.mono {tick : ℕ} {task : CardTask} (dated : task.Dated tick) :
    task.Dated (tick + 1) := by
  cases task with
  | idle => trivial
  | reading => exact Nat.lt_succ_of_lt dated
  | storing | searching | answering => exact ⟨Nat.lt_succ_of_lt dated.1, Nat.lt_succ_of_lt dated.2⟩
  | preloading pending => exact fun pair member => Nat.lt_succ_of_lt (dated pair member)

namespace CardSystem

/-- Nothing in the system is from a later step or a later time. -/
structure Dated (s : CardSystem) : Prop where
  cache : ∀ baccId entry, s.cache.find rtCacheHashInt baccId = some entry →
    entry.value.readAt < s.tick ∧ entry.stamp ≤ s.clock
  task : ∀ w, (s.task w).Dated s.tick

theorem Dated.goes {s : CardSystem} (dated : s.Dated) (w : ℕ) {task : CardTask}
    (next : task.Dated (s.tick + 1)) : (s.goes w task).Dated := by
  refine ⟨fun baccId entry found => ?_, fun w' => ?_⟩
  · obtain ⟨readAt, stamp⟩ := dated.cache baccId entry found
    exact ⟨Nat.lt_succ_of_lt readAt, stamp⟩
  · simp only [CardSystem.goes, Function.update_apply]
    split
    · exact next
    · exact (dated.task w').mono

/-- A worker that goes on stores a list. -/
theorem Dated.stores {s : CardSystem} (dated : s.Dated) (baccId : ℕ) {list : CardList}
    (readAt : list.readAt < s.tick) :
    CardSystem.Dated { s with cache := rtCachePcardPut s.cache s.clock baccId list } := by
  refine ⟨fun key entry found => ?_, dated.task⟩
  simp only [rtCachePcardPut, BucketCache.find_put] at found
  split at found
  · obtain rfl := Option.some.inj found
    exact ⟨readAt, le_rfl⟩
  · exact dated.cache key entry found

theorem fresh_of_rtCachePcardGet {cache : PcardCache} {now : ℤ} {baccId : ℕ}
    {entry : CacheEntry ℕ CardList} (found : rtCachePcardGet cache now baccId = some entry) :
    cache.find rtCacheHashInt baccId = some entry ∧ now ≤ entry.stamp + rtCacheTtl := by
  obtain ⟨found, fresh⟩ := Option.filter_eq_some_iff.mp found
  exact ⟨found, by have := of_decide_eq_true fresh; omega⟩

/-- What a request is at after its lookup. -/
theorem lookedUp_cases (s : CardSystem) (request : CardRequest) :
    s.lookedUp request = .idle ∨ (∃ baccId, s.lookedUp request = .reading request baccId) ∨
      ∃ baccId entry, s.cache.find rtCacheHashInt baccId = some entry ∧
        s.clock ≤ entry.stamp + rtCacheTtl ∧
          s.lookedUp request = .searching request (.cached entry.stamp s.clock) entry.value := by
  rw [lookedUp]
  split
  · exact .inl rfl
  split
  · exact .inl rfl
  split
  · rename_i entry found
    obtain ⟨found, fresh⟩ := fresh_of_rtCachePcardGet found
    exact .inr (.inr ⟨_, entry, found, fresh, rfl⟩)
  · exact .inr (.inl ⟨_, rfl⟩)

theorem Dated.step {s t : CardSystem} {action : CardAction} (dated : s.Dated)
    (steps : s.step action = some t) : t.Dated := by
  have now : s.tick < s.tick + 1 := Nat.lt_succ_self _
  cases move_of_step steps with
  | wait seconds =>
      refine ⟨fun baccId entry found => ?_, fun w => (dated.task w).mono⟩
      obtain ⟨readAt, stamp⟩ := dated.cache baccId entry found
      exact ⟨Nat.lt_succ_of_lt readAt, stamp.trans (by simp)⟩
  | write db =>
      refine ⟨fun baccId entry found => ?_, fun w => (dated.task w).mono⟩
      obtain ⟨readAt, stamp⟩ := dated.cache baccId entry found
      exact ⟨Nat.lt_succ_of_lt readAt, stamp⟩
  | lookup w env pre sim =>
      refine dated.goes w ?_
      rcases s.lookedUp_cases ⟨env, pre, sim, s.tick⟩ with
        idle | ⟨baccId, reading⟩ | ⟨baccId, entry, found, -, hit⟩
      · rw [idle]
        trivial
      · rw [reading]
        exact now
      · rw [hit]
        exact ⟨now, Nat.lt_succ_of_lt (dated.cache baccId entry found).1⟩
  | selectNone w task =>
      have at_task := dated.task w
      rw [task] at at_task
      exact dated.goes w ⟨Nat.lt_succ_of_lt at_task, now⟩
  | selectCards w task =>
      have at_task := dated.task w
      rw [task] at at_task
      exact dated.goes w ⟨Nat.lt_succ_of_lt at_task, now⟩
  | store w task =>
      have at_task := dated.task w
      rw [task] at at_task
      exact (dated.stores _ at_task.2).goes w
        ⟨Nat.lt_succ_of_lt at_task.1, Nat.lt_succ_of_lt at_task.2⟩
  | storeNext w task =>
      have at_task := dated.task w
      rw [task] at at_task
      refine (dated.stores _ (at_task _ List.mem_cons_self)).goes w fun pair member => ?_
      exact Nat.lt_succ_of_lt (at_task pair (List.mem_cons_of_mem _ member))
  | storeEnds w => exact dated.goes w trivial
  | refuse w => exact dated.goes w trivial
  | @search w request source list rtp card task found =>
      have at_task := dated.task w
      rw [task] at at_task
      have next : (CardTask.answering request source list
          (rtRateSearching request.env s.db rtp).1 card).Dated (s.tick + 1) :=
        ⟨Nat.lt_succ_of_lt at_task.1, Nat.lt_succ_of_lt at_task.2⟩
      have gone := dated.goes w next
      exact ⟨gone.cache, gone.task⟩
  | answer w => exact dated.goes w trivial
  | preload w baccIds =>
      refine dated.goes w fun pair member => ?_
      obtain ⟨baccId, -, rfl⟩ := List.mem_map.mp member
      exact now

/-- No worker is between its read of a card list and the store of it. -/
def Quiet (s : CardSystem) : Prop := ∀ w, (s.task w).Pending = false

end CardSystem

/-! ## The lists after a block -/

/-- A block of a card: the step, the time, and whether no store was pending. -/
structure CardBlock where
  cardId : ℕ
  since : ℕ
  clock : ℤ
  quiet : Prop

namespace CardBlock

variable (block : CardBlock)

/-- A list is from before the block, or the card is not in it. -/
def Allows (list : CardList) : Prop :=
  list.readAt ≤ block.since ∨ ∀ card ∈ list.cards, card.id ≠ block.cardId

/-- When no store was pending, an entry from before the block is stored before it. -/
def Stamps (list : CardList) (stamp : ℤ) : Prop :=
  block.quiet → list.readAt ≤ block.since → stamp ≤ block.clock

/-- Where a later request has its list from: a read after the block, or a fresh entry. -/
def Sources (list : CardList) : CardSource → Prop
  | .read => block.since < list.readAt
  | .cached stamp looked => looked ≤ stamp + rtCacheTtl ∧ block.Stamps list stamp

/-- The lists of a task after the block. -/
def Admits : CardTask → Prop
  | .idle | .reading .. => True
  | .storing request _ list =>
      block.Allows list ∧ (block.since < request.since → block.since < list.readAt) ∧
        (block.quiet → block.since < list.readAt)
  | .searching request source list =>
      block.Allows list ∧ (block.since < request.since → block.Sources list source)
  | .answering request source list _ card =>
      block.Allows list ∧ (block.since < request.since → block.Sources list source ∧
        ∃ other ∈ list.cards, other.id = card.id)
  | .preloading pending =>
      ∀ pair ∈ pending, block.Allows pair.2 ∧ (block.quiet → block.since < pair.2.readAt)

/-- What holds from the block on. -/
structure Holds (s : CardSystem) : Prop where
  inactive : s.db.Inactive block.cardId
  tick : block.since < s.tick
  cache : ∀ baccId entry, s.cache.find rtCacheHashInt baccId = some entry →
    block.Allows entry.value ∧ block.Stamps entry.value entry.stamp
  task : ∀ w, block.Admits (s.task w)

variable {block} {s t : CardSystem}

theorem Holds.goes (holds : block.Holds s) (w : ℕ) {task : CardTask} (admits : block.Admits task) :
    block.Holds (s.goes w task) := by
  refine ⟨holds.inactive, Nat.lt_succ_of_lt holds.tick, holds.cache, fun w' => ?_⟩
  simp only [CardSystem.goes, Function.update_apply]
  split
  · exact admits
  · exact holds.task w'

/-- A list that is stored is allowed; one that is stored when no store was pending
is a later one. -/
theorem Holds.stores (holds : block.Holds s) (baccId : ℕ) {list : CardList}
    (allows : block.Allows list) (later : block.quiet → block.since < list.readAt) :
    block.Holds { s with cache := rtCachePcardPut s.cache s.clock baccId list } := by
  refine ⟨holds.inactive, holds.tick, fun key entry found => ?_, holds.task⟩
  simp only [rtCachePcardPut, BucketCache.find_put] at found
  split at found
  · obtain rfl := Option.some.inj found
    exact ⟨allows, fun quiet early => absurd (later quiet) early.not_gt⟩
  · exact holds.cache key entry found

/-- The cards that are read after the block do not have the card. -/
theorem Holds.allows_read (holds : block.Holds s) (baccId : ℕ) : block.Allows (s.read baccId) :=
  .inr (ne_of_mem_rtDataQPcardSql holds.inactive baccId)

theorem Holds.step (holds : block.Holds s) {action : CardAction}
    (keeps : KeepsBlocked block.cardId s action) (steps : s.step action = some t) :
    block.Holds t := by
  cases CardSystem.move_of_step steps with
  | wait seconds => exact ⟨holds.inactive, Nat.lt_succ_of_lt holds.tick, holds.cache, holds.task⟩
  | write db => exact ⟨keeps, Nat.lt_succ_of_lt holds.tick, holds.cache, holds.task⟩
  | lookup w env pre sim =>
      refine holds.goes w ?_
      rcases s.lookedUp_cases ⟨env, pre, sim, s.tick⟩ with
        idle | ⟨baccId, reading⟩ | ⟨baccId, entry, found, fresh, hit⟩
      · rw [idle]
        trivial
      · rw [reading]
        trivial
      · obtain ⟨allows, stamps⟩ := holds.cache baccId entry found
        rw [hit]
        exact ⟨allows, fun _ => ⟨fresh, stamps⟩⟩
  | selectNone w task =>
      exact holds.goes w ⟨holds.allows_read _, fun _ => holds.tick⟩
  | selectCards w task =>
      exact holds.goes w ⟨holds.allows_read _, fun _ => holds.tick, fun _ => holds.tick⟩
  | store w task =>
      have at_task := holds.task w
      rw [task] at at_task
      obtain ⟨allows, read, later⟩ := at_task
      exact (holds.stores _ allows later).goes w ⟨allows, read⟩
  | storeNext w task =>
      have at_task := holds.task w
      rw [task] at at_task
      obtain ⟨allows, later⟩ := at_task _ List.mem_cons_self
      refine (holds.stores _ allows later).goes w fun pair member => ?_
      exact at_task pair (List.mem_cons_of_mem _ member)
  | storeEnds w => exact holds.goes w trivial
  | refuse w => exact holds.goes w trivial
  | @search w request source list rtp card task found =>
      have at_task := holds.task w
      rw [task] at at_task
      have next : block.Admits (.answering request source list
          (rtRateSearching request.env s.db rtp).1 card) :=
        ⟨at_task.1, fun later => ⟨at_task.2 later, id_mem_of_rtMaxsecAccount found⟩⟩
      have gone := holds.goes w next
      have inactive : (rtRateSearching request.env s.db rtp).2.Inactive block.cardId := by
        rcases rtRateSearching_db request.env s.db rtp with same | ⟨cardId, blocks⟩
        · rw [same]
          exact holds.inactive
        · rw [blocks]
          exact holds.inactive.rtDataQPcardSet request.env cardId
      exact ⟨inactive, gone.tick, gone.cache, gone.task⟩
  | answer w => exact holds.goes w trivial
  | preload w baccIds =>
      refine holds.goes w fun pair member => ?_
      obtain ⟨baccId, -, rfl⟩ := List.mem_map.mp member
      exact ⟨holds.allows_read baccId, fun _ => holds.tick⟩

/-- The tasks of earlier steps are admitted. -/
theorem admits_of_dated {task : CardTask} (dated : task.Dated (block.since + 1))
    (quiet : block.quiet → task.Pending = false) : block.Admits task := by
  have early {list : CardList} (readAt : list.readAt < block.since + 1) : block.Allows list :=
    .inl (Nat.le_of_lt_succ readAt)
  have not_later {request : CardRequest} (since : request.since < block.since + 1) :
      ¬ block.since < request.since := (Nat.le_of_lt_succ since).not_gt
  cases task with
  | idle => trivial
  | reading => trivial
  | storing request baccId list =>
      refine ⟨early dated.2, fun later => absurd later (not_later dated.1), fun stores => ?_⟩
      cases quiet stores
  | searching request source list =>
      exact ⟨early dated.2, fun later => absurd later (not_later dated.1)⟩
  | answering request source list rtp card =>
      exact ⟨early dated.2, fun later => absurd later (not_later dated.1)⟩
  | preloading pending =>
      refine fun pair member => ⟨early (dated pair member), fun stores => ?_⟩
      cases pending with
      | nil => cases member
      | cons first rest => cases quiet stores

/-- The step that blocks the card starts the invariant. -/
theorem holds_of_blocksCard (dated : s.Dated) {w cardId : ℕ} (blocks : s.BlocksCard w cardId)
    (steps : s.step (.search w) = some t) :
    CardBlock.Holds ⟨cardId, s.tick, t.clock, t.Quiet⟩ t := by
  have dated' : t.Dated := dated.step steps
  rw [CardSystem.BlocksCard] at blocks
  rw [CardSystem.step] at steps
  split at blocks
  · rename_i request source list task
    rw [task] at steps
    dsimp only at steps
    split at blocks
    · cases blocks
    · rename_i rtp card found
      simp only [Bool.and_eq_true, Bool.not_eq_true', decide_eq_true_eq] at blocks
      obtain ⟨⟨-, written⟩, blocked⟩ := blocks
      rw [found] at steps
      obtain rfl := Option.some.inj steps
      refine ⟨?_, Nat.lt_succ_self _, fun baccId entry found => ?_, fun w' => ?_⟩
      · dsimp only
        rw [blocked]
        exact inactive_rtDataQPcardSet written s.db cardId
      · obtain ⟨readAt, stamp⟩ := dated'.cache baccId entry found
        exact ⟨.inl (Nat.le_of_lt_succ readAt), fun _ _ => stamp⟩
      · exact admits_of_dated (dated'.task w') fun quiet => quiet w'
  · cases blocks

end CardBlock

/-! ## Grants after a block -/

namespace CardSystem

/-- The system before its first request. -/
def start (db : Db) (clock : ℤ) : CardSystem := { db, clock }

/-- The request of the worker has its cards from an entry of the cache that was at most
`RT_CACHE_TTL` old; they were read no later than the step of a block, and when no store was pending
then, the entry was found within `RT_CACHE_TTL` of its time. -/
def FromCache (s : CardSystem) (w blockedAt : ℕ) (clock : ℤ) (quiet : Prop) : Prop :=
  ∃ stamp looked request list rtp card,
    s.task w = .answering request (.cached stamp looked) list rtp card ∧
      looked ≤ stamp + rtCacheTtl ∧ list.readAt ≤ blockedAt ∧
        (quiet → looked ≤ clock + rtCacheTtl)

theorem dated_start (db : Db) (clock : ℤ) : (start db clock).Dated where
  cache _ _ found := by cases found
  task _ := trivial

/-- Once pre-rating has blocked a card, which nobody makes active again, a later request grants
seconds against it only from a list of the cache that was read before the block. -/
theorem fromCache_of_grants {db : Db} {clock : ℤ} {before after : List CardAction}
    {s t u : CardSystem} {w w' cardId : ℕ}
    (earlier : GuardedRun step (fun _ _ => True) (start db clock) before s)
    (blocks : s.BlocksCard w cardId) (steps : s.step (.search w) = some t)
    (run : GuardedRun step (KeepsBlocked cardId) t after u) (later : u.Later w' s.tick)
    (grants : u.Grants w' cardId) :
    u.FromCache w' s.tick t.clock t.Quiet := by
  have dated : s.Dated :=
    earlier.preserves (fun _ steps dated => dated.step steps) (dated_start db clock)
  have holds : CardBlock.Holds ⟨cardId, s.tick, t.clock, t.Quiet⟩ u :=
    run.preserves (fun keeps steps holds => holds.step keeps steps)
      (CardBlock.holds_of_blocksCard dated blocks steps)
  have at_task := holds.task w'
  rw [Later] at later
  rw [Grants] at grants
  cases task : u.task w' with
  | answering request source list rtp card =>
      rw [task] at at_task later grants
      obtain ⟨allows, sources⟩ := at_task
      simp only [decide_eq_true_eq] at later
      simp only [Bool.and_eq_true, decide_eq_true_eq] at grants
      obtain ⟨sources, other, other_mem, own⟩ := sources later
      -- the card is in the list, so the list is from before the block
      have early : list.readAt ≤ s.tick :=
        allows.resolve_right fun others => others other other_mem (own.trans grants.1)
      cases source with
      | read => exact absurd sources early.not_gt
      | cached stamp looked =>
          obtain ⟨fresh, stamps⟩ := sources
          refine ⟨stamp, looked, request, list, rtp, card, task, fresh, early, fun quiet => ?_⟩
          exact fresh.trans (by simpa using stamps quiet early)
  | idle => rw [task] at later; cases later
  | reading => rw [task] at later; cases later
  | storing => rw [task] at later; cases later
  | searching => rw [task] at later; cases later
  | preloading => rw [task] at later; cases later

/-- The prepaid account with its card and too many unpaid balances. -/
def unpaidSystem : CardSystem := start { unpaidDb with pcard := [⟨1, prepaidCard 1⟩] } 0

/-- A first request reads the card and stores it. -/
def firstRequest : List CardAction :=
  [.lookup 0 (prepaidEnv 1) prepaidRequest 0, .select 0, .store 0]

/-- The balances are paid; a second request finds the card in the cache. -/
def secondRequest : List CardAction :=
  [.write { pcard := [⟨1, { prepaidCard 1 with status := .block }⟩] },
    .lookup 1 (prepaidEnv 1) prepaidRequest 0, .search 1]

/-- The first request blocks the card and the second one is granted seconds against it. -/
theorem secondRequest_granted :
    ∃ s t u, execAll step unpaidSystem firstRequest = some s ∧ s.BlocksCard 0 1 = true ∧
      s.step (.search 0) = some t ∧ execAll step t secondRequest = some u ∧
        u.Later 1 s.tick = true ∧ u.Grants 1 1 = true := by
  have checked : ((execAll step unpaidSystem firstRequest).any fun s =>
      s.BlocksCard 0 1 && (s.step (.search 0)).any fun t =>
        (execAll step t secondRequest).any fun u => u.Later 1 s.tick && u.Grants 1 1) = true := by
    decide +kernel
  simp only [Option.any_eq_true, Bool.and_eq_true] at checked
  obtain ⟨s, first, blocks, t, steps, u, second, later, grants⟩ := checked
  exact ⟨s, t, u, first, blocks, steps, second, later, grants⟩

/-- The steps of the second request activate no card. -/
theorem secondRequest_keeps {s t : CardSystem} (executed : execAll step s secondRequest = some t) :
    GuardedRun step (KeepsBlocked 1) s secondRequest t := by
  obtain ⟨paid, pays, executed⟩ := Option.bind_eq_some_iff.mp executed
  obtain ⟨found, lookup, executed⟩ := Option.bind_eq_some_iff.mp executed
  obtain ⟨searched, search, executed⟩ := Option.bind_eq_some_iff.mp executed
  obtain rfl : searched = t := Option.some.inj executed
  refine .cons ?_ pays (.cons trivial lookup (.cons trivial search (.nil searched)))
  intro row member own
  obtain rfl := List.mem_singleton.mp member
  decide

theorem secondRequest_fromCache :
    ∃ s t u, execAll step unpaidSystem firstRequest = some s ∧ s.step (.search 0) = some t ∧
      execAll step t secondRequest = some u ∧ u.FromCache 1 s.tick t.clock t.Quiet := by
  obtain ⟨s, t, u, first, blocks, steps, second, later, grants⟩ := secondRequest_granted
  exact ⟨s, t, u, first, steps, second,
    fromCache_of_grants (GuardedRun.true_iff_execAll.mpr first) blocks steps
      (secondRequest_keeps second) later grants⟩

/-- A later request is granted seconds against a blocked card. -/
theorem blockedCard_authorises :
    ¬ ∀ (db : Db) (clock : ℤ) (before after : List CardAction) (s t u : CardSystem)
        (w w' cardId : ℕ),
      GuardedRun step (fun _ _ => True) (start db clock) before s → s.BlocksCard w cardId = true →
        s.step (.search w) = some t → GuardedRun step (KeepsBlocked cardId) t after u →
          u.Later w' s.tick = true → u.Grants w' cardId = false := by
  intro claim
  obtain ⟨s, t, u, first, blocks, steps, second, later, grants⟩ := secondRequest_granted
  have refused := claim _ _ firstRequest secondRequest s t u 0 1 1
    (GuardedRun.true_iff_execAll.mpr first) blocks steps (secondRequest_keeps second) later
  rw [grants] at refused
  cases refused

end CardSystem

end RateEngine
