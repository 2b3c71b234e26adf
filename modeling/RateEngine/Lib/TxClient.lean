import Mathlib.Data.List.Basic

/-!
# Clients in a transaction

A client performs statements over a connection and goes on with their replies.  A statement is
performed, or refused, or the connection is lost: then it is made again for the statement, or the
statement is not performed and every later one neither, until the connection is made again.  A
connection that is lost or made again takes its open transaction back.

The ideal run of a client is the one in an open transaction in which nothing goes wrong.  A client
is regular when, without a new connection, it makes its ideal run or leaves the transaction stuck,
and writes nothing else.  There is one rule for each way to put clients together, and the rule for
the whole transaction: it takes effect as its ideal run or not at all.
-/

namespace TxClient

variable {State α β : Type}

/-! ## Connections -/

/-- What becomes of a statement. -/
inductive Fate where
  | ok
  | fails
  /-- The connection was lost and is made again. -/
  | reset
  | lost
deriving DecidableEq, Repr

/-- A connection with its transaction. -/
inductive Link (State : Type) where
  | down
  | idle
  | active (state : State)
  | aborted

/-- What the database keeps, and the connection. -/
structure Session (State : Type) where
  durable : State
  link : Link State

/-- A reply: none, an error or an answer. -/
inductive Reply (α : Type) where
  | lost
  | error
  | answer (a : α)

/-- Perform a statement, which the state may refuse, on a connection that is there. -/
def Session.exec (session : Session State) (stmt : State → Option (α × State)) :
    Reply α × Session State :=
  match session.link with
  | .down => (.lost, session)
  | .idle =>
      match stmt session.durable with
      | some done => (.answer done.1, { session with durable := done.2 })
      | none => (.error, session)
  | .active state =>
      match stmt state with
      | some done => (.answer done.1, { session with link := .active done.2 })
      | none => (.error, { session with link := .aborted })
  | .aborted => (.error, session)

/-- Refuse a statement. -/
def Session.refuse (session : Session State) : Reply α × Session State :=
  match session.link with
  | .down => (.lost, session)
  | .idle => (.error, session)
  | .active _ | .aborted => (.error, { session with link := .aborted })

/-- A statement with its fate. -/
def Session.perform (session : Session State) (stmt : State → Option (α × State)) :
    Fate → Reply α × Session State
  | .ok => session.exec stmt
  | .fails => session.refuse
  | .reset => { session with link := .idle }.exec stmt
  | .lost => (.lost, { session with link := .down })

/-- Open a transaction. -/
def Session.start (session : Session State) : Fate → Session State
  | .ok =>
      match session.link with
      | .idle => { session with link := .active session.durable }
      | _ => session
  | .fails => (session.refuse : Reply Unit × Session State).2
  | .reset => { session with link := .active session.durable }
  | .lost => { session with link := .down }

/-- End a transaction. -/
def Session.commit (session : Session State) : Fate → Session State
  | .ok =>
      match session.link with
      | .down => session
      | .active state => ⟨state, .idle⟩
      | .idle | .aborted => { session with link := .idle }
  | .fails =>
      match session.link with
      | .down => session
      | _ => { session with link := .idle }
  | .reset => { session with link := .idle }
  | .lost => { session with link := .down }

/-! ## Clients -/

/-- The fates that come, and the session. -/
abbrev World (State : Type) := List Fate × Session State

/-- A client. -/
abbrev Client (State α : Type) := StateM (World State) α

/-- The next fate; statements that have none are performed. -/
def nextFate (fates : List Fate) : Fate := fates.headD .ok

/-- Perform a statement. -/
def stmt (f : State → Option (α × State)) : Client State (Reply α) := fun world =>
  let reply := world.2.perform f (nextFate world.1)
  (reply.1, world.1.tail, reply.2)

/-- Read the state. -/
def query (f : State → α) : Client State (Reply α) := stmt fun state => some (f state, state)

theorem bind_run (m : Client State α) (f : α → Client State β) (world : World State) :
    (m >>= f) world = f (m world).1 (m world).2 := rfl

/-- A client between the begin and the end of a transaction. -/
def transaction (m : Client State α) : Client State α := fun world =>
  let opened : World State := (world.1.tail, world.2.start (nextFate world.1))
  let worked := m opened
  (worked.1, worked.2.1.tail, worked.2.2.commit (nextFate worked.2.1))

/-! ## Inside a transaction -/

/-- What a client gives and makes in an open transaction when nothing goes wrong; nothing when the
state refuses a statement. -/
def ideal (m : Client State α) (t : State) : Option (α × State) :=
  match (m ([], ⟨t, .active t⟩)).2.2.link with
  | .active t' => some ((m ([], ⟨t, .active t⟩)).1, t')
  | _ => none

/-- The connection is not made again. -/
def Kept (fates : List Fate) : Prop := .reset ∉ fates

instance (fates : List Fate) : Decidable (Kept fates) := inferInstanceAs (Decidable (_ ∉ _))

/-- Nothing goes wrong. -/
def Fine (fates : List Fate) : Prop := ∀ fate ∈ fates, fate = .ok

/-- The transaction can do nothing any more. -/
def Link.Stuck : Link State → Prop
  | .down | .aborted => True
  | .idle | .active _ => False

/-- A client that makes its ideal run or leaves the transaction stuck. -/
structure Regular (m : Client State α) : Prop where
  active : ∀ fates durable t, Kept fates → ∃ a rest link,
    m (fates, ⟨durable, .active t⟩) = (a, rest, ⟨durable, link⟩) ∧ rest <:+ fates ∧
      (link.Stuck ∧ (Fine fates → ideal m t = none) ∨
        ∃ t', link = .active t' ∧ ideal m t = some (a, t'))
  stuck : ∀ fates durable link, Kept fates → Link.Stuck link → ∃ a rest link',
    m (fates, ⟨durable, link⟩) = (a, rest, ⟨durable, link'⟩) ∧ rest <:+ fates ∧ link'.Stuck

theorem Kept.suffix {fates rest : List Fate} (kept : Kept fates) (suffix : rest <:+ fates) :
    Kept rest := fun member => kept (suffix.mem member)

theorem Fine.suffix {fates rest : List Fate} (fine : Fine fates) (suffix : rest <:+ fates) :
    Fine rest := fun fate member => fine fate (suffix.mem member)

theorem Fine.nil : Fine [] := fun _ member => absurd member List.not_mem_nil

theorem Kept.nil : Kept [] := List.not_mem_nil

theorem Kept.next {fates : List Fate} (kept : Kept fates) : nextFate fates ≠ .reset := by
  cases fates with
  | nil =>
      intro same
      cases same
  | cons fate fates =>
      intro same
      exact kept (same ▸ List.mem_cons_self)

theorem Fine.next {fates : List Fate} (fine : Fine fates) : nextFate fates = .ok := by
  cases fates with
  | nil => rfl
  | cons fate fates => exact fine fate List.mem_cons_self

/-- A run that leaves the transaction open is the ideal one. -/
theorem ideal_eq_some {m : Client State α} {t t' : State} {a : α} {rest : List Fate}
    {durable : State} (run : m ([], ⟨t, .active t⟩) = (a, rest, ⟨durable, .active t'⟩)) :
    ideal m t = some (a, t') := by
  rw [ideal, run]

theorem ideal_eq_none {m : Client State α} {t : State} {a : α} {rest : List Fate}
    {durable : State} {link : Link State} (stuck : link.Stuck)
    (run : m ([], ⟨t, .active t⟩) = (a, rest, ⟨durable, link⟩)) : ideal m t = none := by
  rw [ideal, run]
  cases link with
  | down | aborted => rfl
  | idle | active => exact stuck.elim

@[simp] theorem ideal_pure (a : α) (t : State) :
    ideal (pure a : Client State α) t = some (a, t) := rfl

theorem ideal_stmt (f : State → Option (α × State)) (t : State) :
    ideal (stmt f) t = (f t).map (Prod.map .answer id) := by
  cases done : f t with
  | none =>
      have run : stmt f ([], ⟨t, .active t⟩) = (.error, [], ⟨t, .aborted⟩) := by
        simp [stmt, nextFate, Session.perform, Session.exec, done]
      have stuck : Link.Stuck (.aborted : Link State) := trivial
      exact ideal_eq_none stuck run
  | some result =>
      have run : stmt f ([], ⟨t, .active t⟩) = (.answer result.1, [], ⟨t, .active result.2⟩) := by
        simp [stmt, nextFate, Session.perform, Session.exec, done]
      exact ideal_eq_some run

theorem ideal_stmt_eq_some {f : State → Option (α × State)} {t t' : State} {a : α}
    (done : f t = some (a, t')) : ideal (stmt f) t = some (.answer a, t') := by
  rw [ideal_stmt, done]
  rfl

@[simp] theorem ideal_query (f : State → α) (t : State) :
    ideal (query f) t = some (.answer (f t), t) := by
  rw [query, ideal_stmt]
  rfl

/-- The ideal run of clients one after the other. -/
theorem ideal_bind {m : Client State α} {f : α → Client State β} (first : Regular m)
    (later : ∀ a, Regular (f a)) (t : State) :
    ideal (m >>= f) t = (ideal m t).bind fun done => ideal (f done.1) done.2 := by
  obtain ⟨a, rest, link, run, suffix, ends⟩ := first.active [] t t Kept.nil
  obtain rfl : rest = [] := List.suffix_nil.mp suffix
  have unfolded : (m >>= f) ([], ⟨t, .active t⟩) = f a ([], ⟨t, link⟩) := by
    rw [bind_run, run]
  rcases ends with ⟨stuck, refused⟩ | ⟨t', rfl, done⟩
  · obtain ⟨b, rest', link', run', -, stuck'⟩ := (later a).stuck [] t link Kept.nil stuck
    rw [refused Fine.nil, Option.bind_none]
    exact ideal_eq_none stuck' (unfolded.trans run')
  · rw [done, Option.bind_some]
    obtain ⟨b, rest', link', run', -, ends⟩ := (later a).active [] t t' Kept.nil
    rcases ends with ⟨stuck, refused⟩ | ⟨t'', rfl, done'⟩
    · rw [refused Fine.nil]
      exact ideal_eq_none stuck (unfolded.trans run')
    · rw [done']
      exact ideal_eq_some (unfolded.trans run')

namespace Regular

theorem pure (a : α) : Regular (Pure.pure a : Client State α) where
  active fates _ t _ := ⟨a, fates, _, rfl, List.suffix_rfl, .inr ⟨t, rfl, rfl⟩⟩
  stuck fates _ _ _ stuck := ⟨a, fates, _, rfl, List.suffix_rfl, stuck⟩

theorem bind {m : Client State α} {f : α → Client State β} (first : Regular m)
    (later : ∀ a, Regular (f a)) : Regular (m >>= f) where
  active fates durable t kept := by
    obtain ⟨a, rest, link, run, suffix, ends⟩ := first.active fates durable t kept
    have kept' := kept.suffix suffix
    have unfolded : (m >>= f) (fates, ⟨durable, .active t⟩) = f a (rest, ⟨durable, link⟩) := by
      rw [bind_run, run]
    rw [unfolded, ideal_bind first later]
    rcases ends with ⟨stuck, refused⟩ | ⟨t', rfl, done⟩
    · obtain ⟨b, rest', link', run', suffix', stuck'⟩ :=
        (later a).stuck rest durable link kept' stuck
      refine ⟨b, rest', link', run', suffix'.trans suffix, .inl ⟨stuck', fun fine => ?_⟩⟩
      rw [refused fine, Option.bind_none]
    · obtain ⟨b, rest', link', run', suffix', ends⟩ := (later a).active rest durable t' kept'
      refine ⟨b, rest', link', run', suffix'.trans suffix, ?_⟩
      rw [done, Option.bind_some]
      exact ends.imp_left (And.imp_right fun refused fine => refused (fine.suffix suffix))
  stuck fates durable link kept stuck := by
    obtain ⟨a, rest, link', run, suffix, stuck⟩ := first.stuck fates durable link kept stuck
    obtain ⟨b, rest', link'', run', suffix', stuck'⟩ :=
      (later a).stuck rest durable link' (kept.suffix suffix) stuck
    refine ⟨b, rest', link'', ?_, suffix'.trans suffix, stuck'⟩
    rw [bind_run, run, run']

theorem stmt (f : State → Option (α × State)) : Regular (TxClient.stmt f) where
  active fates durable t kept := by
    have run : TxClient.stmt f (fates, ⟨durable, .active t⟩) =
        ((Session.perform ⟨durable, .active t⟩ f (nextFate fates)).1, fates.tail,
          (Session.perform ⟨durable, .active t⟩ f (nextFate fates)).2) := rfl
    have suffix : fates.tail <:+ fates := List.tail_suffix fates
    have wrong {fate : Fate} (next : nextFate fates = fate) (other : fate ≠ .ok) :
        Fine fates → ideal (TxClient.stmt f) t = none :=
      fun fine => absurd (next.symm.trans fine.next) other
    cases fate : nextFate fates with
    | ok =>
        rw [fate] at run
        cases done : f t with
        | none =>
            have performed : Session.perform ⟨durable, .active t⟩ f .ok =
                (.error, ⟨durable, .aborted⟩) := by
              simp only [Session.perform, Session.exec, done]
            rw [performed] at run
            refine ⟨_, _, _, run, suffix, .inl ⟨trivial, fun _ => ?_⟩⟩
            rw [ideal_stmt, done]
            rfl
        | some result =>
            have performed : Session.perform ⟨durable, .active t⟩ f .ok =
                (.answer result.1, ⟨durable, .active result.2⟩) := by
              simp only [Session.perform, Session.exec, done]
            rw [performed] at run
            refine ⟨_, _, _, run, suffix, .inr ⟨result.2, rfl, ?_⟩⟩
            rw [ideal_stmt, done]
            rfl
    | fails =>
        rw [fate] at run
        exact ⟨_, _, _, run, suffix, .inl ⟨trivial, wrong fate (by decide)⟩⟩
    | reset => exact absurd fate kept.next
    | lost =>
        rw [fate] at run
        exact ⟨_, _, _, run, suffix, .inl ⟨trivial, wrong fate (by decide)⟩⟩
  stuck fates durable link kept stuck := by
    have run : TxClient.stmt f (fates, ⟨durable, link⟩) =
        ((Session.perform ⟨durable, link⟩ f (nextFate fates)).1, fates.tail,
          (Session.perform ⟨durable, link⟩ f (nextFate fates)).2) := rfl
    have suffix : fates.tail <:+ fates := List.tail_suffix fates
    cases fate : nextFate fates with
    | reset => exact absurd fate kept.next
    | lost =>
        rw [fate] at run
        exact ⟨_, _, _, run, suffix, trivial⟩
    | ok | fails =>
        rw [fate] at run
        cases link with
        | down | aborted => exact ⟨_, _, _, run, suffix, trivial⟩
        | idle | active => exact stuck.elim

theorem query (f : State → α) : Regular (TxClient.query f) := stmt _

end Regular

/-! ## Whole transactions -/

/-- The transaction begins, and the connection is not made again in it. -/
def Whole : List Fate → Prop
  | [] => True
  | first :: rest => first ≠ .fails ∧ Kept rest

theorem Whole.kept_tail {fates : List Fate} (whole : Whole fates) : Kept fates.tail := by
  cases fates with
  | nil => exact Kept.nil
  | cons first rest => exact whole.2

theorem Whole.next {fates : List Fate} (whole : Whole fates) : nextFate fates ≠ .fails := by
  cases fates with
  | nil =>
      intro same
      cases same
  | cons first rest => exact whole.1

/-- The end of a transaction in which nothing can be done any more. -/
theorem Session.commit_stuck {durable : State} {link : Link State} (stuck : link.Stuck)
    (fate : Fate) : (Session.commit ⟨durable, link⟩ fate).durable = durable := by
  cases link with
  | down | aborted => cases fate <;> rfl
  | idle | active => exact stuck.elim

/-- The end of a transaction that can be committed. -/
theorem Session.commit_active (durable t : State) (fate : Fate) :
    (Session.commit ⟨durable, .active t⟩ fate).durable = if fate = .ok then t else durable := by
  cases fate <;> rfl

/-- A transaction takes effect as its ideal run or not at all; it does when nothing goes wrong. -/
theorem Regular.transaction {m : Client State α} (regular : Regular m) {fates : List Fate}
    (whole : Whole fates) (durable : State) :
    let result := TxClient.transaction m (fates, ⟨durable, .idle⟩)
    result.2.2.durable = durable ∧ (Fine fates → ideal m durable = none) ∨
      ideal m durable = some (result.1, result.2.2.durable) := by
  intro result
  have unfolded : result = ((m (fates.tail, Session.start ⟨durable, .idle⟩ (nextFate fates))).1,
      (m (fates.tail, Session.start ⟨durable, .idle⟩ (nextFate fates))).2.1.tail,
      (m (fates.tail, Session.start ⟨durable, .idle⟩ (nextFate fates))).2.2.commit
        (nextFate (m (fates.tail, Session.start ⟨durable, .idle⟩ (nextFate fates))).2.1)) := rfl
  have tail : fates.tail <:+ fates := List.tail_suffix fates
  have opened (active : Session.start ⟨durable, .idle⟩ (nextFate fates) =
      ⟨durable, .active durable⟩) :
      result.2.2.durable = durable ∧ (Fine fates → ideal m durable = none) ∨
        ideal m durable = some (result.1, result.2.2.durable) := by
    obtain ⟨a, rest, link, run, suffix, ends⟩ :=
      regular.active fates.tail durable durable whole.kept_tail
    rw [active, run] at unfolded
    rw [unfolded]
    rcases ends with ⟨stuck, refused⟩ | ⟨t, rfl, done⟩
    · exact .inl ⟨Session.commit_stuck stuck _, fun fine => refused (fine.suffix tail)⟩
    · simp only [Session.commit_active]
      by_cases committed : nextFate rest = .ok
      · rw [if_pos committed]
        exact .inr done
      · rw [if_neg committed]
        exact .inl ⟨rfl, fun fine => absurd (fine.suffix (suffix.trans tail)).next committed⟩
  cases fate : nextFate fates with
  | ok => exact opened (by rw [fate]; rfl)
  | reset => exact opened (by rw [fate]; rfl)
  | fails => exact absurd fate whole.next
  | lost =>
      have wrong (fine : Fine fates) : ideal m durable = none :=
        absurd (fate.symm.trans fine.next) (by decide)
      have down : Session.start ⟨durable, .idle⟩ (nextFate fates) = ⟨durable, .down⟩ := by
        rw [fate]
        rfl
      obtain ⟨a, rest, link, run, -, stuck⟩ :=
        regular.stuck fates.tail durable .down whole.kept_tail trivial
      rw [down, run] at unfolded
      rw [unfolded]
      exact .inl ⟨Session.commit_stuck stuck _, wrong⟩

end TxClient
