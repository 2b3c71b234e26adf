import RateEngine.Lib.TxClient
import RateEngine.ProfileTables

/-!
# Registration of the CDR profiles

`cdr_cfg_profile_insert` looks a profile up or inserts it, with its server, the connection of its
remote database and its filters, in one transaction over several statements whose failures it does
not look at.  This file follows the statements: when nothing goes wrong the transaction is the
registration of the profile, and otherwise it is stuck.
-/

namespace RateEngine

open TxClient

/-! ## `cdr_cfg_profile_insert` -/

/-- `result->rows == 1`: the one number of a reply, else zero. -/
def oneRow : Reply (List ℕ) → ℕ
  | .answer [n] => n
  | _ => 0

/-- A count, or `-3` when `db_select` fails; an error leaves no row. -/
def countRow : Reply ℕ → ℤ
  | .lost => -3
  | .error => 0
  | .answer n => n

/-- A statement without an answer. -/
def changeTables (f : ProfileTables → ProfileTables) : Client ProfileTables (Reply Unit) :=
  stmt fun tables => some ((), f tables)

/-- `cdr_cfg_get_cdr_profile_id`. -/
def cdrCfgGetCdrProfileId (profileName : String) : Client ProfileTables ℕ := do
  let reply ← query fun tables => tables.profileIds profileName
  return oneRow reply

/-- `cdr_cfg_insert_profile`. -/
def cdrCfgInsertProfile (cfg : ProfileCfg) : Client ProfileTables ℕ := do
  let _ ← stmt (ProfileTables.insertProfile ⟨cfg.profileName, cfg.profileVersion⟩)
  cdrCfgGetCdrProfileId cfg.profileName

/-- `cdr_cfg_get_cdr_server_id`. -/
def cdrCfgGetCdrServerId (cdrProfileId : ℕ) : Client ProfileTables ℕ := do
  let reply ← query fun tables => tables.serverIds cdrProfileId
  return oneRow reply

/-- `cdr_cfg_insert_server`. -/
def cdrCfgInsertServer (cfg : ProfileCfg) (cdrProfileId : ℕ) : Client ProfileTables ℕ := do
  let _ ← changeTables (ProfileTables.insertServer ⟨cdrProfileId, cfg.t.getModeId⟩)
  cdrCfgGetCdrServerId cdrProfileId

/-- `cdr_cfg_insert_dbstorage`, with `cdr_cfg_get_cdr_dbstorage`. -/
def cdrCfgInsertDbstorage (cfg : ProfileCfg) (cdrServerId : ℕ) : Client ProfileTables Unit :=
  match cfg.t, cfg.profileDbType with
  | .db, some storage => do
      if cdrServerId = 0 then return
      let count ← query fun tables => tables.dbstorageCount cdrServerId
      if countRow count ≠ 0 then return
      let _ ← stmt (ProfileTables.insertDbstorage
        ⟨cdrServerId, storage, dbstorageTypeId storage.dbtype⟩)
  | _, _ => return

/-- `cdr_cfg_insert_filters`: it stops when the connection is lost. -/
def cdrCfgInsertFilters (cdrProfileId cdrServerId : ℕ) :
    List ProfileFilter → Client ProfileTables Unit
  | [] => return
  | filter :: filters => do
      if filter.filteringPrefix = "" then return
      match ← changeTables (ProfileTables.insertFilter ⟨cdrProfileId, cdrServerId, filter⟩) with
      | .lost => return
      | _ => cdrCfgInsertFilters cdrProfileId cdrServerId filters

/-- A profile without an id is inserted with its server. -/
def cdrCfgNewIds (cfg : ProfileCfg) : Client ProfileTables (ℕ × ℕ) := do
  let cdrProfileId := toUshort (← cdrCfgInsertProfile cfg)
  let cdrServerId := toUshort (← cdrCfgInsertServer cfg cdrProfileId)
  return (cdrProfileId, cdrServerId)

/-- A profile with an id gets a server when it has none. -/
def cdrCfgKnownIds (cfg : ProfileCfg) (cdrProfileId : ℕ) : Client ProfileTables (ℕ × ℕ) := do
  let cdrServerId := toUshort (← cdrCfgGetCdrServerId cdrProfileId)
  if cdrServerId = 0 then
    return (cdrProfileId, toUshort (← cdrCfgInsertServer cfg cdrProfileId))
  else return (cdrProfileId, cdrServerId)

/-- The ids of a profile: those that it has, or those that are inserted for it. -/
def cdrCfgProfileIds (cfg : ProfileCfg) : Client ProfileTables (ℕ × ℕ) := do
  let cdrProfileId := toUshort (← cdrCfgGetCdrProfileId cfg.profileName)
  if cdrProfileId = 0 then cdrCfgNewIds cfg else cdrCfgKnownIds cfg cdrProfileId

/-- The filters of a profile without any, with `cdr_cfg_get_cdr_profile_filters`. -/
def cdrCfgProfileFilters (cfg : ProfileCfg) (ids : ℕ × ℕ) : Client ProfileTables Unit :=
  match cfg.filters with
  | none => return
  | some filters => do
      if ids.1 = 0 then return
      let count ← query fun tables => tables.filterCount ids.1
      if countRow count ≠ 0 then return
      cdrCfgInsertFilters ids.1 ids.2 filters

/-- What `cdr_cfg_profile_insert` does in its transaction. -/
def cdrCfgProfileUnit (cfg : ProfileCfg) : Client ProfileTables (ℕ × ℕ) := do
  let ids ← cdrCfgProfileIds cfg
  cdrCfgInsertDbstorage cfg ids.2
  cdrCfgProfileFilters cfg ids
  return ids

/-- `cdr_cfg_profile_insert`: the ids that the profile gets.  A profile without a name is not
registered. -/
def cdrCfgProfileInsert (cfg : ProfileCfg) : Client ProfileTables (ℕ × ℕ) :=
  if cfg.profileName = "" then return (0, 0) else transaction (cdrCfgProfileUnit cfg)

/-! ## Every registration is regular -/

theorem cdrCfgGetCdrProfileId_regular (profileName : String) :
    Regular (cdrCfgGetCdrProfileId profileName) := (Regular.query _).bind fun _ => .pure _

theorem cdrCfgInsertProfile_regular (cfg : ProfileCfg) : Regular (cdrCfgInsertProfile cfg) :=
  (Regular.stmt _).bind fun _ => cdrCfgGetCdrProfileId_regular _

theorem cdrCfgGetCdrServerId_regular (cdrProfileId : ℕ) :
    Regular (cdrCfgGetCdrServerId cdrProfileId) := (Regular.query _).bind fun _ => .pure _

theorem cdrCfgInsertServer_regular (cfg : ProfileCfg) (cdrProfileId : ℕ) :
    Regular (cdrCfgInsertServer cfg cdrProfileId) :=
  (Regular.stmt _).bind fun _ => cdrCfgGetCdrServerId_regular _

theorem cdrCfgInsertDbstorage_regular (cfg : ProfileCfg) (cdrServerId : ℕ) :
    Regular (cdrCfgInsertDbstorage cfg cdrServerId) := by
  unfold cdrCfgInsertDbstorage
  split
  · split
    · exact .pure _
    · refine (Regular.query _).bind fun count => ?_
      split
      · exact .pure _
      · exact (Regular.stmt _).bind fun _ => .pure _
  · exact .pure _

theorem cdrCfgInsertFilters_regular (cdrProfileId cdrServerId : ℕ) (filters : List ProfileFilter) :
    Regular (cdrCfgInsertFilters cdrProfileId cdrServerId filters) := by
  induction filters with
  | nil => exact .pure _
  | cons filter filters induction =>
      unfold cdrCfgInsertFilters
      split
      · exact .pure _
      · refine (Regular.stmt _).bind fun reply => ?_
        cases reply with
        | lost => exact .pure _
        | error | answer => exact induction

theorem cdrCfgNewIds_regular (cfg : ProfileCfg) : Regular (cdrCfgNewIds cfg) :=
  (cdrCfgInsertProfile_regular cfg).bind fun _ =>
    (cdrCfgInsertServer_regular cfg _).bind fun _ => .pure _

theorem cdrCfgKnownIds_regular (cfg : ProfileCfg) (cdrProfileId : ℕ) :
    Regular (cdrCfgKnownIds cfg cdrProfileId) := by
  refine (cdrCfgGetCdrServerId_regular _).bind fun found => ?_
  dsimp only
  split
  · exact (cdrCfgInsertServer_regular _ _).bind fun _ => .pure _
  · exact .pure _

/-- What is done with the id that was found. -/
theorem cdrCfgFoundIds_regular (cfg : ProfileCfg) (cdrProfileId : ℕ) :
    Regular (if cdrProfileId = 0 then cdrCfgNewIds cfg else cdrCfgKnownIds cfg cdrProfileId) := by
  split
  · exact cdrCfgNewIds_regular cfg
  · exact cdrCfgKnownIds_regular cfg cdrProfileId

theorem cdrCfgProfileIds_regular (cfg : ProfileCfg) : Regular (cdrCfgProfileIds cfg) :=
  (cdrCfgGetCdrProfileId_regular _).bind fun _ => cdrCfgFoundIds_regular cfg _

theorem cdrCfgProfileFilters_regular (cfg : ProfileCfg) (ids : ℕ × ℕ) :
    Regular (cdrCfgProfileFilters cfg ids) := by
  unfold cdrCfgProfileFilters
  split
  · exact .pure _
  · split
    · exact .pure _
    · refine (Regular.query _).bind fun count => ?_
      split
      · exact .pure _
      · exact cdrCfgInsertFilters_regular _ _ _

theorem cdrCfgProfileUnit_regular (cfg : ProfileCfg) : Regular (cdrCfgProfileUnit cfg) :=
  (cdrCfgProfileIds_regular cfg).bind fun _ =>
    (cdrCfgInsertDbstorage_regular _ _).bind fun _ =>
      (cdrCfgProfileFilters_regular _ _).bind fun _ => .pure _

/-! ## The ideal registration -/

theorem ideal_getCdrProfileId (profileName : String) (tables : ProfileTables) :
    ideal (cdrCfgGetCdrProfileId profileName) tables =
      some (oneRow (.answer (tables.profileIds profileName)), tables) := by
  rw [cdrCfgGetCdrProfileId, ideal_bind (.query _) fun _ => .pure _, ideal_query,
    Option.bind_some, ideal_pure]

theorem ideal_getCdrServerId (cdrProfileId : ℕ) (tables : ProfileTables) :
    ideal (cdrCfgGetCdrServerId cdrProfileId) tables =
      some (oneRow (.answer (tables.serverIds cdrProfileId)), tables) := by
  rw [cdrCfgGetCdrServerId, ideal_bind (.query _) fun _ => .pure _, ideal_query,
    Option.bind_some, ideal_pure]

theorem ideal_insertServer (cfg : ProfileCfg) (cdrProfileId : ℕ) (tables : ProfileTables) :
    let inserted := tables.insertServer ⟨cdrProfileId, cfg.t.getModeId⟩
    ideal (cdrCfgInsertServer cfg cdrProfileId) tables =
      some (oneRow (.answer (inserted.serverIds cdrProfileId)), inserted) := by
  intro inserted
  rw [cdrCfgInsertServer, changeTables,
    ideal_bind (.stmt _) fun _ => cdrCfgGetCdrServerId_regular _,
    ideal_stmt_eq_some rfl, Option.bind_some]
  exact ideal_getCdrServerId cdrProfileId inserted

theorem ideal_insertProfile {cfg : ProfileCfg} {tables : ProfileTables}
    (new : tables.profileIds cfg.profileName = []) :
    let row : ProfileRow := ⟨cfg.profileName, cfg.profileVersion⟩
    ideal (cdrCfgInsertProfile cfg) tables =
      some (tables.profiles.next, tables.addProfile row) := by
  intro row
  have inserted : tables.insertProfile row = some ((), tables.addProfile row) := if_pos new
  have found := ProfileTables.profileIds_addProfile tables row cfg.profileName
  rw [new, if_pos rfl, List.nil_append] at found
  rw [cdrCfgInsertProfile, ideal_bind (.stmt _) fun _ => cdrCfgGetCdrProfileId_regular _,
    ideal_stmt_eq_some inserted, Option.bind_some, ideal_getCdrProfileId, found]
  rfl

theorem ideal_newIds {tables : ProfileTables} (sound : tables.Sound) {cfg : ProfileCfg}
    (small : (tables.enroll cfg).Small) (new : tables.profileIds cfg.profileName = []) :
    ideal (cdrCfgNewIds cfg) tables =
      some ((tables.profiles.next, tables.servers.next), tables.enroll cfg) := by
  have holds := sound.enroll_new new
  obtain ⟨-, -, short, short'⟩ := holds.bounds small
  have server := holds.server
  have enrolled : tables.enroll cfg =
      (tables.addProfile ⟨cfg.profileName, cfg.profileVersion⟩).insertServer
        ⟨tables.profiles.next, cfg.t.getModeId⟩ := if_pos new
  rw [enrolled] at server ⊢
  rw [cdrCfgNewIds, ideal_bind (cdrCfgInsertProfile_regular _) fun _ =>
    (cdrCfgInsertServer_regular _ _).bind fun _ => .pure _, ideal_insertProfile new,
    Option.bind_some, ideal_bind (cdrCfgInsertServer_regular _ _) fun _ => .pure _,
    short, ideal_insertServer, Option.bind_some, ideal_pure, server]
  exact congrArg (fun id => some ((tables.profiles.next, id), _)) short'

theorem ideal_knownIds {tables : ProfileTables} {cfg : ProfileCfg} {ids : ℕ × ℕ}
    (holds : tables.Holds cfg.profileName ids) (small : tables.Small) :
    ideal (cdrCfgKnownIds cfg ids.1) tables = some (ids, tables) := by
  obtain ⟨-, server_pos, -, server_short⟩ := holds.bounds small
  rw [cdrCfgKnownIds, ideal_bind (cdrCfgGetCdrServerId_regular _), ideal_getCdrServerId,
    Option.bind_some, holds.server]
  · simp only [oneRow, server_short, if_neg (Nat.ne_of_gt server_pos), ideal_pure]
  · intro found
    dsimp only
    split
    · exact (cdrCfgInsertServer_regular _ _).bind fun _ => .pure _
    · exact .pure _

/-- The ids of a profile in sound tables: its own, those of new rows when its name is new. -/
theorem ideal_profileIds {tables : ProfileTables} (sound : tables.Sound) (cfg : ProfileCfg)
    (small : (tables.enroll cfg).Small) :
    ideal (cdrCfgProfileIds cfg) tables =
      some ((tables.enroll cfg).idsOf cfg.profileName, tables.enroll cfg) := by
  rw [cdrCfgProfileIds, ideal_bind (cdrCfgGetCdrProfileId_regular _) fun _ =>
    cdrCfgFoundIds_regular cfg _, ideal_getCdrProfileId, Option.bind_some]
  by_cases new : tables.profileIds cfg.profileName = []
  · rw [new, (sound.enroll_new new).idsOf_eq]
    exact ideal_newIds sound small new
  · obtain ⟨ids, holds⟩ := sound.holds new
    rw [show tables.enroll cfg = tables from if_neg new] at small ⊢
    obtain ⟨positive, -, short, -⟩ := holds.bounds small
    rw [holds.idsOf_eq, holds.profile]
    simp only [oneRow, short, if_neg (Nat.ne_of_gt positive)]
    exact ideal_knownIds holds small

/-- The connection that a profile stores fits. -/
def Storable (cfg : ProfileCfg) : Prop :=
  ∀ storage ∈ ProfileTables.storageOf cfg, ProfileTables.StorageFits storage

theorem countRow_answer_ne_zero (n : ℕ) : countRow (.answer n) ≠ 0 ↔ n ≠ 0 := by
  simp [countRow]

/-- The ideal run of what a client does after it counted no row. -/
theorem ideal_ifNone {count : ProfileTables → ℕ} {work : Client ProfileTables Unit}
    (regular : Regular work) (tables : ProfileTables) :
    ideal (do
      let reply ← query count
      if countRow reply ≠ 0 then return
      work) tables = if count tables = 0 then ideal work tables else some ((), tables) := by
  rw [ideal_bind (.query _), ideal_query, Option.bind_some]
  · by_cases nothing : count tables = 0
    · rw [if_pos nothing, if_neg (by simp [countRow_answer_ne_zero, nothing])]
    · rw [if_neg nothing, if_pos ((countRow_answer_ne_zero _).mpr nothing), ideal_pure]
  · intro reply
    split
    · exact .pure _
    · exact regular

theorem ideal_insertDbstorage (cfg : ProfileCfg) {cdrServerId : ℕ} (tables : ProfileTables)
    (server : cdrServerId ≠ 0) :
    ideal (cdrCfgInsertDbstorage cfg cdrServerId) tables = some ((), tables.store cfg cdrServerId) ∨
      ¬ Storable cfg ∧ ideal (cdrCfgInsertDbstorage cfg cdrServerId) tables = none := by
  unfold cdrCfgInsertDbstorage ProfileTables.store
  cases t : cfg.t with
  | file => exact .inl (by simp [ProfileTables.storageOf, t])
  | db =>
      cases stored : cfg.profileDbType with
      | none => exact .inl (by simp [ProfileTables.storageOf, t, stored])
      | some storage =>
          have of : ProfileTables.storageOf cfg = some storage := by
            simp [ProfileTables.storageOf, t, stored]
          let row : DbstorageRow := ⟨cdrServerId, storage, dbstorageTypeId storage.dbtype⟩
          have regular : Regular (do
              let _ ← stmt (ProfileTables.insertDbstorage row)) :=
            (Regular.stmt _).bind fun _ => .pure _
          have insertion : ideal (do
              let _ ← stmt (ProfileTables.insertDbstorage row)) tables =
                tables.insertDbstorage row := by
            rw [ideal_bind (.stmt _) fun _ => .pure _, ideal_stmt]
            cases ProfileTables.insertDbstorage row tables <;> rfl
          rw [of]
          dsimp only
          rw [if_neg server, ideal_ifNone regular, insertion]
          by_cases nothing : tables.dbstorageCount cdrServerId = 0
          · rw [if_pos nothing, if_pos nothing, ProfileTables.insertDbstorage]
            by_cases fits : ProfileTables.StorageFits row.storage
            · exact .inl (if_pos fits)
            · exact .inr ⟨fun storable => fits (storable storage of), if_neg fits⟩
          · rw [if_neg nothing, if_neg nothing]
            exact .inl rfl

theorem ideal_insertFilters (ids : ℕ × ℕ) (filters : List ProfileFilter) (tables : ProfileTables) :
    let rows := (filters.takeWhile (·.filteringPrefix ≠ "")).map (FilterRow.mk ids.1 ids.2)
    ideal (cdrCfgInsertFilters ids.1 ids.2 filters) tables =
      some ((), { tables with filters := tables.filters.insertAll rows }) := by
  induction filters generalizing tables with
  | nil => rfl
  | cons filter filters induction =>
      dsimp only
      unfold cdrCfgInsertFilters
      by_cases last : filter.filteringPrefix = ""
      · rw [if_pos last, ideal_pure, List.takeWhile_cons_of_neg (by simp [last])]
        rfl
      · rw [if_neg last, ideal_bind, changeTables, ideal_stmt_eq_some rfl, Option.bind_some,
          List.takeWhile_cons_of_pos (by simp [last]), List.map_cons]
        · exact induction (tables.insertFilter ⟨ids.1, ids.2, filter⟩)
        · exact .stmt _
        · intro reply
          cases reply with
          | lost => exact .pure _
          | error | answer => exact cdrCfgInsertFilters_regular _ _ _

theorem ideal_profileFilters (cfg : ProfileCfg) {ids : ℕ × ℕ} (tables : ProfileTables)
    (profile : ids.1 ≠ 0) :
    ideal (cdrCfgProfileFilters cfg ids) tables = some ((), tables.filterBy cfg ids) := by
  unfold cdrCfgProfileFilters ProfileTables.filterBy ProfileTables.filtersOf
  cases cfg.filters with
  | none =>
      rw [ideal_pure]
      split <;> rfl
  | some filters =>
      dsimp only
      rw [if_neg profile, ideal_ifNone (cdrCfgInsertFilters_regular _ _ _), ideal_insertFilters]
      split <;> rfl

/-- In sound tables with small keys the ideal registration is `register`; only a connection that
does not fit stops it. -/
theorem ideal_profileUnit {tables : ProfileTables} (sound : tables.Sound) (cfg : ProfileCfg)
    (small : (tables.register cfg).Small) :
    ideal (cdrCfgProfileUnit cfg) tables =
        some ((tables.enroll cfg).idsOf cfg.profileName, tables.register cfg) ∨
      ¬ Storable cfg ∧ ideal (cdrCfgProfileUnit cfg) tables = none := by
  obtain ⟨ids, holds⟩ := sound.enroll_holds cfg
  have enrolled : (tables.enroll cfg).Small := by
    refine ProfileTables.Grows.small ?_ small
    exact (ProfileTables.Grows.store _ cfg _).trans (ProfileTables.Grows.filterBy _ cfg _)
  obtain ⟨profile, server, -, -⟩ := holds.bounds enrolled
  rw [cdrCfgProfileUnit, ideal_bind (cdrCfgProfileIds_regular _),
    ideal_profileIds sound cfg enrolled, Option.bind_some,
    ideal_bind (cdrCfgInsertDbstorage_regular _ _), holds.idsOf_eq]
  · rcases ideal_insertDbstorage cfg (tables.enroll cfg) (Nat.ne_of_gt server) with
      stored | ⟨large, refused⟩
    · rw [stored, Option.bind_some, ideal_bind (cdrCfgProfileFilters_regular _ _) fun _ => .pure _,
        ideal_profileFilters cfg _ (Nat.ne_of_gt profile), Option.bind_some, ideal_pure]
      refine .inl ?_
      simp only [ProfileTables.register, holds.idsOf_eq]
    · rw [refused, Option.bind_none]
      exact .inr ⟨large, rfl⟩
  · exact fun _ => (cdrCfgProfileFilters_regular _ _).bind fun _ => .pure _
  · exact fun _ => (cdrCfgInsertDbstorage_regular _ _).bind fun _ =>
      (cdrCfgProfileFilters_regular _ _).bind fun _ => .pure _

end RateEngine
