import RateEngine.Lib.SerialTable

/-!
# The tables of the CDR profiles

A profile of the mediator has a row of its own, one server, the connection of its remote database
and its filters.  This file has the rows, the sound tables, in which each profile is whole, and the
registration of a profile as one function of the tables; what it registers stays registered.
-/

namespace RateEngine

/-! ## The tables -/

/-- `cdr_profile_type_t`. -/
inductive ProfileType where
  | db
  | file
deriving DecidableEq, Repr

/-- `profile->t + 1`. -/
def ProfileType.getModeId : ProfileType → ℕ
  | db => 1
  | file => 2

/-- The connection of a profile of type `db`, as far as it is stored. -/
structure StorageProfile where
  dbtype : String
  dbhost : String
  dbname : String
  dbuser : String
  dbpass : String
  dbport : ℤ
  cdrTable : String
deriving DecidableEq

/-- The number of the kind of a remote database. -/
def dbstorageTypeId (dbtype : String) : ℕ :=
  if dbtype = "mysql" then 2 else if dbtype = "sqlite3" then 3 else 1

/-- `filter` of a profile. -/
structure ProfileFilter where
  filteringPrefix : String
  filteringNumber : ℤ
  replaceStr : String
  len : ℤ
deriving DecidableEq

/-- An `unsigned short`. -/
def toUshort (n : ℕ) : ℕ := n % 2 ^ 16

/-- `cdr_profile_cfg_t` as far as the registration goes.  A profile with filters has an array of
them. -/
structure ProfileCfg where
  profileName : String
  profileVersion : ℕ
  t : ProfileType
  profileDbType : Option StorageProfile
  filters : Option (List ProfileFilter)
deriving DecidableEq

/-- A row of `cdr_profiles`. -/
structure ProfileRow where
  profileName : String
  profileVersion : ℕ
deriving DecidableEq

/-- A row of `cdr_servers`. -/
structure ServerRow where
  cdrProfilesId : ℕ
  getModeId : ℕ
deriving DecidableEq

/-- A row of `cdr_dbstorage`. -/
structure DbstorageRow where
  cdrServerId : ℕ
  storage : StorageProfile
  dbstorageTypeId : ℕ
deriving DecidableEq

/-- A row of `prefix_filter`. -/
structure FilterRow where
  cdrProfilesId : ℕ
  cdrServerId : ℕ
  filter : ProfileFilter
deriving DecidableEq

/-- The tables of the registration. -/
structure ProfileTables where
  profiles : SerialTable ProfileRow := SerialTable.empty
  servers : SerialTable ServerRow := SerialTable.empty
  dbstorages : SerialTable DbstorageRow := SerialTable.empty
  filters : SerialTable FilterRow := SerialTable.empty
deriving DecidableEq

namespace ProfileTables

/-- The keys of a name in `cdr_profiles`. -/
def profileIds (tables : ProfileTables) (name : String) : List ℕ :=
  (tables.profiles.select (·.profileName = name)).map Prod.fst

/-- The keys of a profile in `cdr_servers`. -/
def serverIds (tables : ProfileTables) (cdrProfileId : ℕ) : List ℕ :=
  (tables.servers.select (·.cdrProfilesId = cdrProfileId)).map Prod.fst

/-- The rows of a server in `cdr_dbstorage`. -/
def dbstorageCount (tables : ProfileTables) (cdrServerId : ℕ) : ℕ :=
  (tables.dbstorages.select (·.cdrServerId = cdrServerId)).length

/-- The rows of a profile in `prefix_filter`. -/
def filterCount (tables : ProfileTables) (cdrProfileId : ℕ) : ℕ :=
  (tables.filters.select (·.cdrProfilesId = cdrProfileId)).length

/-- The tables with a new profile. -/
def addProfile (row : ProfileRow) (tables : ProfileTables) : ProfileTables :=
  { tables with profiles := tables.profiles.insert row }

/-- Insert a profile; its name must be free. -/
def insertProfile (row : ProfileRow) (tables : ProfileTables) : Option (Unit × ProfileTables) :=
  if tables.profileIds row.profileName = [] then some ((), tables.addProfile row) else none

/-- Insert a server. -/
def insertServer (row : ServerRow) (tables : ProfileTables) : ProfileTables :=
  { tables with servers := tables.servers.insert row }

/-- The texts of a connection fit in their columns of 128 characters; those other than the host are
shorter in the profile already. -/
def StorageFits (storage : StorageProfile) : Prop := storage.dbhost.length ≤ 128

instance (storage : StorageProfile) : Decidable (StorageFits storage) :=
  inferInstanceAs (Decidable (_ ≤ _))

/-- The tables with the connection of a remote database. -/
def addDbstorage (row : DbstorageRow) (tables : ProfileTables) : ProfileTables :=
  { tables with dbstorages := tables.dbstorages.insert row }

/-- Insert the connection of a remote database. -/
def insertDbstorage (row : DbstorageRow) (tables : ProfileTables) :
    Option (Unit × ProfileTables) :=
  if StorageFits row.storage then some ((), tables.addDbstorage row) else none

/-- Insert a filter. -/
def insertFilter (row : FilterRow) (tables : ProfileTables) : ProfileTables :=
  { tables with filters := tables.filters.insert row }

end ProfileTables

/-! ## What a registration is for -/

namespace ProfileTables

/-- The keys of a name and of its server. -/
def idsOf (tables : ProfileTables) (profileName : String) : ℕ × ℕ :=
  let cdrProfileId := (tables.profileIds profileName).headD 0
  (cdrProfileId, (tables.serverIds cdrProfileId).headD 0)

/-- A profile with a new name enters the tables with its server. -/
def enroll (cfg : ProfileCfg) (tables : ProfileTables) : ProfileTables :=
  if tables.profileIds cfg.profileName = [] then
    (tables.addProfile ⟨cfg.profileName, cfg.profileVersion⟩).insertServer
      ⟨tables.profiles.next, cfg.t.getModeId⟩
  else tables

/-- The connection that a profile stores. -/
def storageOf (cfg : ProfileCfg) : Option StorageProfile :=
  match cfg.t with
  | .db => cfg.profileDbType
  | .file => none

/-- A server without a connection takes that of the profile. -/
def store (cfg : ProfileCfg) (cdrServerId : ℕ) (tables : ProfileTables) : ProfileTables :=
  match storageOf cfg with
  | some storage =>
      if tables.dbstorageCount cdrServerId = 0 then
        tables.addDbstorage ⟨cdrServerId, storage, dbstorageTypeId storage.dbtype⟩
      else tables
  | none => tables

/-- The filters that a profile stores: those before the first empty one. -/
def filtersOf (cfg : ProfileCfg) : List ProfileFilter :=
  (cfg.filters.getD []).takeWhile (·.filteringPrefix ≠ "")

/-- A profile without filters takes its own. -/
def filterBy (cfg : ProfileCfg) (ids : ℕ × ℕ) (tables : ProfileTables) : ProfileTables :=
  if tables.filterCount ids.1 = 0 then
    let rows := (filtersOf cfg).map (FilterRow.mk ids.1 ids.2)
    { tables with filters := tables.filters.insertAll rows }
  else tables

/-- A whole registration. -/
def register (cfg : ProfileCfg) (tables : ProfileTables) : ProfileTables :=
  let ids := (tables.enroll cfg).idsOf cfg.profileName
  ((tables.enroll cfg).store cfg ids.2).filterBy cfg ids

/-- Whole profiles only: each name has one profile, each profile has one server, each server has at
most one connection, and no row belongs to nothing. -/
structure Sound (tables : ProfileTables) : Prop where
  names_nodup : (tables.profiles.rows.map fun row => row.2.profileName).Nodup
  one_server : ∀ row ∈ tables.profiles.rows, ∃ cdrServerId,
    tables.serverIds row.1 = [cdrServerId]
  server_mem : ∀ row ∈ tables.servers.rows,
    row.2.cdrProfilesId ∈ tables.profiles.rows.map Prod.fst
  dbstorage_mem : ∀ row ∈ tables.dbstorages.rows,
    row.2.cdrServerId ∈ tables.servers.rows.map Prod.fst
  one_dbstorage : ∀ cdrServerId, tables.dbstorageCount cdrServerId ≤ 1
  filter_mem : ∀ row ∈ tables.filters.rows,
    tables.serverIds row.2.cdrProfilesId = [row.2.cdrServerId]

/-- The keys fit an `unsigned short`. -/
def Small (tables : ProfileTables) : Prop :=
  tables.profiles.next ≤ 2 ^ 16 ∧ tables.servers.next ≤ 2 ^ 16

/-- A name is in the tables once or not at all. -/
theorem Sound.profileIds_cases {tables : ProfileTables} (sound : tables.Sound) (name : String) :
    tables.profileIds name = [] ∨
      ∃ row ∈ tables.profiles.rows, tables.profileIds name = [row.1] ∧
        row.2.profileName = name := by
  have nodup : ((tables.profiles.select (·.profileName = name)).map
      fun row => row.2.profileName).Nodup :=
    sound.names_nodup.sublist (List.filter_sublist.map _)
  have named : ∀ row ∈ tables.profiles.select (·.profileName = name),
      row ∈ tables.profiles.rows ∧ row.2.profileName = name := by
    intro row member
    have found := List.mem_filter.mp member
    exact ⟨found.1, of_decide_eq_true found.2⟩
  unfold profileIds
  cases selected : tables.profiles.select (·.profileName = name) with
  | nil => exact .inl rfl
  | cons row rest =>
      rw [selected] at nodup named
      have this := named row List.mem_cons_self
      refine .inr ⟨row, this.1, ?_, this.2⟩
      cases rest with
      | nil => rfl
      | cons other rest =>
          have other_named := (named other (List.mem_cons_of_mem _ List.mem_cons_self)).2
          rw [List.map_cons, List.map_cons, this.2, other_named] at nodup
          exact absurd List.mem_cons_self (List.nodup_cons.mp nodup).1

theorem Sound.mem_profiles {tables : ProfileTables} (sound : tables.Sound) {cdrProfileId : ℕ}
    (found : tables.serverIds cdrProfileId ≠ []) :
    cdrProfileId ∈ tables.profiles.rows.map Prod.fst := by
  obtain ⟨id, member⟩ := List.exists_mem_of_ne_nil _ found
  obtain ⟨row, selected, -⟩ := List.mem_map.mp member
  have picked := List.mem_filter.mp selected
  rw [← of_decide_eq_true picked.2]
  exact sound.server_mem row picked.1

/-- The next profile has no server yet. -/
theorem Sound.serverIds_next {tables : ProfileTables} (sound : tables.Sound) :
    tables.serverIds tables.profiles.next = [] := by
  by_contra found
  obtain ⟨row, member, same⟩ := List.mem_map.mp (sound.mem_profiles found)
  exact absurd (tables.profiles.key_lt row member) (by omega)

theorem serverIds_insertServer (tables : ProfileTables) (row : ServerRow) (cdrProfileId : ℕ) :
    (tables.insertServer row).serverIds cdrProfileId = tables.serverIds cdrProfileId ++
      if row.cdrProfilesId = cdrProfileId then [tables.servers.next] else [] := by
  unfold serverIds insertServer
  rw [SerialTable.select_insert, List.map_append]
  congr 1
  by_cases same : row.cdrProfilesId = cdrProfileId <;> simp [same]

theorem profileIds_addProfile (tables : ProfileTables) (row : ProfileRow) (name : String) :
    (tables.addProfile row).profileIds name =
      tables.profileIds name ++ if row.profileName = name then [tables.profiles.next] else [] := by
  unfold profileIds addProfile
  rw [SerialTable.select_insert, List.map_append]
  congr 1
  by_cases same : row.profileName = name <;> simp [same]

theorem name_ne_of_profileIds_eq_nil {tables : ProfileTables} {name : String}
    (new : tables.profileIds name = []) {row : ℕ × ProfileRow}
    (member : row ∈ tables.profiles.rows) : row.2.profileName ≠ name := by
  intro same
  have selected : row ∈ tables.profiles.select (·.profileName = name) :=
    List.mem_filter.mpr ⟨member, decide_eq_true same⟩
  have found : row.1 ∈ tables.profileIds name := List.mem_map_of_mem selected
  rw [new] at found
  exact List.not_mem_nil found

theorem Sound.enroll {tables : ProfileTables} (sound : tables.Sound) (cfg : ProfileCfg) :
    (tables.enroll cfg).Sound := by
  unfold ProfileTables.enroll
  by_cases new : tables.profileIds cfg.profileName = []
  · rw [if_pos new]
    have servers (cdrProfileId : ℕ) := serverIds_insertServer tables
      ⟨tables.profiles.next, cfg.t.getModeId⟩ cdrProfileId
    have old_servers {cdrProfileId : ℕ} (other : tables.profiles.next ≠ cdrProfileId) :
        (tables.insertServer ⟨tables.profiles.next, cfg.t.getModeId⟩).serverIds cdrProfileId =
          tables.serverIds cdrProfileId := by
      rw [servers, if_neg other, List.append_nil]
    constructor
    · simp only [insertServer, addProfile, SerialTable.insert, List.map_append, List.map_cons,
        List.map_nil]
      refine List.nodup_append.mpr ⟨sound.names_nodup, List.nodup_singleton _, ?_⟩
      intro old old_member added added_member same
      obtain ⟨row, row_member, rfl⟩ := List.mem_map.mp old_member
      obtain rfl := List.mem_singleton.mp added_member
      exact name_ne_of_profileIds_eq_nil new row_member same
    · intro row member
      rcases List.mem_append.mp member with old | added
      · obtain ⟨cdrServerId, one⟩ := sound.one_server row old
        have below := tables.profiles.key_lt row old
        exact ⟨cdrServerId, (old_servers (by omega)).trans one⟩
      · obtain rfl := List.mem_singleton.mp added
        refine ⟨tables.servers.next, (servers _).trans ?_⟩
        rw [sound.serverIds_next, if_pos rfl, List.nil_append]
    · intro row member
      simp only [insertServer, addProfile, SerialTable.insert, List.map_append, List.mem_append]
      rcases List.mem_append.mp member with old | added
      · exact .inl (sound.server_mem row old)
      · obtain rfl := List.mem_singleton.mp added
        exact .inr (List.mem_singleton.mpr rfl)
    · intro row member
      simp only [insertServer, addProfile, SerialTable.insert, List.map_append, List.mem_append]
      exact .inl (sound.dbstorage_mem row member)
    · exact sound.one_dbstorage
    · intro row member
      have one := sound.filter_mem row member
      have other : tables.profiles.next ≠ row.2.cdrProfilesId := by
        intro same
        rw [← same, sound.serverIds_next] at one
        cases one
      exact (old_servers other).trans one
  · rw [if_neg new]
    exact sound

/-- A name has these keys. -/
structure Holds (tables : ProfileTables) (name : String) (ids : ℕ × ℕ) : Prop where
  profile : tables.profileIds name = [ids.1]
  server : tables.serverIds ids.1 = [ids.2]

theorem Holds.idsOf_eq {tables : ProfileTables} {name : String} {ids : ℕ × ℕ}
    (holds : tables.Holds name ids) : tables.idsOf name = ids := by
  simp only [idsOf, holds.profile, List.headD_cons, holds.server]

/-- A name in sound tables has its keys. -/
theorem Sound.holds {tables : ProfileTables} (sound : tables.Sound) {name : String}
    (present : tables.profileIds name ≠ []) : ∃ ids, tables.Holds name ids := by
  rcases sound.profileIds_cases name with new | ⟨row, member, one, -⟩
  · exact absurd new present
  · obtain ⟨cdrServerId, server⟩ := sound.one_server row member
    exact ⟨(row.1, cdrServerId), one, server⟩

/-- A new name gets the next keys. -/
theorem Sound.enroll_new {tables : ProfileTables} (sound : tables.Sound) {cfg : ProfileCfg}
    (new : tables.profileIds cfg.profileName = []) :
    (tables.enroll cfg).Holds cfg.profileName (tables.profiles.next, tables.servers.next) := by
  have profile := profileIds_addProfile tables ⟨cfg.profileName, cfg.profileVersion⟩ cfg.profileName
  have server := serverIds_insertServer tables ⟨tables.profiles.next, cfg.t.getModeId⟩
    tables.profiles.next
  rw [new, if_pos rfl, List.nil_append] at profile
  rw [sound.serverIds_next, if_pos rfl, List.nil_append] at server
  unfold ProfileTables.enroll
  rw [if_pos new]
  exact ⟨profile, server⟩

theorem Sound.enroll_holds {tables : ProfileTables} (sound : tables.Sound) (cfg : ProfileCfg) :
    ∃ ids, (tables.enroll cfg).Holds cfg.profileName ids := by
  by_cases new : tables.profileIds cfg.profileName = []
  · exact ⟨_, sound.enroll_new new⟩
  · rw [show tables.enroll cfg = tables from if_neg new]
    exact sound.holds new

/-- The keys of a name are keys of rows. -/
theorem Holds.mem {tables : ProfileTables} {name : String} {ids : ℕ × ℕ}
    (holds : tables.Holds name ids) : ids.1 ∈ tables.profiles.rows.map Prod.fst ∧
      ids.2 ∈ tables.servers.rows.map Prod.fst := by
  have profile : ids.1 ∈ tables.profileIds name := holds.profile ▸ List.mem_cons_self
  have server : ids.2 ∈ tables.serverIds ids.1 := holds.server ▸ List.mem_cons_self
  exact ⟨(List.filter_sublist.map _).mem profile, (List.filter_sublist.map _).mem server⟩

/-- Small keys are not cut to an `unsigned short`, and no key is zero. -/
theorem Holds.bounds {tables : ProfileTables} {name : String} {ids : ℕ × ℕ}
    (holds : tables.Holds name ids) (small : tables.Small) :
    0 < ids.1 ∧ 0 < ids.2 ∧ toUshort ids.1 = ids.1 ∧ toUshort ids.2 = ids.2 := by
  obtain ⟨profile, member, same⟩ := List.mem_map.mp holds.mem.1
  obtain ⟨server, member', same'⟩ := List.mem_map.mp holds.mem.2
  have above := tables.profiles.key_pos profile member
  have below := tables.profiles.key_lt profile member
  have above' := tables.servers.key_pos server member'
  have below' := tables.servers.key_lt server member'
  obtain ⟨profiles, servers⟩ := small
  refine ⟨by omega, by omega, ?_, ?_⟩
  · exact Nat.mod_eq_of_lt (by omega)
  · exact Nat.mod_eq_of_lt (by omega)

theorem dbstorageCount_addDbstorage (tables : ProfileTables) (row : DbstorageRow)
    (cdrServerId : ℕ) : (tables.addDbstorage row).dbstorageCount cdrServerId =
      tables.dbstorageCount cdrServerId + if row.cdrServerId = cdrServerId then 1 else 0 := by
  unfold dbstorageCount addDbstorage
  rw [SerialTable.select_insert, List.length_append]
  by_cases same : row.cdrServerId = cdrServerId <;> simp [same]

theorem Sound.store {tables : ProfileTables} (sound : tables.Sound) (cfg : ProfileCfg)
    {cdrServerId : ℕ} (server : cdrServerId ∈ tables.servers.rows.map Prod.fst) :
    (tables.store cfg cdrServerId).Sound := by
  unfold ProfileTables.store
  split
  · rename_i storage _
    split
    · rename_i none_yet
      refine { sound with dbstorage_mem := ?_, one_dbstorage := ?_ }
      · intro row member
        rcases List.mem_append.mp member with old | added
        · exact sound.dbstorage_mem row old
        · obtain rfl := List.mem_singleton.mp added
          exact server
      · intro other
        have old := sound.one_dbstorage other
        rw [dbstorageCount_addDbstorage]
        by_cases same : cdrServerId = other
        · subst same
          simp [none_yet]
        · simpa [same] using old
    · exact sound
  · exact sound

theorem rows_insertAll_mem {α : Type} {table : SerialTable α} {values : List α} {row : ℕ × α}
    (member : row ∈ (table.insertAll values).rows) : row ∈ table.rows ∨ row.2 ∈ values := by
  rw [SerialTable.rows_insertAll] at member
  refine (List.mem_append.mp member).imp_right fun added => ?_
  rw [← SerialTable.map_snd_newRows table values]
  exact List.mem_map_of_mem added

theorem Sound.filterBy {tables : ProfileTables} (sound : tables.Sound) (cfg : ProfileCfg)
    {ids : ℕ × ℕ} (server : tables.serverIds ids.1 = [ids.2]) :
    (tables.filterBy cfg ids).Sound := by
  unfold ProfileTables.filterBy
  split
  · refine { sound with filter_mem := ?_ }
    intro row member
    rcases rows_insertAll_mem member with old | added
    · exact sound.filter_mem row old
    · obtain ⟨filter, -, same⟩ := List.mem_map.mp added
      rw [← same]
      exact server
  · exact sound

/-! Later parts of a registration keep the keys. -/

@[simp] theorem profiles_store (tables : ProfileTables) (cfg : ProfileCfg) (cdrServerId : ℕ) :
    (tables.store cfg cdrServerId).profiles = tables.profiles := by
  unfold store
  split
  · split <;> rfl
  · rfl

@[simp] theorem servers_store (tables : ProfileTables) (cfg : ProfileCfg) (cdrServerId : ℕ) :
    (tables.store cfg cdrServerId).servers = tables.servers := by
  unfold store
  split
  · split <;> rfl
  · rfl

@[simp] theorem filters_store (tables : ProfileTables) (cfg : ProfileCfg) (cdrServerId : ℕ) :
    (tables.store cfg cdrServerId).filters = tables.filters := by
  unfold store
  split
  · split <;> rfl
  · rfl

@[simp] theorem profiles_filterBy (tables : ProfileTables) (cfg : ProfileCfg) (ids : ℕ × ℕ) :
    (tables.filterBy cfg ids).profiles = tables.profiles := by
  unfold filterBy
  split <;> rfl

@[simp] theorem servers_filterBy (tables : ProfileTables) (cfg : ProfileCfg) (ids : ℕ × ℕ) :
    (tables.filterBy cfg ids).servers = tables.servers := by
  unfold filterBy
  split <;> rfl

@[simp] theorem dbstorages_filterBy (tables : ProfileTables) (cfg : ProfileCfg) (ids : ℕ × ℕ) :
    (tables.filterBy cfg ids).dbstorages = tables.dbstorages := by
  unfold filterBy
  split <;> rfl

/-! ## Tables that grow -/

/-- No row is lost and no key comes again. -/
structure Grows (tables later : ProfileTables) : Prop where
  profiles : tables.profiles.rows <+: later.profiles.rows
  servers : tables.servers.rows <+: later.servers.rows
  dbstorages : tables.dbstorages.rows <+: later.dbstorages.rows
  filters : tables.filters.rows <+: later.filters.rows
  profiles_next : tables.profiles.next ≤ later.profiles.next
  servers_next : tables.servers.next ≤ later.servers.next

namespace Grows

theorem refl (tables : ProfileTables) : tables.Grows tables :=
  ⟨List.prefix_rfl, List.prefix_rfl, List.prefix_rfl, List.prefix_rfl, le_rfl, le_rfl⟩

theorem trans {tables middle later : ProfileTables} (first : tables.Grows middle)
    (second : middle.Grows later) : tables.Grows later where
  profiles := first.profiles.trans second.profiles
  servers := first.servers.trans second.servers
  dbstorages := first.dbstorages.trans second.dbstorages
  filters := first.filters.trans second.filters
  profiles_next := first.profiles_next.trans second.profiles_next
  servers_next := first.servers_next.trans second.servers_next

theorem small {tables later : ProfileTables} (grows : tables.Grows later) (small : later.Small) :
    tables.Small := ⟨grows.profiles_next.trans small.1, grows.servers_next.trans small.2⟩

theorem enroll (tables : ProfileTables) (cfg : ProfileCfg) : tables.Grows (tables.enroll cfg) := by
  unfold ProfileTables.enroll
  split
  · exact ⟨List.prefix_append _ _, List.prefix_append _ _, List.prefix_rfl, List.prefix_rfl,
      Nat.le_succ _, Nat.le_succ _⟩
  · exact refl tables

theorem store (tables : ProfileTables) (cfg : ProfileCfg) (cdrServerId : ℕ) :
    tables.Grows (tables.store cfg cdrServerId) := by
  unfold ProfileTables.store
  split
  · split
    · exact { refl tables with dbstorages := List.prefix_append _ _ }
    · exact refl tables
  · exact refl tables

theorem filterBy (tables : ProfileTables) (cfg : ProfileCfg) (ids : ℕ × ℕ) :
    tables.Grows (tables.filterBy cfg ids) := by
  unfold ProfileTables.filterBy
  split
  · refine { refl tables with filters := ?_ }
    exact (SerialTable.rows_insertAll _ _).symm ▸ List.prefix_append _ _
  · exact refl tables

theorem register (tables : ProfileTables) (cfg : ProfileCfg) :
    tables.Grows (tables.register cfg) :=
  ((enroll tables cfg).trans (store _ cfg _)).trans (filterBy _ cfg _)

end Grows

/-- The keys of a name stay its keys. -/
theorem Holds.grows {tables later : ProfileTables} {name : String} {ids : ℕ × ℕ}
    (holds : tables.Holds name ids) (grows : tables.Grows later) (sound : later.Sound) :
    later.Holds name ids := by
  have profile : ids.1 ∈ later.profileIds name := by
    have old : ids.1 ∈ tables.profileIds name := holds.profile ▸ List.mem_cons_self
    exact ((grows.profiles.sublist.filter _).map _).mem old
  have server : ids.2 ∈ later.serverIds ids.1 := by
    have old : ids.2 ∈ tables.serverIds ids.1 := holds.server ▸ List.mem_cons_self
    exact ((grows.servers.sublist.filter _).map _).mem old
  obtain ⟨found, again⟩ := sound.holds (List.ne_nil_of_mem profile)
  have same : ids.1 = found.1 := List.mem_singleton.mp (again.profile ▸ profile)
  rw [same] at server
  have same' : ids.2 = found.2 := List.mem_singleton.mp (again.server ▸ server)
  rwa [Prod.ext same same']

/-- Nothing is left to do for a profile. -/
structure Registered (tables : ProfileTables) (cfg : ProfileCfg) (ids : ℕ × ℕ) : Prop where
  holds : tables.Holds cfg.profileName ids
  stored : storageOf cfg = none ∨ tables.dbstorageCount ids.2 ≠ 0
  filtered : filtersOf cfg = [] ∨ tables.filterCount ids.1 ≠ 0

namespace Registered

theorem grows {tables later : ProfileTables} {cfg : ProfileCfg} {ids : ℕ × ℕ}
    (registered : tables.Registered cfg ids) (grows : tables.Grows later) (sound : later.Sound) :
    later.Registered cfg ids where
  holds := registered.holds.grows grows sound
  stored := registered.stored.imp_right fun some_row => by
    have more : tables.dbstorageCount ids.2 ≤ later.dbstorageCount ids.2 :=
      (grows.dbstorages.sublist.filter _).length_le
    omega
  filtered := registered.filtered.imp_right fun some_row => by
    have more : tables.filterCount ids.1 ≤ later.filterCount ids.1 :=
      (grows.filters.sublist.filter _).length_le
    omega

/-- To register a profile again changes nothing. -/
theorem register_eq {tables : ProfileTables} {cfg : ProfileCfg} {ids : ℕ × ℕ}
    (registered : tables.Registered cfg ids) : tables.register cfg = tables := by
  have enrolled : tables.enroll cfg = tables := by
    refine if_neg ?_
    rw [registered.holds.profile]
    exact List.cons_ne_nil _ _
  have stored : tables.store cfg ids.2 = tables := by
    unfold store
    rcases registered.stored with nothing | some_row
    · rw [nothing]
    · split
      · exact if_neg some_row
      · rfl
  have filtered : tables.filterBy cfg ids = tables := by
    unfold filterBy
    rcases registered.filtered with nothing | some_row
    · rw [nothing]
      split <;> rfl
    · exact if_neg some_row
  simp only [register, enrolled, registered.holds.idsOf_eq, stored, filtered]

end Registered

theorem Sound.register {tables : ProfileTables} (sound : tables.Sound) (cfg : ProfileCfg) :
    (tables.register cfg).Sound := by
  obtain ⟨ids, holds⟩ := sound.enroll_holds cfg
  have stored : ((tables.enroll cfg).store cfg ids.2).Sound :=
    (sound.enroll cfg).store cfg holds.mem.2
  have server : ((tables.enroll cfg).store cfg ids.2).serverIds ids.1 = [ids.2] := by
    rw [serverIds, servers_store]
    exact holds.server
  have filtered := stored.filterBy cfg server
  simp only [ProfileTables.register, holds.idsOf_eq]
  exact filtered

theorem dbstorageCount_store (tables : ProfileTables) (cfg : ProfileCfg) (cdrServerId : ℕ) :
    storageOf cfg = none ∨ (tables.store cfg cdrServerId).dbstorageCount cdrServerId ≠ 0 := by
  unfold store
  cases storage : storageOf cfg with
  | none => exact .inl rfl
  | some storage =>
      refine .inr ?_
      dsimp only
      split
      · rw [dbstorageCount_addDbstorage, if_pos rfl]
        exact Nat.succ_ne_zero _
      · assumption

theorem filterCount_filterBy (tables : ProfileTables) (cfg : ProfileCfg) (ids : ℕ × ℕ) :
    filtersOf cfg = [] ∨ (tables.filterBy cfg ids).filterCount ids.1 ≠ 0 := by
  unfold filterBy
  cases filters : filtersOf cfg with
  | nil => exact .inl rfl
  | cons filter rest =>
      refine .inr ?_
      split
      · unfold filterCount SerialTable.select
        rw [SerialTable.rows_insertAll, List.filter_append, List.length_append]
        have first : (tables.filters.next, (⟨ids.1, ids.2, filter⟩ : FilterRow)) ∈
            (tables.filters.newRows (List.map (FilterRow.mk ids.1 ids.2)
              (filter :: rest))).filter fun row => row.2.cdrProfilesId = ids.1 := by
          refine List.mem_filter.mpr ⟨?_, decide_eq_true rfl⟩
          simp [SerialTable.newRows]
        exact Nat.ne_of_gt (Nat.add_pos_right _ (List.length_pos_of_mem first))
      · assumption

/-- After its registration nothing is left to do for a profile. -/
theorem Sound.registered {tables : ProfileTables} (sound : tables.Sound) (cfg : ProfileCfg) :
    (tables.register cfg).Registered cfg ((tables.enroll cfg).idsOf cfg.profileName) := by
  obtain ⟨ids, holds⟩ := sound.enroll_holds cfg
  have whole := sound.register cfg
  have grows : (tables.enroll cfg).Grows (tables.register cfg) :=
    (Grows.store _ cfg _).trans (Grows.filterBy _ cfg _)
  rw [holds.idsOf_eq]
  refine ⟨holds.grows grows whole, ?_, ?_⟩
  · simp only [ProfileTables.register, holds.idsOf_eq, dbstorageCount, dbstorages_filterBy]
    exact dbstorageCount_store _ cfg ids.2
  · simp only [ProfileTables.register, holds.idsOf_eq]
    exact filterCount_filterBy _ cfg ids

end ProfileTables

end RateEngine
