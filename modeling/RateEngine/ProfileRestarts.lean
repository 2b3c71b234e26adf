import RateEngine.ProfileRegistration

/-!
# Restarts of the mediator

At its start the mediator registers its profiles over connections that fail.  Over all restarts the
registrations take effect as a whole or not at all, as long as no connection is made again inside of
one.
-/

namespace RateEngine

open TxClient

/-! ## Restarts -/

/-- Keys that were handed out and taken back. -/
structure Gaps where
  profiles : ℕ
  servers : ℕ
  dbstorages : ℕ
  filters : ℕ

/-- A profile at a start of the mediator: the keys taken back before, and what becomes of the
statements of its registration. -/
structure Start where
  cfg : ProfileCfg
  gaps : Gaps
  fates : List Fate

/-- The next keys after a gap. -/
def ProfileTables.skip (gaps : Gaps) (tables : ProfileTables) : ProfileTables where
  profiles := tables.profiles.skip gaps.profiles
  servers := tables.servers.skip gaps.servers
  dbstorages := tables.dbstorages.skip gaps.dbstorages
  filters := tables.filters.skip gaps.filters

/-- The ids and the tables after a registration over a new connection. -/
def Start.run (start : Start) (tables : ProfileTables) : (ℕ × ℕ) × ProfileTables :=
  let result := cdrCfgProfileInsert start.cfg (start.fates, ⟨tables.skip start.gaps, .idle⟩)
  (result.1, result.2.2.durable)

/-- The tables after registrations one after the other. -/
def startAll (tables : ProfileTables) (starts : List Start) : ProfileTables :=
  starts.foldl (fun tables start => (start.run tables).2) tables

/-- The keys that are handed out fit an `unsigned short`. -/
def Room (tables : ProfileTables) (starts : List Start) : Prop :=
  tables.profiles.next + (starts.map (·.gaps.profiles + 1)).sum ≤ 2 ^ 16 ∧
    tables.servers.next + (starts.map (·.gaps.servers + 1)).sum ≤ 2 ^ 16

theorem ProfileTables.Sound.skip {tables : ProfileTables} (sound : tables.Sound) (gaps : Gaps) :
    (tables.skip gaps).Sound := ⟨sound.1, sound.2, sound.3, sound.4, sound.5, sound.6⟩

theorem ProfileTables.Grows.skip (tables : ProfileTables) (gaps : Gaps) :
    tables.Grows (tables.skip gaps) :=
  ⟨List.prefix_rfl, List.prefix_rfl, List.prefix_rfl, List.prefix_rfl, Nat.le_add_right _ _,
    Nat.le_add_right _ _⟩

/-- A registration takes one key for the profile and one for its server at most. -/
theorem ProfileTables.next_register (tables : ProfileTables) (cfg : ProfileCfg) :
    (tables.register cfg).profiles.next ≤ tables.profiles.next + 1 ∧
      (tables.register cfg).servers.next ≤ tables.servers.next + 1 := by
  simp only [register, profiles_filterBy, profiles_store, servers_filterBy, servers_store, enroll]
  split
  · exact ⟨le_rfl, le_rfl⟩
  · exact ⟨Nat.le_succ _, Nat.le_succ _⟩

/-- What a registration comes to: nothing, or the whole profile with its ids. -/
theorem Start.run_cases {start : Start} {tables : ProfileTables} (sound : tables.Sound)
    (whole : Whole start.fates)
    (small : ((tables.skip start.gaps).register start.cfg).Small) :
    let before := tables.skip start.gaps
    (start.run tables).2 = before ∧
        ¬ (start.cfg.profileName ≠ "" ∧ Storable start.cfg ∧ Fine start.fates) ∨
      start.cfg.profileName ≠ "" ∧ start.run tables =
        ((before.enroll start.cfg).idsOf start.cfg.profileName, before.register start.cfg) := by
  intro before
  by_cases nameless : start.cfg.profileName = ""
  · have skipped : start.run tables = ((0, 0), before) := by
      unfold Start.run cdrCfgProfileInsert
      rw [if_pos nameless]
      rfl
    exact .inl ⟨by rw [skipped], fun wanted => wanted.1 nameless⟩
  · let result := transaction (cdrCfgProfileUnit start.cfg) (start.fates, ⟨before, .idle⟩)
    have run : start.run tables = (result.1, result.2.2.durable) := by
      unfold Start.run cdrCfgProfileInsert
      rw [if_neg nameless]
    have ideals := ideal_profileUnit (sound.skip start.gaps) start.cfg small
    rcases (cdrCfgProfileUnit_regular start.cfg).transaction whole before with
      ⟨kept, refused⟩ | done
    · refine .inl ⟨by rw [run]; exact kept, fun ⟨_, storable, fine⟩ => ?_⟩
      rcases ideals with registered | ⟨large, -⟩
      · rw [refused fine] at registered
        cases registered
      · exact large storable
    · refine .inr ⟨nameless, ?_⟩
      rcases ideals with registered | ⟨-, none⟩
      · rw [run]
        exact Option.some.inj (done.symm.trans registered)
      · rw [none] at done
        cases done

/-- There is room for one more registration. -/
theorem Room.small {tables : ProfileTables} {start : Start} {starts : List Start}
    (room : Room tables (start :: starts)) :
    ((tables.skip start.gaps).register start.cfg).Small := by
  obtain ⟨profiles, servers⟩ := room
  have next := (tables.skip start.gaps).next_register start.cfg
  simp only [List.map_cons, List.sum_cons] at profiles servers
  simp only [ProfileTables.skip, SerialTable.skip] at next
  exact ⟨next.1.trans (by omega), next.2.trans (by omega)⟩

/-- One registration keeps the tables sound, and leaves room for the later ones. -/
theorem Start.run_sound {start : Start} {tables : ProfileTables} {starts : List Start}
    (sound : tables.Sound) (whole : Whole start.fates) (room : Room tables (start :: starts)) :
    (start.run tables).2.Sound ∧ tables.Grows (start.run tables).2 ∧
      Room (start.run tables).2 starts := by
  have next := (tables.skip start.gaps).next_register start.cfg
  have cases := start.run_cases sound whole room.small
  have skipped := ProfileTables.Grows.skip tables start.gaps
  have registered := ProfileTables.Grows.register (tables.skip start.gaps) start.cfg
  obtain ⟨profiles, servers⟩ := room
  simp only [List.map_cons, List.sum_cons] at profiles servers
  simp only [ProfileTables.skip, SerialTable.skip] at next
  rcases cases with ⟨nothing, -⟩ | ⟨-, done⟩
  · rw [nothing]
    refine ⟨sound.skip _, skipped, ?_, ?_⟩
    · simp only [ProfileTables.skip, SerialTable.skip]
      omega
    · simp only [ProfileTables.skip, SerialTable.skip]
      omega
  · rw [done]
    refine ⟨(sound.skip _).register _, skipped.trans registered, ?_, ?_⟩
    · have := next.1
      simp only [ProfileTables.skip, SerialTable.skip]
      omega
    · have := next.2
      simp only [ProfileTables.skip, SerialTable.skip]
      omega

/-- Registrations keep the tables sound, lose nothing and leave room for the later ones. -/
theorem startAll_sound {tables : ProfileTables} {starts later : List Start} (sound : tables.Sound)
    (whole : ∀ start ∈ starts, Whole start.fates) (room : Room tables (starts ++ later)) :
    (startAll tables starts).Sound ∧ tables.Grows (startAll tables starts) ∧
      Room (startAll tables starts) later := by
  induction starts generalizing tables with
  | nil => exact ⟨sound, .refl tables, room⟩
  | cons start starts induction =>
      obtain ⟨sound', grows, room'⟩ := start.run_sound sound (whole start List.mem_cons_self) room
      obtain ⟨sound'', grows', room''⟩ := induction sound' (fun other member =>
        whole other (List.mem_cons_of_mem _ member)) room'
      exact ⟨sound'', grows.trans grows', room''⟩

/-! ## A connection made again -/

/-- The insertion of a connection leaves the servers alone when no transaction is open. -/
theorem insertDbstorage_idle (cfg : ProfileCfg) (cdrServerId : ℕ) (tables : ProfileTables) :
    ∃ later : ProfileTables, later.profiles = tables.profiles ∧ later.servers = tables.servers ∧
      cdrCfgInsertDbstorage cfg cdrServerId ([], ⟨tables, .idle⟩) = ((), [], ⟨later, .idle⟩) := by
  have same : ∃ later : ProfileTables, later.profiles = tables.profiles ∧
      later.servers = tables.servers ∧
        (((), [], ⟨tables, .idle⟩) : Unit × World ProfileTables) = ((), [], ⟨later, .idle⟩) :=
    ⟨tables, rfl, rfl, rfl⟩
  unfold cdrCfgInsertDbstorage
  cases cfg.t with
  | file => exact same
  | db =>
      cases cfg.profileDbType with
      | none => exact same
      | some storage =>
          dsimp only
          by_cases server : cdrServerId = 0
          · rw [if_pos server]
            exact same
          · let row : DbstorageRow := ⟨cdrServerId, storage, dbstorageTypeId storage.dbtype⟩
            have counted : query (fun tables => tables.dbstorageCount cdrServerId)
                ([], ⟨tables, .idle⟩) =
                  (.answer (tables.dbstorageCount cdrServerId), [], ⟨tables, .idle⟩) := rfl
            rw [if_neg server, bind_run, counted]
            dsimp only
            by_cases some_row : countRow (.answer (tables.dbstorageCount cdrServerId)) ≠ 0
            · rw [if_pos some_row]
              exact same
            · rw [if_neg some_row, bind_run]
              by_cases fits : ProfileTables.StorageFits storage
              · have inserted : stmt (ProfileTables.insertDbstorage row) ([], ⟨tables, .idle⟩) =
                    (.answer (), [], ⟨tables.addDbstorage row, .idle⟩) := by
                  simp [stmt, nextFate, Session.perform, Session.exec,
                    ProfileTables.insertDbstorage, row, fits]
                rw [inserted]
                exact ⟨tables.addDbstorage row, rfl, rfl, rfl⟩
              · have refused : stmt (ProfileTables.insertDbstorage row) ([], ⟨tables, .idle⟩) =
                    (.error, [], ⟨tables, .idle⟩) := by
                  simp [stmt, nextFate, Session.perform, Session.exec,
                    ProfileTables.insertDbstorage, row, fits]
                rw [refused]
                exact same

/-- When the connection is made again after the insert of the profile, that insert is taken back
and the server of no profile stays. -/
theorem reset_not_sound {cfg : ProfileCfg} (gaps : Gaps) {tables : ProfileTables}
    (named : cfg.profileName ≠ "") (new : tables.profileIds cfg.profileName = []) :
    let start : Start := ⟨cfg, gaps, [.ok, .ok, .ok, .reset]⟩
    (start.run tables).2.profileIds cfg.profileName = [] ∧
      (∃ row ∈ (start.run tables).2.servers.rows, row.2.cdrProfilesId = 0) ∧
        ¬ (start.run tables).2.Sound := by
  intro start
  let before := tables.skip gaps
  let left := before.insertServer ⟨0, cfg.t.getModeId⟩
  have still_new : before.profileIds cfg.profileName = [] := new
  let row : ProfileRow := ⟨cfg.profileName, cfg.profileVersion⟩
  have found : cdrCfgGetCdrProfileId cfg.profileName
      ([.ok, .ok, .reset], ⟨before, .active before⟩) =
        (oneRow (.answer (before.profileIds cfg.profileName)), [.ok, .reset],
          ⟨before, .active before⟩) := rfl
  have taken_back : cdrCfgGetCdrProfileId cfg.profileName
      ([.reset], ⟨before, .active (before.addProfile row)⟩) =
        (oneRow (.answer (before.profileIds cfg.profileName)), [], ⟨before, .idle⟩) := rfl
  have added : stmt (ProfileTables.insertProfile row)
      ([.ok, .reset], ⟨before, .active before⟩) =
        (.answer (), [.reset], ⟨before, .active (before.addProfile row)⟩) := by
    simp [stmt, nextFate, Session.perform, Session.exec, ProfileTables.insertProfile, row,
      still_new]
  have inserted : cdrCfgInsertProfile cfg ([.ok, .reset], ⟨before, .active before⟩) =
      (0, [], ⟨before, .idle⟩) := by
    rw [cdrCfgInsertProfile, bind_run, added, taken_back, still_new]
    rfl
  have server : cdrCfgInsertServer cfg 0 ([], ⟨before, .idle⟩) =
      (oneRow (.answer (left.serverIds 0)), [], ⟨left, .idle⟩) := rfl
  have ids : cdrCfgProfileIds cfg ([.ok, .ok, .reset], ⟨before, .active before⟩) =
      ((0, toUshort (oneRow (.answer (left.serverIds 0)))), [], ⟨left, .idle⟩) := by
    rw [cdrCfgProfileIds, bind_run, found, still_new]
    change cdrCfgNewIds cfg ([.ok, .reset], ⟨before, .active before⟩) = _
    rw [cdrCfgNewIds, bind_run, inserted]
    rfl
  obtain ⟨later, profiles, servers, stored⟩ :=
    insertDbstorage_idle cfg (toUshort (oneRow (.answer (left.serverIds 0)))) left
  have unit : (cdrCfgProfileUnit cfg ([.ok, .ok, .reset], ⟨before, .active before⟩)).2 =
      ([], ⟨later, .idle⟩) := by
    rw [cdrCfgProfileUnit, bind_run, ids]
    dsimp only
    rw [bind_run, stored]
    unfold cdrCfgProfileFilters
    cases cfg.filters with
    | none => rfl
    | some filters => rfl
  have ends : (start.run tables).2 = later := by
    unfold Start.run cdrCfgProfileInsert
    rw [if_neg named]
    change ((cdrCfgProfileUnit cfg ([.ok, .ok, .reset], ⟨before, .active before⟩)).2.2.commit
      (nextFate (cdrCfgProfileUnit cfg ([.ok, .ok, .reset],
        ⟨before, .active before⟩)).2.1)).durable = later
    rw [unit]
    rfl
  have absent : later.profileIds cfg.profileName = [] := by
    unfold ProfileTables.profileIds
    rw [profiles]
    exact still_new
  have orphan : (before.servers.next, ServerRow.mk 0 cfg.t.getModeId) ∈ later.servers.rows := by
    rw [servers]
    exact List.mem_append_right _ (List.mem_singleton_self _)
  rw [ends]
  refine ⟨absent, ⟨_, orphan, rfl⟩, fun sound => ?_⟩
  obtain ⟨profile, member, zero⟩ := List.mem_map.mp (sound.server_mem _ orphan)
  have positive : 0 < profile.1 := later.profiles.key_pos profile member
  rw [zero] at positive
  exact lt_irrefl 0 positive

/-- Over all restarts, with statements that fail and connections that are lost at any of them, each
registration takes effect as a whole or not at all, as long as no connection is made again inside of
one: the tables stay sound, a registration that nothing stops gives the ids that its name has from
then on, and to register the profile again changes nothing.  A connection that is made again after
the insert of a profile leaves half of it. -/
theorem profileRegistration_whole (tables : ProfileTables) (starts : List Start)
    (sound : tables.Sound) (whole : ∀ start ∈ starts, Whole start.fates)
    (room : Room tables starts) :
    let final := startAll tables starts
    final.Sound ∧ tables.Grows final ∧
      (∀ earlier start later, starts = earlier ++ start :: later →
        let before := (startAll tables earlier).skip start.gaps
        let result := start.run (startAll tables earlier)
        result.2 = before ∧
            ¬ (start.cfg.profileName ≠ "" ∧ Storable start.cfg ∧ Fine start.fates) ∨
          start.cfg.profileName ≠ "" ∧ result.2 = before.register start.cfg ∧
            final.Holds start.cfg.profileName result.1 ∧ final.register start.cfg = final) ∧
      ∀ cfg gaps, cfg.profileName ≠ "" → final.profileIds cfg.profileName = [] →
        let start : Start := ⟨cfg, gaps, [.ok, .ok, .ok, .reset]⟩
        (start.run final).2.profileIds cfg.profileName = [] ∧
          (∃ row ∈ (start.run final).2.servers.rows, row.2.cdrProfilesId = 0) ∧
            ¬ (start.run final).2.Sound := by
  intro final
  obtain ⟨sound', grows, -⟩ := startAll_sound sound whole ((List.append_nil starts).symm ▸ room)
  refine ⟨sound', grows, ?_, fun cfg gaps named new => reset_not_sound gaps named new⟩
  rintro earlier start later rfl before result
  have whole_earlier : ∀ other ∈ earlier, Whole other.fates :=
    fun other member => whole other (List.mem_append_left _ member)
  have whole_start : Whole start.fates :=
    whole start (List.mem_append_right _ List.mem_cons_self)
  have whole_later : ∀ other ∈ later, Whole other.fates :=
    fun other member => whole other (List.mem_append_right _ (List.mem_cons_of_mem _ member))
  obtain ⟨sound_earlier, -, room'⟩ := startAll_sound sound whole_earlier room
  obtain ⟨sound_start, -, room_later⟩ := start.run_sound sound_earlier whole_start room'
  have rest := startAll_sound sound_start whole_later ((List.append_nil later).symm ▸ room_later)
  have final_eq : final = startAll (start.run (startAll tables earlier)).2 later :=
    List.foldl_append
  refine (start.run_cases sound_earlier whole_start room'.small).imp id fun ⟨named, done⟩ => ?_
  have registered := (sound_earlier.skip start.gaps).registered start.cfg
  have lasting : final.Registered start.cfg result.1 := by
    rw [final_eq]
    refine ProfileTables.Registered.grows ?_ rest.2.1 rest.1
    have ids : result.1 = (before.enroll start.cfg).idsOf start.cfg.profileName := by
      rw [show result = _ from done]
    rw [ids, done]
    exact registered
  exact ⟨named, by rw [show result = _ from done], lasting.holds, lasting.register_eq⟩

theorem ProfileTables.sound_empty : ProfileTables.Sound {} where
  names_nodup := List.nodup_nil
  one_server _ member := absurd member List.not_mem_nil
  server_mem _ member := absurd member List.not_mem_nil
  dbstorage_mem _ member := absurd member List.not_mem_nil
  one_dbstorage _ := Nat.zero_le 1
  filter_mem _ member := absurd member List.not_mem_nil

/-- A profile with a remote database and a filter. -/
def remoteProfile : ProfileCfg where
  profileName := "asterisk"
  profileVersion := 1
  t := .db
  profileDbType := some ⟨"mysql", "localhost", "asteriskcdrdb", "re", "re", 3306, "cdr"⟩
  filters := some [⟨"00", 5, "", 2⟩]

/-- Its first registration is refused at the server, its second one meets no fault. -/
def retriedStarts : List Start :=
  [⟨remoteProfile, ⟨0, 0, 0, 0⟩, [.ok, .ok, .ok, .ok, .fails]⟩, ⟨remoteProfile, ⟨1, 1, 0, 0⟩, []⟩]

theorem retriedStarts_registered :
    (startAll {} retriedStarts).Sound ∧ (startAll {} retriedStarts).Holds "asterisk" (2, 2) ∧
      (startAll {} retriedStarts).register remoteProfile = startAll {} retriedStarts := by
  have whole : ∀ start ∈ retriedStarts, Whole start.fates := by
    intro start member
    rcases List.mem_cons.mp member with rfl | member
    · exact ⟨by decide, by decide⟩
    · obtain rfl := List.mem_singleton.mp member
      trivial
  have all := profileRegistration_whole {} retriedStarts ProfileTables.sound_empty whole
    ⟨by decide, by decide⟩
  refine ⟨all.1, ?_⟩
  have storable : Storable remoteProfile := by
    intro storage member
    obtain rfl := Option.mem_some.mp member
    decide
  rcases all.2.2.1 [⟨remoteProfile, ⟨0, 0, 0, 0⟩, [.ok, .ok, .ok, .ok, .fails]⟩]
    ⟨remoteProfile, ⟨1, 1, 0, 0⟩, []⟩ [] rfl with ⟨-, refused⟩ | ⟨-, -, holds, again⟩
  · exact absurd ⟨by decide, storable, Fine.nil⟩ refused
  · exact ⟨holds, again⟩

end RateEngine
