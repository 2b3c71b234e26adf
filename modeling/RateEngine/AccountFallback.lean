import Mathlib.Tactic
import RateEngine.AccountLookup
import RateEngine.Lib.SerialTable

/-!
# The fallback order of the account lookup

The provisioning tables of the lookup, the statements on them and the mode table of the DuckDB
engine.  The engine ranks the modes of a leg and takes the lowest rank that joins a row, which is
the fallback order; the leg functions of `rating.c` stop at the first mode whatever it finds.
-/

namespace RateEngine

/-! ## Tables -/

/-- A row of a lookup table: the key and the billing account it belongs to. -/
structure KeyRow where
  key : String
  baccId : ℕ
deriving DecidableEq, Repr

/-- A row of a `_deff` table. -/
structure DeffRow where
  keyId : ℕ
  bplanId : ℕ
  smBplanId : ℕ := 0
  clgNadi : ℤ := 0
  cldNadi : ℤ := 0
deriving DecidableEq, Repr

/-- A row of `bill_plan`. -/
structure BillPlanRow where
  startPeriod : ℕ := 0
  endPeriod : ℕ := 0
deriving DecidableEq, Repr

/-- A row of `billing_account`. -/
structure BillingAccountRow where
  cdrServerId : ℕ
  billingDay : ℕ := 1
  roundModeId : ℕ := 0
  dayOfPayment : ℕ := 0
deriving DecidableEq, Repr

/-- The tables of the account lookup; the key of a lookup table is unique. -/
structure AccountTables where
  keys : AcctTable → SerialTable KeyRow
  keys_unique : ∀ table, ((keys table).rows.map fun row => row.2.key).Nodup
  deff : AcctTable → List DeffRow
  billPlan : SerialTable BillPlanRow
  billingAccount : SerialTable BillingAccountRow

namespace AccountTables

/-- The join of the lookup statements. -/
def join (tables : AccountTables) (table : AcctTable) (key : String) (server : ℕ)
    (plan : DeffRow → ℕ) (meets : DeffRow → Bool) : List RaccRow :=
  ((tables.keys table).select fun row => row.key = key).flatMap fun clg =>
    ((tables.deff table).filter fun df => df.keyId = clg.1 && meets df).flatMap fun df =>
      (tables.billPlan.rows.filter fun bp => bp.1 = plan df).flatMap fun bp =>
        (tables.billingAccount.rows.filter fun bacc =>
            bacc.1 = clg.2.baccId && bacc.2.cdrServerId = server).map fun bacc =>
          { baccId := clg.2.baccId
            bplanId := bp.1
            clgNadi := df.clgNadi
            cldNadi := df.cldNadi
            startPeriod := bp.2.startPeriod
            endPeriod := bp.2.endPeriod
            billingDay := bacc.2.billingDay
            roundModeId := bacc.2.roundModeId
            dayOfPayment := bacc.2.dayOfPayment }

/-- The statement that `rt_data_q_racc_sql` builds.  Only `calling_number_deff` has a column
`sm_bill_plan_id`. -/
def statement (tables : AccountTables) (mode : RtMode) (pre : Rating) : Option (List RaccRow) :=
  let nadi := mode.nadi pre
  let join := tables.join mode.table (mode.cond pre) pre.cdrServerId
  if nadi = (-1, -1) then some (join DeffRow.bplanId fun _ => true)
  else if nadi = (-2, -2) then
    if mode.table = .callingNumber then some (join DeffRow.smBplanId fun _ => true) else none
  else some (join DeffRow.bplanId fun df => df.clgNadi = nadi.1 && df.cldNadi = nadi.2)

/-- The rows that match a CDR in a mode: key, plan and server, and the nature-of-address indicators
in the trunk group modes. -/
def modeRows (tables : AccountTables) (pre : Rating) : RtMode → List RaccRow
  | .sms =>
      tables.join .callingNumber pre.clg pre.cdrServerId DeffRow.smBplanId fun _ => true
  | .srctg =>
      tables.join .srcTgroup pre.srcTgroup pre.cdrServerId DeffRow.bplanId fun df =>
        df.clgNadi = pre.clgNadi && df.cldNadi = pre.cldNadi
  | .dsttg =>
      tables.join .dstTgroup pre.dstTgroup pre.cdrServerId DeffRow.bplanId fun df =>
        df.clgNadi = pre.clgNadi && df.cldNadi = pre.cldNadi
  | mode => tables.join mode.table (mode.cond pre) pre.cdrServerId DeffRow.bplanId fun _ => true

/-- The account of the rows. -/
def account (rows : List RaccRow) : Option ℕ := rows.head?.map RaccRow.baccId

end AccountTables

/-- The environment in which the account lookup reads the tables. -/
def Env.withAccounts (env : Env) (tables : AccountTables) : Env :=
  { env with racc := tables.statement }

/-- The order in which the leg functions name the modes. -/
def fallbackOrder : Leg → CdrRecType → List RtMode
  | .a, .unkn => [.clg, .acode, .srcc, .srctg]
  | .a, .isup => [.srctg]
  | .a, .sms => [.sms]
  | .a, .voipA => [.clg, .acode]
  | .a, .voipV => []
  | .a, .voipT => [.acode, .srcc]
  | .b, .unkn => [.dstc, .dsttg]
  | .b, .isup => [.dsttg]
  | .b, .sms => [.sms]
  | .b, .voipA => [.clg, .acode]
  | .b, .voipV => []
  | .b, .voipT => [.dstc]

/-- The account of the first mode of the order that has a matching row. -/
def firstMatch (tables : AccountTables) (pre : Rating) (order : List RtMode) : Option ℕ :=
  order.findSome? fun mode => AccountTables.account (tables.modeRows pre mode)

/-! ## The DuckDB engine -/

/-- A row of `rt_acct_modes`: leg, record type, rank and mode. -/
structure RtAcctMode where
  leg : Leg
  recType : CdrRecType
  prio : ℕ
  mode : RtMode
deriving DecidableEq, Repr

/-- `rt_acct_modes`. -/
def rtAcctModes : List RtAcctMode :=
  [⟨.a, .unkn, 1, .clg⟩, ⟨.a, .unkn, 2, .acode⟩, ⟨.a, .unkn, 3, .srcc⟩, ⟨.a, .unkn, 4, .srctg⟩,
    ⟨.a, .isup, 1, .srctg⟩, ⟨.a, .sms, 1, .sms⟩, ⟨.a, .voipA, 1, .clg⟩, ⟨.a, .voipA, 2, .acode⟩,
    ⟨.a, .voipT, 1, .acode⟩, ⟨.a, .voipT, 2, .srcc⟩,
    ⟨.b, .unkn, 1, .dstc⟩, ⟨.b, .unkn, 2, .dsttg⟩, ⟨.b, .isup, 1, .dsttg⟩, ⟨.b, .sms, 1, .sms⟩,
    ⟨.b, .voipA, 1, .clg⟩, ⟨.b, .voipA, 2, .acode⟩, ⟨.b, .voipT, 1, .dstc⟩]

/-- `acct_all` for one CDR: the ranked rows of the modes of its leg and record type. -/
def acctAll (tables : AccountTables) (leg : Leg) (recType : CdrRecType) (pre : Rating) :
    List (ℕ × RaccRow) :=
  (rtAcctModes.filter fun m => m.leg = leg && m.recType = recType).flatMap fun m =>
    (tables.modeRows pre m.mode).map fun row => (m.prio, row)

/-- `acct`: a row of the lowest rank, or no account when there is no row. -/
def DuckdbChooses (tables : AccountTables) (leg : Leg) (recType : CdrRecType) (pre : Rating) :
    Option ℕ → Prop
  | none => acctAll tables leg recType pre = []
  | some baccId => ∃ ranked ∈ acctAll tables leg recType pre, ranked.2.baccId = baccId ∧
      ∀ other ∈ acctAll tables leg recType pre, ranked.1 ≤ other.1

/-! ## The mode that is tried -/

/-- The only mode that the leg functions look up. -/
def triedMode : Leg → CdrRecType → Rating → Option RtMode
  | .b, .unkn, pre =>
      if pre.dstContext ≠ "" then some .dstc else if pre.dstTgroup ≠ "" then some .dsttg else none
  | leg, recType, _ => (fallbackOrder leg recType).head?

/-- The mode that is tried finds a row of the account of the first matching mode; when no mode
matches, it finds no row. -/
def TriedModeSuffices (tables : AccountTables) (leg : Leg) (recType : CdrRecType)
    (pre : Rating) : Prop :=
  match firstMatch tables pre (fallbackOrder leg recType) with
  | none => ∀ mode ∈ triedMode leg recType pre, (tables.statement mode pre).getD [] = []
  | some baccId => ∃ mode ∈ triedMode leg recType pre,
      ∃ row ∈ (tables.statement mode pre).getD [], row.baccId = baccId

/-- The fallback claim at one CDR: the resolved account is that of the first matching mode, and it
is the account that the DuckDB engine chooses. -/
def ResolvesInOrder (tables : AccountTables) (env : Env) (leg : Leg) (cdr : Cdr) : Prop :=
  let resolved := resolvedAccount (env.withAccounts tables) leg cdr
  resolved = firstMatch tables (rtCdrToRating env cdr) (fallbackOrder leg cdr.recType) ∧
    ∀ chosen, DuckdbChooses tables leg cdr.recType (rtCdrToRating env cdr) chosen →
      resolved = chosen

/-! ## Rows of one key -/

section Join

variable {tables : AccountTables} {table : AcctTable} {key : String} {server : ℕ}

/-- A joined row carries the account of a row of the lookup table with the key, and its account
exists. -/
theorem mem_join {plan : DeffRow → ℕ} {meets : DeffRow → Bool} {row : RaccRow}
    (member : row ∈ tables.join table key server plan meets) :
    (∃ clg ∈ (tables.keys table).rows, clg.2.key = key ∧ clg.2.baccId = row.baccId) ∧
      0 < row.baccId := by
  simp only [AccountTables.join, List.mem_flatMap, List.mem_map, List.mem_filter,
    SerialTable.select, Bool.and_eq_true, decide_eq_true_eq] at member
  obtain ⟨clg, ⟨clg_member, clg_key⟩, df, -, bp, -, bacc, ⟨bacc_member, bacc_id, -⟩, rfl⟩ := member
  refine ⟨⟨clg, clg_member, clg_key, rfl⟩, ?_⟩
  have bacc_pos := tables.billingAccount.key_pos bacc bacc_member
  simpa only [← bacc_id] using bacc_pos

/-- The rows of one key are of one account, whatever else the statements ask. -/
theorem baccId_eq_of_mem_join {plan plan' : DeffRow → ℕ} {meets meets' : DeffRow → Bool}
    {row row' : RaccRow} (member : row ∈ tables.join table key server plan meets)
    (member' : row' ∈ tables.join table key server plan' meets') : row.baccId = row'.baccId := by
  obtain ⟨⟨clg, clg_member, clg_key, clg_account⟩, -⟩ := mem_join member
  obtain ⟨⟨clg', clg_member', clg_key', clg_account'⟩, -⟩ := mem_join member'
  have same : clg = clg' :=
    List.inj_on_of_nodup_map (tables.keys_unique table) clg_member clg_member'
      (clg_key.trans clg_key'.symm)
  rw [← clg_account, ← clg_account', same]

end Join

/-- The rows of a mode are a join on the mode's table and key. -/
theorem modeRows_eq_join (tables : AccountTables) (pre : Rating) (mode : RtMode) :
    ∃ plan meets, tables.modeRows pre mode =
      tables.join mode.table (mode.cond pre) pre.cdrServerId plan meets := by
  cases mode <;> exact ⟨_, _, rfl⟩

/-- The rows of a statement are a join on the mode's table and key. -/
theorem statement_eq_join (tables : AccountTables) (pre : Rating) (mode : RtMode) :
    (tables.statement mode pre).getD [] = [] ∨ ∃ plan meets, (tables.statement mode pre).getD [] =
      tables.join mode.table (mode.cond pre) pre.cdrServerId plan meets := by
  simp only [AccountTables.statement]
  split
  · exact Or.inr ⟨_, _, rfl⟩
  split
  · split
    · exact Or.inr ⟨_, _, rfl⟩
    · exact Or.inl rfl
  · exact Or.inr ⟨_, _, rfl⟩

theorem account_eq_some_iff {rows : List RaccRow}
    (one_account : ∀ row ∈ rows, ∀ row' ∈ rows, row.baccId = row'.baccId) {baccId : ℕ} :
    AccountTables.account rows = some baccId ↔ ∃ row ∈ rows, row.baccId = baccId := by
  cases rows with
  | nil => simp [AccountTables.account]
  | cons first rest =>
      simp only [AccountTables.account, List.head?_cons, Option.map_some, Option.some.injEq]
      constructor
      · rintro rfl
        exact ⟨first, List.mem_cons_self, rfl⟩
      · rintro ⟨row, member, rfl⟩
        exact one_account first List.mem_cons_self row member

theorem account_eq_none_iff {rows : List RaccRow} :
    AccountTables.account rows = none ↔ rows = [] := by
  cases rows <;> simp [AccountTables.account]

/-! ## Classic rating -/

/-- Loading a list of rows leaves the account of the last one. -/
theorem foldl_load_baccId (rows : List RaccRow) (rtp : Racc) :
    (rows.foldl (fun rtp row => rtp.load (raccColumns (rtp.rtm.nadi rtp.pre) row)) rtp).bacc.id =
      (rows.getLast?.map RaccRow.baccId).getD rtp.bacc.id := by
  induction rows generalizing rtp with
  | nil => rfl
  | cons row rest ih =>
      have loaded : (rtp.load (raccColumns (rtp.rtm.nadi rtp.pre) row)).bacc.id = row.baccId := by
        simp only [Racc.load, raccColumns]
        split <;> rfl
      rw [List.foldl_cons, ih, loaded]
      cases rest with
      | nil => rfl
      | cons next rest => simp [List.getLast?_eq_some_getLast]

/-- The lookup succeeds with or without rows. -/
theorem rtDataQRaccSql_code (env : Env) (rtp : Racc) : (rtDataQRaccSql env rtp).1 = 0 := by
  simp only [rtDataQRaccSql]
  split <;> rfl

/-- The account that one mode of classic rating loads. -/
theorem rtDataQRacc_baccId (env : Env) (mode : RtMode) (pre : Rating) :
    ∃ rtp, rtDataQRacc env mode pre = some rtp ∧
      rtp.bacc.id = ((((env.racc mode (pre.withMode mode)).getD []).getLast?).map
        RaccRow.baccId).getD 0 := by
  refine ⟨(rtDataQRaccSql env { rtm := mode, pre := pre.withMode mode }).2, ?_, ?_⟩
  · simp [rtDataQRacc, rtDataQRaccSql_code]
  · simp only [rtDataQRaccSql]
    cases env.racc mode (pre.withMode mode) with
    | none => rfl
    | some rows => exact foldl_load_baccId rows _

/-- A leg looks up the mode it tries first and no other. -/
theorem rtMainRacc_eq (env : Env) (leg : Leg) (recType : CdrRecType) (pre : Rating) :
    rtMainRacc env leg recType pre =
      (triedMode leg recType pre).bind fun mode => rtDataQRacc env mode pre := by
  have found (mode : RtMode) : ∃ rtp, rtDataQRacc env mode pre = some rtp :=
    (rtDataQRacc_baccId env mode pre).imp fun _ both => both.1
  obtain ⟨byClg, clg_eq⟩ := found .clg
  obtain ⟨byAcode, acode_eq⟩ := found .acode
  obtain ⟨byDstc, dstc_eq⟩ := found .dstc
  obtain ⟨byDsttg, dsttg_eq⟩ := found .dsttg
  cases leg <;> cases recType <;>
    simp [rtMainRacc, triedMode, fallbackOrder, rtRaccUnknA, rtRaccIsupA, rtRaccVoipAvA,
      rtRaccVoipTA, rtRaccSmsA, rtRaccUnknB, rtRaccIsupB, rtRaccVoipTB, rtRaccSmsB, clg_eq,
      acode_eq, dstc_eq, dsttg_eq]
  -- left: leg b of an unknown record type, which looks at its two fields
  by_cases context : pre.dstContext = ""
  · by_cases tgroup : pre.dstTgroup = "" <;> simp [context, tgroup, dsttg_eq]
  · simp [context, dstc_eq]

/-- The rows of a statement are of one account, which has a positive id. -/
theorem statement_one_account (tables : AccountTables) (pre : Rating) (mode : RtMode) :
    ∀ row ∈ (tables.statement mode pre).getD [],
      0 < row.baccId ∧ ∀ row' ∈ (tables.statement mode pre).getD [], row.baccId = row'.baccId := by
  rcases statement_eq_join tables pre mode with empty | ⟨plan, meets, rows_eq⟩
  · simp [empty]
  · rw [rows_eq]
    exact fun row member =>
      ⟨(mem_join member).2, fun row' member' => baccId_eq_of_mem_join member member'⟩

/-- The account that classic rating resolves is the one that the statement of the tried mode
selects. -/
theorem resolvedAccount_eq (tables : AccountTables) (env : Env) (leg : Leg) (cdr : Cdr) :
    resolvedAccount (env.withAccounts tables) leg cdr =
      (triedMode leg cdr.recType (rtCdrToRating env cdr)).bind fun mode =>
        AccountTables.account ((tables.statement mode (rtCdrToRating env cdr)).getD []) := by
  have same_record :
      rtCdrToRating (env.withAccounts tables) cdr = rtCdrToRating env cdr := rfl
  rw [resolvedAccount, same_record, rtMainRacc_eq]
  generalize rtCdrToRating env cdr = pre
  cases triedMode leg cdr.recType pre with
  | none => rfl
  | some mode =>
    obtain ⟨rtp, found, baccId_eq⟩ :=
      rtDataQRacc_baccId (env.withAccounts tables) mode pre
    have one_account := statement_one_account tables pre mode
    have unranked : (env.withAccounts tables).racc mode (pre.withMode mode) =
        tables.statement mode pre := by
      cases mode <;> rfl
    rw [unranked] at baccId_eq
    simp only [Option.bind_some, found, baccId_eq]
    cases rows : (tables.statement mode pre).getD [] with
    | nil => simp [AccountTables.account]
    | cons first rest =>
      rw [rows] at one_account
      have last_member := List.getLast_mem (List.cons_ne_nil first rest)
      obtain ⟨last_pos, last_eq⟩ := one_account _ last_member
      have first_eq := last_eq first List.mem_cons_self
      have first_pos : 0 < first.baccId := by rwa [← first_eq]
      simp [List.getLast?_eq_some_getLast, first_eq, first_pos.ne', AccountTables.account]

/-! ## The DuckDB engine -/

/-- Rows ranked by a strictly increasing rank: the lowest rank is the first mode with a row. -/
theorem chosen_eq_findSome (tables : AccountTables) (pre : Rating) (modes : List RtAcctMode)
    (increasing : modes.Pairwise fun m m' => m.prio < m'.prio) {ranked : ℕ × RaccRow}
    (member : ranked ∈ modes.flatMap fun m =>
      (tables.modeRows pre m.mode).map fun row => (m.prio, row))
    (least : ∀ other ∈ modes.flatMap fun m =>
      (tables.modeRows pre m.mode).map fun row => (m.prio, row), ranked.1 ≤ other.1) :
    firstMatch tables pre (modes.map RtAcctMode.mode) = some ranked.2.baccId := by
  induction modes with
  | nil => simp at member
  | cons m rest ih =>
      obtain ⟨above, rest_increasing⟩ := List.pairwise_cons.mp increasing
      simp only [List.flatMap_cons, List.mem_append] at member least
      have one_account : ∀ row ∈ tables.modeRows pre m.mode,
          ∀ row' ∈ tables.modeRows pre m.mode, row.baccId = row'.baccId := by
        obtain ⟨plan, meets, rows_eq⟩ := modeRows_eq_join tables pre m.mode
        rw [rows_eq]
        exact fun row member row' member' => baccId_eq_of_mem_join member member'
      simp only [firstMatch, List.map_cons, List.findSome?_cons]
      cases rows : tables.modeRows pre m.mode with
      | nil =>
        rw [rows] at member least
        simp only [List.map_nil, List.not_mem_nil, false_or] at member least
        exact ih rest_increasing member least
      | cons first others =>
        have first_ranked : (m.prio, first) ∈
            (tables.modeRows pre m.mode).map fun row => (m.prio, row) := by simp [rows]
        rcases member with own | later
        · obtain ⟨row, row_member, rfl⟩ := List.mem_map.mp own
          have same := one_account row row_member first (by simp [rows])
          simp [AccountTables.account, same]
        · obtain ⟨m', m'_member, row_member⟩ := List.mem_flatMap.mp later
          obtain ⟨row, -, rfl⟩ := List.mem_map.mp row_member
          have := above m' m'_member
          have := least _ (Or.inl first_ranked)
          simp only at this
          omega

/-- The mode table ranks the modes of a leg in the fallback order. -/
theorem rtAcctModes_order (leg : Leg) (recType : CdrRecType) :
    ((rtAcctModes.filter fun m => m.leg = leg && m.recType = recType).map RtAcctMode.mode =
        fallbackOrder leg recType) ∧
      (rtAcctModes.filter fun m => m.leg = leg && m.recType = recType).Pairwise
        fun m m' => m.prio < m'.prio := by
  cases leg <;> cases recType <;> decide

/-- The DuckDB engine chooses the account of the first matching mode. -/
theorem duckdbChooses_eq_firstMatch {tables : AccountTables} {leg : Leg} {recType : CdrRecType}
    {pre : Rating} {chosen : Option ℕ} (chooses : DuckdbChooses tables leg recType pre chosen) :
    chosen = firstMatch tables pre (fallbackOrder leg recType) := by
  obtain ⟨order_eq, increasing⟩ := rtAcctModes_order leg recType
  rw [← order_eq]
  cases chosen with
  | none =>
    symm
    simp only [firstMatch, List.findSome?_eq_none_iff, account_eq_none_iff]
    intro mode member
    obtain ⟨m, m_member, rfl⟩ := List.mem_map.mp member
    have rows_empty := List.flatMap_eq_nil_iff.mp chooses m m_member
    exact List.map_eq_nil_iff.mp rows_empty
  | some baccId =>
    obtain ⟨ranked, member, rfl, least⟩ := chooses
    exact (chosen_eq_findSome tables pre _ increasing member least).symm

/-! ## When the order is respected -/

/-- A trunk with an account code and no calling number of its own. -/
def accountCodeOnly : AccountTables where
  keys table := if table = .accountCode then SerialTable.empty.insert ⟨"trunk", 1⟩ else .empty
  keys_unique table := by cases table <;> decide
  deff table := if table = .accountCode then [{ keyId := 1, bplanId := 1 }] else []
  billPlan := SerialTable.empty.insert {}
  billingAccount := SerialTable.empty.insert { cdrServerId := 1 }

/-- The number 100 belongs to account 1 of CDR server 1. -/
def oneNumber : AccountTables where
  keys table := if table = .callingNumber then SerialTable.empty.insert ⟨"100", 1⟩ else .empty
  keys_unique table := by cases table <;> decide
  deff table := if table = .callingNumber then [{ keyId := 1, bplanId := 1 }] else []
  billPlan := SerialTable.empty.insert {}
  billingAccount := SerialTable.empty.insert { cdrServerId := 1 }

/-- A CDR of the trunk: its account code is provisioned, its calling number is not. -/
def trunkCdr : Cdr where
  id := 1
  cdrServerId := 1
  recType := .voipA
  callingNumber := "100"
  calledNumber := "200"
  billsec := 60
  billusec := 60000000
  startTs := "2024-03-04 10:00:00"
  startEpoch := 1709546400
  accountCode := "trunk"
  srcContext := ""
  dstContext := ""
  srcTgroup := ""
  dstTgroup := ""
  clgNadi := 0
  cldNadi := 0

end RateEngine
