import TimeOff.Verified.Effects

/-! # What a snapshot does to the cached balances

A snapshot writes at most the one balance row of its key: the first snapshot of
a key inserts it, a stale one leaves it alone, any other overwrites it.
-/

set_option autoImplicit false

namespace TimeOff

open TimeOff.Lib AuditService BalancesRepository BalancesService

/-- The effect of the upsert, with the value of `ignored` that is reported for it. -/
inductive Cached (snapshot : HcmSnapshot) (now : Int) (db : Db) (after : SerialTable BalanceRow) :
    Option Bool → Prop
  | first (balance : ℚ) (stamp : Stamp)
      (absent : findBalance snapshot.key db = none)
      (given : snapshot.balance = some balance)
      (nonneg : 0 ≤ balance)
      (stored : snapshot.asOf.stored = some stamp)
      (cached : after = db.balances.append
        (fun id => ⟨id, snapshot.key, balance, stamp, now, 1⟩) fun _ => rfl) :
      Cached snapshot now db after none
  | stale (row : BalanceRow)
      (found : findBalance snapshot.key db = some row)
      (older : snapshot.asOf.lt row.hcmSnapshotAt = true)
      (cached : after = db.balances) :
      Cached snapshot now db after (some true)
  | newer (row : BalanceRow) (balance : ℚ) (stamp : Stamp)
      (found : findBalance snapshot.key db = some row)
      (current : snapshot.asOf.lt row.hcmSnapshotAt = false)
      (given : snapshot.balance = some balance)
      (nonneg : 0 ≤ balance)
      (stored : snapshot.asOf.stored = some stamp)
      (cached : after = db.balances.update (fun other => other.id = row.id)
        (fun other => { other with
          hcmBalance := balance, hcmSnapshotAt := stamp, updatedAt := now
          version := other.version + 1 }) fun _ => rfl) :
      Cached snapshot now db after (some false)

/-- A snapshot was applied or ignored. -/
structure Snapshotted (snapshot : HcmSnapshot) (now : Int) (result : SnapshotResult)
    (db after : Db) : Prop where
  requests : after.requests = db.requests
  reservations : after.reservations = db.reservations
  hcmOutbox : after.hcmOutbox = db.hcmOutbox
  cached : Cached snapshot now db after.balances result.ignored
  drift : result.negativeDrift = true ↔ result.ignored ≠ some true ∧
    snapshot.balance.any (fun balance => balance < sumOpenReservations snapshot.key db) = true
  key : result.balance.key = snapshot.key

theorem balanceColumns_ok {hcmBalance : Option ℚ} {asOf stamp : Stamp} {balance : ℚ} {db after : Db} :
    balanceColumns hcmBalance asOf db = .ok ((balance, stamp), after) ↔
      hcmBalance = some balance ∧ asOf.stored = some stamp ∧ 0 ≤ balance ∧ db = after := by
  simp only [balanceColumns, Tx.bind_ok, Tx.orThrow_ok, Tx.require_ok, Tx.pure_ok, Prod.mk.injEq]
  constructor
  · rintro ⟨_, _, ⟨given, rfl⟩, _, _, ⟨stored, rfl⟩, _, _, ⟨nonneg, _, rfl⟩, ⟨rfl, rfl⟩, rfl⟩
    exact ⟨given, stored, nonneg, rfl⟩
  · rintro ⟨given, stored, nonneg, rfl⟩
    exact ⟨balance, db, ⟨given, rfl⟩, stamp, db, ⟨stored, rfl⟩, (), db, ⟨nonneg, trivial, rfl⟩, ⟨rfl, rfl⟩, rfl⟩

theorem findBalance_key {key : Key} {db : Db} {row : BalanceRow} (found : findBalance key db = some row) :
    row.key = key := by
  simpa using List.find?_some found

/-- What an upsert returns and leaves. -/
inductive Upserted (snapshot : HcmSnapshot) (now : Int) (db : Db) : BalanceRecord → Db → Prop
  | first (balance : ℚ) (stamp : Stamp)
      (absent : findBalance snapshot.key db = none)
      (given : snapshot.balance = some balance)
      (nonneg : 0 ≤ balance)
      (stored : snapshot.asOf.stored = some stamp) :
      Upserted snapshot now db ⟨none, snapshot.key, balance, snapshot.asOf, now, 1⟩
        { db with
          balances := db.balances.append
            (fun id => ⟨id, snapshot.key, balance, stamp, now, 1⟩) fun _ => rfl }
  | stale (row : BalanceRow)
      (found : findBalance snapshot.key db = some row)
      (older : snapshot.asOf.lt row.hcmSnapshotAt = true) :
      Upserted snapshot now db row.record db
  | newer (row : BalanceRow) (balance : ℚ) (stamp : Stamp)
      (found : findBalance snapshot.key db = some row)
      (current : snapshot.asOf.lt row.hcmSnapshotAt = false)
      (given : snapshot.balance = some balance)
      (nonneg : 0 ≤ balance)
      (stored : snapshot.asOf.stored = some stamp) :
      Upserted snapshot now db
        { row.record with
          hcmBalance := balance, hcmSnapshotAt := snapshot.asOf, updatedAt := now
          version := row.version + 1 }
        { db with
          balances := db.balances.update (fun other => other.id = row.id)
            (fun other => { other with
              hcmBalance := balance, hcmSnapshotAt := stamp, updatedAt := now
              version := other.version + 1 }) fun _ => rfl }

section Upsert

variable {snapshot : HcmSnapshot} {now : Int} {db after : Db} {record : BalanceRecord}
  (ran : upsertBalance snapshot.key snapshot.balance snapshot.asOf now db = .ok (record, after))

include ran

theorem upsertBalance_upserted : Upserted snapshot now db record after := by
  simp only [upsertBalance, Tx.bind_ok, Tx.query_ok, Prod.mk.injEq] at ran
  obtain ⟨_, _, ⟨rfl, rfl⟩, ran⟩ := ran
  cases found : findBalance snapshot.key db with
  | none =>
    simp only [found, Tx.bind_ok, Tx.write_ok, Tx.pure_ok, Prod.mk.injEq] at ran
    obtain ⟨⟨balance, stamp⟩, _, columns, _, _, ⟨_, rfl⟩, rfl, rfl⟩ := ran
    obtain ⟨given, stored, nonneg, rfl⟩ := balanceColumns_ok.mp columns
    exact .first balance stamp found given nonneg stored
  | some row =>
    simp only [found] at ran
    split at ran
    next older =>
      cases Tx.pure_ok.mp ran
      exact .stale row found older
    next current =>
      simp only [Tx.bind_ok, Tx.write_ok, Tx.pure_ok, Prod.mk.injEq] at ran
      obtain ⟨⟨balance, stamp⟩, _, columns, _, _, ⟨_, rfl⟩, rfl, rfl⟩ := ran
      obtain ⟨given, stored, nonneg, rfl⟩ := balanceColumns_ok.mp columns
      exact .newer row balance stamp found (Bool.eq_false_of_not_eq_true current) given nonneg stored

theorem upsertBalance_ok : record.key = snapshot.key ∧ after.requests = db.requests ∧
    after.reservations = db.reservations ∧ after.hcmOutbox = db.hcmOutbox ∧
    after.auditEvents = db.auditEvents ∧ Cached snapshot now db after.balances
      ((findBalance snapshot.key db).map fun row => snapshot.asOf.lt row.hcmSnapshotAt) := by
  cases upsertBalance_upserted ran with
  | first balance stamp absent given nonneg stored =>
    rw [absent]
    exact ⟨rfl, rfl, rfl, rfl, rfl, .first balance stamp absent given nonneg stored rfl⟩
  | stale row found older =>
    rw [found, Option.map_some, older]
    exact ⟨findBalance_key found, rfl, rfl, rfl, rfl, .stale row found older rfl⟩
  | newer row balance stamp found current given nonneg stored =>
    rw [found, Option.map_some, current]
    exact ⟨findBalance_key found, rfl, rfl, rfl, rfl,
      .newer row balance stamp found current given nonneg stored rfl⟩

end Upsert

/-- What the log says was done with a snapshot. -/
def SnapshotResult.action (result : SnapshotResult) : AuditAction :=
  if result.ignored = some true then .balanceSnapshotIgnoredStale
  else if result.negativeDrift then .balanceSnapshotNegativeDrift
  else .balanceSnapshotApplied

theorem sumOpenReservations_congr {db after : Db} (same : after.reservations = db.reservations)
    (key : Key) : sumOpenReservations key after = sumOpenReservations key db := by
  simp only [sumOpenReservations]
  rw [same]

section Applied

variable {clock : Clock} {snapshot : HcmSnapshot} {db after : Db} {result : SnapshotResult}
  (ran : applyHcmBalanceSnapshot clock snapshot db = (.ok result, after))

include ran

/-- The upsert, then what is reported of it, then the entry of the log. -/
theorem applyHcmBalanceSnapshot_inv : ∃ working,
    upsertBalance snapshot.key snapshot.balance snapshot.asOf clock.now db =
      .ok (result.balance, working) ∧
    result.ignored = (findBalance snapshot.key db).map
      (fun row => snapshot.asOf.lt row.hcmSnapshotAt) ∧
    (result.negativeDrift = true ↔ result.ignored ≠ some true ∧
      snapshot.balance.any (fun balance => balance < sumOpenReservations snapshot.key working) = true) ∧
    after = logged clock.auditNow
      { actorType := .hcm
        action := result.action
        targetType := .balance
        targetId := snapshot.key.employeeId ++ ":" ++ snapshot.key.locationId ++ ":" ++
          snapshot.key.leaveType
        before := (findBalance snapshot.key db).map fun row => .balance row.record
        after := some (.balance result.balance)
        correlationId := snapshot.correlationId } working := by
  rw [applyHcmBalanceSnapshot, transaction_ok] at ran
  simp only [applyHcmBalanceSnapshotBody, Tx.bind_ok, Tx.query_ok, logInTx, Tx.write_ok,
    Tx.pure_ok, Prod.mk.injEq] at ran
  obtain ⟨_, _, ⟨rfl, rfl⟩, record, working, upserted, _, _, ⟨rfl, rfl⟩, _, _, ⟨_, rfl⟩, rfl, rfl⟩ := ran
  exact ⟨working, upserted, rfl, by simp, by simp [SnapshotResult.action]⟩

theorem applyHcmBalanceSnapshot_ok : Snapshotted snapshot clock.now result db after := by
  obtain ⟨working, upserted, ignored, drift, rfl⟩ := applyHcmBalanceSnapshot_inv ran
  obtain ⟨key, requests, reservations, hcmOutbox, _, cached⟩ := upsertBalance_ok upserted
  rw [sumOpenReservations_congr reservations] at drift
  rw [← ignored] at cached
  exact ⟨requests, reservations, hcmOutbox, cached, drift, key⟩

end Applied

/-- A snapshot is taken in, or throws and leaves no trace. -/
theorem applyHcmBalanceSnapshot_cases (clock : Clock) (snapshot : HcmSnapshot) (db : Db) :
    (∃ result after, applyHcmBalanceSnapshot clock snapshot db = (.ok result, after) ∧
      Snapshotted snapshot clock.now result db after) ∨
    ∃ failure, applyHcmBalanceSnapshot clock snapshot db = (.error failure, db) := by
  obtain ⟨result, after, _, outcome⟩ | ⟨failure, _, outcome⟩ :=
    transaction_cases (applyHcmBalanceSnapshotBody clock snapshot) db
  · have ran : applyHcmBalanceSnapshot clock snapshot db = (.ok result, after) := outcome
    exact .inl ⟨result, after, ran, applyHcmBalanceSnapshot_ok ran⟩
  · exact .inr ⟨failure, outcome⟩

/-! ## When a snapshot goes through -/

theorem upsertBalance_total {balance : ℚ} {asOf stamp : Stamp} (nonneg : 0 ≤ balance)
    (stored : asOf.stored = some stamp) (key : Key) (now : Int) (db : Db) :
    ∃ record after, upsertBalance key (some balance) asOf now db = .ok (record, after) := by
  have columns : balanceColumns (some balance) asOf db = .ok ((balance, stamp), db) :=
    balanceColumns_ok.mpr ⟨rfl, stored, nonneg, rfl⟩
  simp only [upsertBalance]
  simp only [Tx.bind_ok, Tx.query_ok]
  cases found : findBalance key db with
  | none =>
    exact ⟨_, _, none, db, rfl, Tx.bind_ok.mpr ⟨(balance, stamp), db, columns,
      Tx.bind_ok.mpr ⟨(), _, rfl, rfl⟩⟩⟩
  | some row =>
    cases older : asOf.lt row.hcmSnapshotAt with
    | true => exact ⟨row.record, db, some row, db, rfl, by simp [older]⟩
    | false =>
      exact ⟨_, _, some row, db, rfl, by
        simp only [older, Bool.false_eq_true, if_false]
        exact Tx.bind_ok.mpr ⟨(balance, stamp), db, columns, Tx.bind_ok.mpr ⟨(), _, rfl, rfl⟩⟩⟩

/-- Nothing throws after the upsert. -/
theorem applyHcmBalanceSnapshot_of_upsert {snapshot : HcmSnapshot} {clock : Clock} {db working : Db}
    {record : BalanceRecord} (ran : upsertBalance snapshot.key snapshot.balance snapshot.asOf clock.now db =
      .ok (record, working)) :
    ∃ result after, applyHcmBalanceSnapshot clock snapshot db = (.ok result, after) := by
  simp only [applyHcmBalanceSnapshot, transaction_ok, applyHcmBalanceSnapshotBody, Tx.bind_ok,
    Tx.query_ok, logInTx, Tx.write_ok, Tx.pure_ok]
  exact ⟨_, _, _, db, rfl, record, working, ran, _, working, rfl, (), _, rfl, rfl⟩

/-- A balance that is not negative, dated by something the column admits, is always taken in. -/
theorem applyHcmBalanceSnapshot_total {snapshot : HcmSnapshot} {balance : ℚ} {stamp : Stamp}
    (given : snapshot.balance = some balance) (nonneg : 0 ≤ balance)
    (stored : snapshot.asOf.stored = some stamp) (clock : Clock) (db : Db) :
    ∃ result after, applyHcmBalanceSnapshot clock snapshot db = (.ok result, after) := by
  obtain ⟨record, after, ran⟩ := upsertBalance_total nonneg stored snapshot.key clock.now db
  rw [← given] at ran
  exact applyHcmBalanceSnapshot_of_upsert ran

/-! ## Looking a balance up afterwards -/

/-- A new row is found under its key, and under no other. -/
theorem findBalance_append {db after : Db} {make : Nat → BalanceRow}
    {assigned : ∀ id, rowKey (make id) = id} (appended : after.balances = db.balances.append make assigned)
    {key : Key} (absent : findBalance key db = none) (keyed : ∀ id, (make id).key = key) (other : Key) :
    findBalance other after =
      if key = other then some (make (db.balances.lastId + 1)) else findBalance other db := by
  have absentRow : db.balances.rows.find? (fun row => row.key = key) = none := absent
  simp only [findBalance, appended, SerialTable.rows_append, List.find?_append]
  by_cases own : key = other
  · subst own
    rw [absentRow]
    simp [keyed]
  · simp [keyed, own]

/-- An overwritten row is found under its key, and the other keys' rows are as they were. -/
theorem findBalance_update {db after : Db} {change : BalanceRow → BalanceRow}
    {keeps : ∀ row, rowKey (change row) = rowKey row} {key : Key} {row : BalanceRow}
    (updated : after.balances = db.balances.update (fun candidate => candidate.id = row.id) change keeps)
    (found : findBalance key db = some row) (keyed : ∀ row, (change row).key = row.key) (other : Key) :
    findBalance other after = if key = other then some (change row) else findBalance other db := by
  simp only [findBalance, updated, SerialTable.rows_update]
  rw [find?_map_patchRow (by simp [keyed])]
  have foundRow : db.balances.rows.find? (fun row => row.key = key) = some row := found
  by_cases own : key = other
  · subst own
    rw [foundRow, if_pos rfl, Option.map_some, patchRow_of_hit (by simp)]
  · rw [if_neg own]
    cases foundOther : db.balances.rows.find? (fun row => row.key = other) with
    | none => rfl
    | some otherRow =>
      have distinct : otherRow.id ≠ row.id := by
        intro sameId
        have sameRow : otherRow = row := db.balances.eq_of_key
          (List.mem_of_find?_eq_some foundOther) (List.mem_of_find?_eq_some foundRow) sameId
        rw [sameRow] at foundOther
        exact own ((findBalance_key found).symm.trans (findBalance_key foundOther))
      rw [Option.map_some, patchRow_of_miss (by simpa using distinct)]

theorem findBalance_congr {db after : Db} (same : after.balances = db.balances) (key : Key) :
    findBalance key after = findBalance key db := by
  simp only [findBalance, same]

section Lookup

variable {snapshot : HcmSnapshot} {now : Int} {db after : Db} {ignored : Option Bool}

theorem Cached.findBalance_other (cached : Cached snapshot now db after.balances ignored) {key : Key}
    (other : key ≠ snapshot.key) : findBalance key after = findBalance key db := by
  cases cached with
  | first balance stamp absent given nonneg stored balances =>
    rw [findBalance_append balances absent (fun _ => rfl) key, if_neg (Ne.symm other)]
  | stale row found older balances => exact findBalance_congr balances key
  | newer row balance stamp found current given nonneg stored balances =>
    rw [findBalance_update balances found (fun _ => rfl) key, if_neg (Ne.symm other)]

/-- The key's row afterwards, when the snapshot is not ignored. -/
theorem Cached.findBalance_self (cached : Cached snapshot now db after.balances ignored)
    (heeded : ignored ≠ some true) :
    ∃ row balance stamp, findBalance snapshot.key after = some row ∧
      snapshot.balance = some balance ∧ snapshot.asOf.stored = some stamp ∧
      row.hcmBalance = balance ∧ row.hcmSnapshotAt = stamp ∧
      row.version = ((findBalance snapshot.key db).map BalanceRow.version).getD 0 + 1 := by
  cases cached with
  | first balance stamp absent given nonneg stored balances =>
    have looked := findBalance_append balances absent (fun _ => rfl) snapshot.key
    rw [if_pos rfl] at looked
    exact ⟨_, balance, stamp, looked, given, stored, rfl, rfl, by rw [absent]; rfl⟩
  | stale row found older balances => exact absurd rfl heeded
  | newer row balance stamp found current given nonneg stored balances =>
    have looked := findBalance_update balances found (fun _ => rfl) snapshot.key
    rw [if_pos rfl] at looked
    exact ⟨_, balance, stamp, looked, given, stored, rfl, rfl, by rw [found]; rfl⟩

theorem Cached.findBalance_stale (cached : Cached snapshot now db after.balances (some true))
    (key : Key) : findBalance key after = findBalance key db := by
  cases cached with
  | stale row found older balances => exact findBalance_congr balances key

end Lookup

end TimeOff
