import TimeOff.Lib.Path
import TimeOff.Lib.Runs
import TimeOff.Verified.AuditTrail
import TimeOff.Verified.DoubleCountedDrift

/-! # The audit log of a balance

Each snapshot that goes through writes one BALANCE row, whose target is the key
with its parts joined by colons.  A part may hold a colon itself, so the rows of
two keys can get into one log; and the `after` of a row holds `asOf` as it was
given, while the column turns a string that spells a number into the number.
-/

set_option autoImplicit false

namespace TimeOff

open TimeOff.Lib AuditService BalancesRepository BalancesService

/-- The `target_id` of the audit rows of a key. -/
def Key.targetId (key : Key) : String :=
  key.employeeId ++ ":" ++ key.locationId ++ ":" ++ key.leaveType

def ownsRow (key : Key) (event : AuditEvent) : Bool :=
  event.targetType = .balance ∧ event.targetId = key.targetId

/-- The BALANCE rows with the target of the key, in the order of their ids. -/
def ledgerOf (key : Key) (db : Db) : List AuditEvent := db.auditEvents.rows.filter (ownsRow key)

/-- The columns that the log keeps the history of. -/
abbrev BalanceColumns := ℚ × Stamp × Nat

def BalanceRecord.columns (record : BalanceRecord) : BalanceColumns :=
  (record.hcmBalance, record.hcmSnapshotAt, record.version)

/-- What JSON spells of a stamp: an infinity becomes null, as NaN does. -/
def Stamp.inJson : Stamp → Stamp
  | .number (.infinity _) _ => .nan
  | stamp => stamp

def BalanceColumns.inJson (columns : BalanceColumns) : BalanceColumns :=
  (columns.1, columns.2.1.inJson, columns.2.2)

/-- The columns that the log's JSON spells. -/
def AuditRecord.columns? : AuditRecord → Option BalanceColumns
  | .balance record => some (BalanceColumns.inJson record.columns)
  | .request _ => none

def AuditEvent.balanceChange (event : AuditEvent) : Option BalanceColumns × Option BalanceColumns :=
  (event.before.bind AuditRecord.columns?, event.after.bind AuditRecord.columns?)

/-- The columns of the key's row. -/
def currentColumns (key : Key) (db : Db) : Option BalanceColumns :=
  (findBalance key db).map fun row => row.record.columns

/-- A snapshot, or a call that brings none. -/
inductive LedgerEvent where
  | snapshot (clock : Clock) (snapshot : HcmSnapshot)
  | other (call : Call) (silent : call.bringsBalance = false)

def ledgerStep (db : Db) : LedgerEvent → Option Db
  | .snapshot clock snapshot => some (applyHcmBalanceSnapshot clock snapshot db).2
  | .other call _ => some (call.exec db)

/-- A snapshot of the key that went through, and its result. -/
abbrev Arrived := HcmSnapshot × SnapshotResult

/-- The snapshots of the key that went through, in the order of their arrival. -/
def recordArrival (key : Key) (arrived : List Arrived) (db : Db) : LedgerEvent → Db → List Arrived
  | .snapshot clock snapshot, _ =>
    match (applyHcmBalanceSnapshot clock snapshot db).1 with
    | .ok result => if snapshot.key = key then arrived ++ [(snapshot, result)] else arrived
    | .error _ => arrived
  | .other .., _ => arrived

def versionAfter (before : Option BalanceColumns) : Nat := (before.map fun columns => columns.2.2).getD 0 + 1

/-- The row tells of this snapshot: an ignored one repeats the values it met, any other brings its
own under the next version. -/
structure Records (arrived : Arrived) (event : AuditEvent) : Prop where
  after : event.after = some (.balance arrived.2.balance)
  key : arrived.2.balance.key = arrived.1.key
  ignored : arrived.2.ignored = some true → event.balanceChange.2 = event.balanceChange.1
  heeded : arrived.2.ignored ≠ some true → ∃ balance ∈ arrived.1.balance,
    event.balanceChange.2 = some (balance, arrived.1.asOf.inJson, versionAfter event.balanceChange.1)

/-- The rows of the key are its snapshots, and their values chain from null to the current row. -/
structure Replays (key : Key) (arrived : List Arrived) (db : Db) : Prop where
  rows : List.Forall₂ Records arrived (ledgerOf key db)
  path : Path (fun _ _ => True) none ((ledgerOf key db).map AuditEvent.balanceChange)
    (currentColumns key db)

/-- The snapshot is older than the cached balance of its key. -/
def Stale (snapshot : HcmSnapshot) (db : Db) : Prop :=
  ∃ row ∈ findBalance snapshot.key db, snapshot.asOf.lt row.hcmSnapshotAt = true

instance (snapshot : HcmSnapshot) (db : Db) : Decidable (Stale snapshot db) :=
  inferInstanceAs (Decidable (∃ row ∈ findBalance _ _, _))

/-- A snapshot of the key that is not stale brings an `asOf` that the column keeps as the log spells it,
and a well-formed snapshot of any other key has another target. -/
def KeepsApart (key : Key) (db : Db) : LedgerEvent → Prop
  | .snapshot _ snapshot =>
    if snapshot.key = key then Heeded snapshot db → snapshot.asOf.stored = some snapshot.asOf.inJson
    else snapshot.key.targetId = key.targetId → ¬ (Heeded snapshot db ∨ Stale snapshot db)
  | .other .. => True

instance (key : Key) (db : Db) : DecidablePred (KeepsApart key db) := by
  intro event
  cases event with
  | snapshot clock snapshot =>
    unfold KeepsApart
    split <;> infer_instance
  | other => exact .isTrue trivial

variable {db after : Db} {key : Key} {snapshot : HcmSnapshot} {result : SnapshotResult}

/-! ## The record of a snapshot -/

/-- The record that is returned is the cached row, or has the columns of the snapshot. -/
theorem upsertBalance_record {now : Int} {record : BalanceRecord}
    (ran : upsertBalance snapshot.key snapshot.balance snapshot.asOf now db = .ok (record, after)) :
    (∃ row, findBalance snapshot.key db = some row ∧ snapshot.asOf.lt row.hcmSnapshotAt = true ∧
      record = row.record) ∨
    (¬ Stale snapshot db ∧ ∃ balance ∈ snapshot.balance,
      record.columns = (balance, snapshot.asOf, versionAfter (currentColumns snapshot.key db))) := by
  cases upsertBalance_upserted ran with
  | first balance stamp absent given nonneg stored =>
    right
    refine ⟨?_, balance, given, ?_⟩
    · simp [Stale, absent]
    · simp [BalanceRecord.columns, versionAfter, currentColumns, absent]
  | stale row found older => exact .inl ⟨row, found, older, rfl⟩
  | newer row balance stamp found current given nonneg stored =>
    right
    refine ⟨?_, balance, given, ?_⟩
    · simp [Stale, found, current]
    · simp [BalanceRecord.columns, versionAfter, currentColumns, found, BalanceRow.record]

theorem applyHcmBalanceSnapshot_record {clock : Clock}
    (ran : applyHcmBalanceSnapshot clock snapshot db = (.ok result, after)) :
    ∃ working, upsertBalance snapshot.key snapshot.balance snapshot.asOf clock.now db =
      .ok (result.balance, working) := by
  obtain ⟨working, upserted, -⟩ := applyHcmBalanceSnapshot_inv ran
  exact ⟨working, upserted⟩

theorem Cached.stale_iff {now : Int} {balances : SerialTable BalanceRow} {ignored : Option Bool}
    (cached : Cached snapshot now db balances ignored) : ignored = some true ↔ Stale snapshot db := by
  cases cached with
  | first balance stamp absent given nonneg stored cached => simp [Stale, absent]
  | stale row found older cached => simpa [Stale, found] using older
  | newer row balance stamp found current given nonneg stored cached => simp [Stale, found, current]

/-- A snapshot goes through exactly if it is stale or heeded. -/
theorem applyHcmBalanceSnapshot_ok_iff (clock : Clock) (snapshot : HcmSnapshot) (db : Db) :
    (∃ result after, applyHcmBalanceSnapshot clock snapshot db = (.ok result, after)) ↔
      Heeded snapshot db ∨ Stale snapshot db := by
  constructor
  · intro ran
    obtain ⟨result, after, ran⟩ := ran
    have cached := (applyHcmBalanceSnapshot_ok ran).cached
    by_cases ignored : result.ignored = some true
    · exact .inr (cached.stale_iff.mp ignored)
    · exact .inl (cached.heeded ignored)
  · intro admitted
    cases admitted with
    | inl heeded =>
      obtain ⟨result, after, ran, _⟩ := heeded.applied clock
      exact ⟨result, after, ran⟩
    | inr stale =>
      obtain ⟨row, found, older⟩ := stale
      have kept : upsertBalance snapshot.key snapshot.balance snapshot.asOf clock.now db =
          .ok (row.record, db) := by
        simp only [upsertBalance, Tx.bind_ok, Tx.query_ok, Prod.mk.injEq]
        refine ⟨_, _, ⟨rfl, rfl⟩, ?_⟩
        simp [Option.mem_def.mp found, older]
      exact applyHcmBalanceSnapshot_of_upsert kept

/-! ## One event -/

/-- The columns of the key after one of its snapshots. -/
theorem currentColumns_self {clock : Clock}
    (ran : applyHcmBalanceSnapshot clock snapshot db = (.ok result, after)) :
    (Stale snapshot db ∧ currentColumns snapshot.key after = currentColumns snapshot.key db ∧
      some result.balance.columns = currentColumns snapshot.key db) ∨
    (¬ Stale snapshot db ∧ ∃ balance ∈ snapshot.balance, ∃ stamp ∈ snapshot.asOf.stored,
      currentColumns snapshot.key after =
        some (balance, stamp, versionAfter (currentColumns snapshot.key db)) ∧
      result.balance.columns = (balance, snapshot.asOf, versionAfter (currentColumns snapshot.key db))) := by
  have applied := applyHcmBalanceSnapshot_ok ran
  obtain ⟨working, upserted⟩ := applyHcmBalanceSnapshot_record ran
  cases upsertBalance_record upserted with
  | inl kept =>
    obtain ⟨row, found, older, same⟩ := kept
    have stale : Stale snapshot db := ⟨row, found, older⟩
    have cached := applied.cached
    rw [cached.stale_iff.mpr stale] at cached
    left
    refine ⟨stale, ?_, ?_⟩
    · simp only [currentColumns, cached.findBalance_stale]
    · simp only [currentColumns, found, Option.map_some, same]
  | inr brought =>
    obtain ⟨fresh, balance, given, columns⟩ := brought
    have unignored : result.ignored ≠ some true := mt applied.cached.stale_iff.mp fresh
    obtain ⟨row, _, stamp, found, givenAgain, stored, rfl, rfl, version⟩ :=
      applied.cached.findBalance_self unignored
    cases (Option.mem_def.mp given).symm.trans givenAgain
    right
    refine ⟨fresh, row.hcmBalance, given, row.hcmSnapshotAt, stored, ?_, columns⟩
    simp only [currentColumns, found, Option.map_some, BalanceRow.record, BalanceRecord.columns, version,
      versionAfter, Option.map_map]
    rfl

theorem currentColumns_other {clock : Clock}
    (ran : applyHcmBalanceSnapshot clock snapshot db = (.ok result, after)) (other : snapshot.key ≠ key) :
    currentColumns key after = currentColumns key db := by
  simp only [currentColumns, (applyHcmBalanceSnapshot_ok ran).cached.findBalance_other (Ne.symm other)]

theorem Enters.ledger_own {entry : AuditEntry} (entered : Enters entry db after)
    (target : entry.targetType = .balance) (own : entry.targetId = key.targetId) :
    ∃ auditNow id, ledgerOf key after = ledgerOf key db ++ [auditEvent auditNow entry id] := by
  apply entered.selected
  intro auditNow id
  simp [ownsRow, auditEvent, target, own]

theorem Enters.ledger_other {entry : AuditEntry} (entered : Enters entry db after)
    (other : ¬ (entry.targetType = .balance ∧ entry.targetId = key.targetId)) :
    ledgerOf key after = ledgerOf key db := by
  apply entered.passed_over
  intro auditNow id
  simp [ownsRow, auditEvent, other]

/-- What a snapshot adds to the log of a key: nothing, or its one row. -/
theorem SnapshotLogged.ledger (logged : SnapshotLogged snapshot result db after) (key : Key) :
    (snapshot.key.targetId ≠ key.targetId → ledgerOf key after = ledgerOf key db) ∧
    (snapshot.key.targetId = key.targetId → ∃ event, ledgerOf key after = ledgerOf key db ++ [event] ∧
      event.after = some (.balance result.balance) ∧
      event.balanceChange = ((currentColumns snapshot.key db).map BalanceColumns.inJson,
        some (BalanceColumns.inJson result.balance.columns))) := by
  obtain ⟨entry, entered, target, targetId, entryBefore, entryAfter, _⟩ := logged.entered
  constructor
  · intro other
    apply entered.ledger_other
    rw [targetId]
    exact fun both => other both.2
  · intro own
    obtain ⟨auditNow, id, ledger⟩ := entered.ledger_own target (targetId.trans own)
    refine ⟨_, ledger, entryAfter, ?_⟩
    simp only [AuditEvent.balanceChange, auditEvent, entryBefore, entryAfter, currentColumns,
      Option.bind_some, AuditRecord.columns?]
    cases findBalance snapshot.key db with
    | none => rfl
    | some row => rfl

/-- The row of a snapshot records it, whatever its `asOf` is. -/
theorem records_own {clock : Clock}
    (ran : applyHcmBalanceSnapshot clock snapshot db = (.ok result, after)) {event : AuditEvent}
    (afterRow : event.after = some (.balance result.balance))
    (change : event.balanceChange = ((currentColumns snapshot.key db).map BalanceColumns.inJson,
      some (BalanceColumns.inJson result.balance.columns))) :
    Records (snapshot, result) event := by
  have applied := applyHcmBalanceSnapshot_ok ran
  have columns := currentColumns_self ran
  refine ⟨afterRow, applied.key, ?_, ?_⟩
  · intro ignored
    cases columns with
    | inl stale =>
      rw [change, ← stale.2.2]
      rfl
    | inr fresh => exact absurd (applied.cached.stale_iff.mp ignored) fresh.1
  · intro unignored
    cases columns with
    | inl stale => exact absurd (applied.cached.stale_iff.mpr stale.1) unignored
    | inr fresh =>
      obtain ⟨_, balance, given, _, _, _, same⟩ := fresh
      refine ⟨balance, given, ?_⟩
      rw [change, same, versionAfter, versionAfter, Option.map_map]
      rfl

/-- A call that brings no balance adds no BALANCE row. -/
theorem ledgerOf_silent {call : Call} (silent : call.bringsBalance = false) (key : Key) (db : Db) :
    ledgerOf key (call.exec db) = ledgerOf key db := by
  obtain ⟨clock, ids, actor, input, row, rfl, _, _, filed⟩ | audited := call.audited db
  · obtain ⟨entry, entered, _, target, _⟩ := filed.entered
    apply entered.ledger_other
    simp [target]
  · cases audited with
    | unlogged same => simp only [ledgerOf, same.auditEvents]
    | turned step =>
      obtain ⟨entry, entered, target, _⟩ := step.entered
      apply entered.ledger_other
      simp [target]
    | escalated brings chain =>
      rw [silent] at brings
      cases brings

/-! ## Runs -/

theorem Replays.congr {arrived : List Arrived} (replays : Replays key arrived db)
    (ledger : ledgerOf key after = ledgerOf key db)
    (columns : currentColumns key after = currentColumns key db) : Replays key arrived after := by
  obtain ⟨rows, path⟩ := replays
  refine ⟨?_, ?_⟩
  · rw [ledger]
    exact rows
  · rw [ledger, columns]
    exact path

theorem Heeded.not_stale (heeded : Heeded snapshot db) : ¬ Stale snapshot db := by
  intro stale
  obtain ⟨row, found, older⟩ := stale
  rw [heeded.2.2 row found] at older
  cases older

theorem Stamp.inJson_inJson (stamp : Stamp) : stamp.inJson.inJson = stamp.inJson := by
  cases stamp with
  | ms time => rfl
  | number value unwhole => cases value <;> rfl
  | text spelling => rfl

theorem AuditRecord.columns?_inJson (record : AuditRecord) :
    record.columns?.map BalanceColumns.inJson = record.columns? := by
  cases record with
  | request row => rfl
  | balance record => simp [columns?, BalanceColumns.inJson, Stamp.inJson_inJson]

/-- What the log ends in is the current row, so JSON spells it as it is. -/
theorem Replays.inJson {arrived : List Arrived} (replays : Replays key arrived db) :
    (currentColumns key db).map BalanceColumns.inJson = currentColumns key db := by
  cases replays.path.final_cases with
  | inl none_ =>
    rw [none_]
    rfl
  | inr last =>
    obtain ⟨change, member, ends⟩ := last
    obtain ⟨event, _, rfl⟩ := List.mem_map.mp member
    rw [← ends, AuditEvent.balanceChange]
    cases event.after with
    | none => rfl
    | some record => exact record.columns?_inJson

/-- A snapshot of the key itself is recorded, and the log still ends in the current row if the column
keeps its `asOf`. -/
theorem Replays.own_iff {arrived : List Arrived} (replays : Replays snapshot.key arrived db) {clock : Clock}
    (ran : applyHcmBalanceSnapshot clock snapshot db = (.ok result, after)) :
    Replays snapshot.key (arrived ++ [(snapshot, result)]) after ↔
      (Heeded snapshot db → snapshot.asOf.stored = some snapshot.asOf.inJson) := by
  obtain ⟨event, ledger, afterRow, change⟩ :=
    ((applyHcmBalanceSnapshot_logged ran).ledger snapshot.key).2 rfl
  have recorded : List.Forall₂ Records (arrived ++ [(snapshot, result)]) (ledgerOf snapshot.key after) := by
    rw [ledger]
    exact List.rel_append replays.rows (.cons (records_own ran afterRow change) .nil)
  have steps : (ledgerOf snapshot.key after).map AuditEvent.balanceChange =
      (ledgerOf snapshot.key db).map AuditEvent.balanceChange ++
        [(currentColumns snapshot.key db, some (BalanceColumns.inJson result.balance.columns))] := by
    rw [ledger, List.map_append, List.map_singleton, change, replays.inJson]
  have ends : Replays snapshot.key (arrived ++ [(snapshot, result)]) after ↔
      some (BalanceColumns.inJson result.balance.columns) = currentColumns snapshot.key after := by
    constructor
    · intro goesOn
      have path := goesOn.path
      rw [steps] at path
      exact (replays.path.rest path).2.2
    · intro same
      refine ⟨recorded, ?_⟩
      rw [steps, ← same]
      exact replays.path.append (Path.step trivial)
  rw [ends]
  cases currentColumns_self ran with
  | inl kept =>
    obtain ⟨stale, same, record⟩ := kept
    constructor
    · intro _ heeded
      exact absurd stale heeded.not_stale
    · intro _
      rw [same, ← replays.inJson, ← record]
      rfl
  | inr brought =>
    obtain ⟨fresh, balance, given, stamp, stored, same, record⟩ := brought
    have heeded : Heeded snapshot db := by
      cases (applyHcmBalanceSnapshot_ok_iff clock snapshot db).mp ⟨result, after, ran⟩ with
      | inl heeded => exact heeded
      | inr stale => exact absurd stale fresh
    rw [same, record, Option.mem_def.mp stored]
    simp [heeded, BalanceColumns.inJson, eq_comm]

/-- A snapshot of another key leaves the log alone if it has another target. -/
theorem Replays.other_iff {arrived : List Arrived} (replays : Replays key arrived db) {clock : Clock}
    (ran : applyHcmBalanceSnapshot clock snapshot db = (.ok result, after)) (other : snapshot.key ≠ key) :
    Replays key arrived after ↔ snapshot.key.targetId ≠ key.targetId := by
  have logged := (applyHcmBalanceSnapshot_logged ran).ledger key
  constructor
  · intro goesOn same
    obtain ⟨event, ledger, _⟩ := logged.2 same
    -- one row more than there are snapshots of the key
    have before := replays.rows.length_eq
    have count := goesOn.rows.length_eq
    rw [ledger, List.length_append, ← before, List.length_singleton] at count
    omega
  · intro apart
    exact replays.congr (logged.1 apart) (currentColumns_other ran other)

/-- The log goes on replaying exactly if the step keeps it apart. -/
theorem Replays.step_iff {arrived : List Arrived} (replays : Replays key arrived db)
    (event : LedgerEvent) (next : Db) (stepped : ledgerStep db event = some next) :
    Replays key (recordArrival key arrived db event next) next ↔ KeepsApart key db event := by
  cases event with
  | other call silent =>
    cases stepped
    have columns : currentColumns key (call.exec db) = currentColumns key db := by
      simp only [currentColumns, findBalance_congr (Call.balances silent db)]
    exact iff_of_true (replays.congr (ledgerOf_silent silent key db) columns) trivial
  | snapshot clock snapshot =>
    cases stepped
    have admitted := applyHcmBalanceSnapshot_ok_iff clock snapshot db
    obtain ⟨result, after, ran, _⟩ | ⟨failure, ran⟩ := applyHcmBalanceSnapshot_cases clock snapshot db
    · have goesThrough := admitted.mp ⟨result, after, ran⟩
      simp only [recordArrival, KeepsApart, ran]
      by_cases own : snapshot.key = key
      · subst own
        simp only [if_true]
        exact replays.own_iff ran
      · simp only [own, if_false]
        rw [replays.other_iff ran own]
        simp [goesThrough]
    -- what throws leaves no trace, and was neither stale nor heeded
    · have refused : ¬ (Heeded snapshot db ∨ Stale snapshot db) := by
        intro goesThrough
        obtain ⟨result, after, ranOk⟩ := admitted.mpr goesThrough
        cases ranOk.symm.trans ran
      simp only [recordArrival, KeepsApart, ran]
      apply iff_of_true replays
      split
      · exact fun heeded => absurd (Or.inl heeded) refused
      · exact fun _ => refused

theorem Replays.empty (key : Key) : Replays key [] Db.empty := ⟨.nil, rfl⟩

/-- In every run the BALANCE rows of the key are its snapshots in the order of their arrival, chained
from null to the current row, exactly if every step keeps the log of the key apart. -/
theorem balance_replays_iff (key : Key) (events : List LedgerEvent) :
    Always (withHistory ledgerStep (recordArrival key)) (fun state => Replays key state.2 state.1)
        (Db.empty, []) events ↔
      StepsMeet ledgerStep (KeepsApart key) Db.empty events := by
  rw [← stepsMeet_withHistory (recordArrival key) Db.empty []]
  apply always_iff_stepsMeet (fun _ => True)
  · intro _ _ _ _ _
    trivial
  · intro state event _ replays
    constructor
    · intro goesOn
      obtain ⟨next, stepped⟩ : ∃ next, ledgerStep state.1 event = some next := by
        cases event with
        | snapshot clock snapshot => exact ⟨_, rfl⟩
        | other call silent => exact ⟨_, rfl⟩
      have replaysNext := goesOn (next, recordArrival key state.2 state.1 event next)
        (withHistory_eq_some.mpr ⟨stepped, rfl⟩)
      exact (replays.step_iff event next stepped).mp replaysNext
    · intro apart next stepped
      obtain ⟨stepped, recorded⟩ := withHistory_eq_some.mp stepped
      rw [recorded]
      exact (replays.step_iff event next.1 stepped).mpr apart
  · trivial
  · exact .empty key

namespace Office

/-- HCM reports a balance of the key under this `asOf`. -/
def report (key : Key) (balance : ℚ) (asOf : Stamp) : LedgerEvent :=
  .snapshot clock { key := key, balance := some balance, asOf := asOf }

def colonInEmployee : Key := ⟨"a:b", "c", "vacation"⟩

def colonInLocation : Key := ⟨"a", "b:c", "vacation"⟩

/-- The state after the events, with the snapshots of the key. -/
def ledgerRun (key : Key) (events : List LedgerEvent) : Option (Db × List Arrived) :=
  run (withHistory ledgerStep (recordArrival key)) (Db.empty, []) events

end Office

/-- Two keys share one target, so the log of the first holds the snapshot of the second; and the log of
a balance that is dated by a year alone does not end in the current row. -/
theorem shared_target_and_year :
    (Office.colonInEmployee ≠ Office.colonInLocation ∧
      ∃ state ∈ Office.ledgerRun Office.colonInEmployee
          [Office.report Office.colonInEmployee 5 (.ms 0), Office.report Office.colonInLocation 7 (.ms 0)],
        (findBalance Office.colonInEmployee state.1).isSome = true ∧
        ¬ Replays Office.colonInEmployee state.2 state.1) ∧
    ∃ state ∈ Office.ledgerRun Office.key [Office.report Office.key 5 (.text "2026")],
      (findBalance Office.key state.1).isSome = true ∧ ¬ Replays Office.key state.2 state.1 := by
  have first := (Replays.empty Office.colonInEmployee).step_iff
    (Office.report Office.colonInEmployee 5 (.ms 0)) _ rfl
  have second := (first.mpr (by decide +kernel)).step_iff
    (Office.report Office.colonInLocation 7 (.ms 0)) _ rfl
  have year := (Replays.empty Office.key).step_iff (Office.report Office.key 5 (.text "2026")) _ rfl
  refine ⟨⟨by decide, _, rfl, by decide +kernel, ?_⟩, _, rfl, by decide +kernel, ?_⟩
  · exact mt second.mp (by decide +kernel)
  · exact mt year.mp (by decide +kernel)

end TimeOff
