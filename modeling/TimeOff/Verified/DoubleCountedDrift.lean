import TimeOff.Verified.OverCommitment

/-! # Drift and our own debits

From HCM's debit of a consume until `markConsumed` the days of a request are
missing from HCM's balance and still in the open sum.  A snapshot dated in
between is compared with a sum that HCM has lowered already.  Each snapshot
comes with the number of debits that HCM had made at its `asOf`.
-/

set_option autoImplicit false

namespace TimeOff

open TimeOff.Lib BalancesRepository BalancesService ReconciliationService

/-- HCM has taken the days of the request with one of these debits. -/
def debitedAmong (seen : List Consume) (requestId : String) : Bool :=
  seen.any fun call => call.row.requestId = requestId

/-- The days of the key's open reservations that HCM had not debited. -/
def undebitedDays (seen : List Consume) (key : Key) (db : Db) : ℚ :=
  ((db.reservations.rows.filter fun row => openFor key row && !debitedAmong seen row.requestId).map
    ReservationRow.days).sum

/-- A snapshot, and how many debits HCM had made at its `asOf`. -/
structure DatedSnapshot where
  clock : RowClock
  snapshot : HcmSnapshot
  seen : Nat

/-- An event, and for each snapshot that it brings how many debits HCM had made at the `asOf`. -/
abbrev DatedEvent := Event × (Nat → Nat)

/-- The snapshots of the event in the order in which they are applied. -/
def snapshotsOf : DatedEvent → List DatedSnapshot
  | (.call (.handleBatch clocks batch), seen) =>
    batch.balances.mapIdx fun i row => ⟨clocks i, rowSnapshot batch.asOf (clocks i) row, seen i⟩
  | (.call (.reconcileKey clock key reply), seen) =>
    match HcmClient.getBalance key reply with
    | .ok (some view) =>
      [⟨clock, { key := key, balance := view.balance, asOf := view.asOf.getD (.ms clock.fallback)
                 source := .hcmPull }, seen 0⟩]
    | _ => []
  | (.crashInBatch clocks batch rows _, seen) =>
    (batch.balances.take (rows + 1)).mapIdx fun i row =>
      ⟨clocks i, rowSnapshot batch.asOf (clocks i) row, seen i⟩
  | _ => []

/-- The loop over the snapshots of an event, which ends at the one that throws. -/
def snapshotStep (db : Db) (dated : DatedSnapshot) : Option Db :=
  match applyAndEscalate dated.clock dated.snapshot db with
  | (.ok _, after) => some after
  | (.error _, _) => none

def datedStep (config : OutboxConfig) (world : World) (event : DatedEvent) : Option World :=
  World.step config world event.1

/-- Every snapshot of the event passes the test in the database it meets. -/
def SnapshotsMeet (test : List Consume → DatedSnapshot → Db → Prop) (world : World) (event : DatedEvent) :
    Prop :=
  StepsMeet snapshotStep (fun db dated => test (world.debits.take dated.seen) dated db) world.db
    (snapshotsOf event)

instance (test : List Consume → DatedSnapshot → Db → Prop) [∀ seen dated db, Decidable (test seen dated db)]
    (world : World) (event : DatedEvent) : Decidable (SnapshotsMeet test world event) :=
  inferInstanceAs (Decidable (StepsMeet _ _ _ _))

/-- A snapshot that is not ignored and leaves enough for the reservations which HCM had not debited
reports no drift and sends no request to review. -/
def Justified (seen : List Consume) (dated : DatedSnapshot) (db : Db) : Prop :=
  match applyAndEscalate dated.clock dated.snapshot db with
  | (.ok result, after) => result.ignored ≠ some true → ∀ balance ∈ dated.snapshot.balance,
      undebitedDays seen dated.snapshot.key db ≤ balance →
        result.negativeDrift = false ∧ after.requests.rows = db.requests.rows
  | (.error _, _) => True

instance (seen : List Consume) (dated : DatedSnapshot) (db : Db) : Decidable (Justified seen dated db) := by
  unfold Justified
  split <;> infer_instance

/-- The snapshot is well-formed and not older than the cached balance. -/
def Heeded (snapshot : HcmSnapshot) (db : Db) : Prop :=
  (∃ balance ∈ snapshot.balance, 0 ≤ balance) ∧ snapshot.asOf.stored ≠ none ∧
    ∀ row ∈ findBalance snapshot.key db, snapshot.asOf.lt row.hcmSnapshotAt = false

instance (snapshot : HcmSnapshot) (db : Db) : Decidable (Heeded snapshot db) :=
  inferInstanceAs (Decidable ((∃ balance ∈ snapshot.balance, _) ∧ _ ∧ ∀ row ∈ findBalance _ _, _))

/-- HCM had debited a reservation that is still open, and what it reports covers the open
reservations without the debited ones but not with them. -/
def CountsTwice (seen : List Consume) (dated : DatedSnapshot) (db : Db) : Prop :=
  Heeded dated.snapshot db ∧
  (∃ row ∈ db.reservations.rows, openFor dated.snapshot.key row = true ∧
    debitedAmong seen row.requestId = true) ∧
  ∃ balance ∈ dated.snapshot.balance, undebitedDays seen dated.snapshot.key db ≤ balance ∧
    balance < sumOpenReservations dated.snapshot.key db

instance (seen : List Consume) (dated : DatedSnapshot) (db : Db) : Decidable (CountsTwice seen dated db) :=
  inferInstanceAs (Decidable (_ ∧ (∃ row ∈ db.reservations.rows, _) ∧ ∃ balance ∈ dated.snapshot.balance, _))

variable {db after : Db} {seen : List Consume} {dated : DatedSnapshot}

/-- Without a debited reservation among the open ones nothing is left out. -/
theorem undebitedDays_eq (key : Key) (none : ∀ row ∈ db.reservations.rows, openFor key row = true →
    debitedAmong seen row.requestId = false) : undebitedDays seen key db = sumOpenReservations key db := by
  simp only [undebitedDays, sumOpenReservations]
  congr 2
  apply List.filter_congr
  intro row member
  cases isOpen : openFor key row with
  | false => rfl
  | true => rw [none row member isOpen]; rfl

theorem Cached.heeded {snapshot : HcmSnapshot} {now : Int} {balances : SerialTable BalanceRow}
    {ignored : Option Bool} (cached : Cached snapshot now db balances ignored)
    (unignored : ignored ≠ some true) : Heeded snapshot db := by
  cases cached with
  | first balance stamp absent given nonneg stored cached =>
    exact ⟨⟨balance, given, nonneg⟩, by simp [stored], by simp [absent]⟩
  | stale row found older cached => exact absurd rfl unignored
  | newer row balance stamp found current given nonneg stored cached =>
    exact ⟨⟨balance, given, nonneg⟩, by simp [stored], by simpa [found] using current⟩

/-- A heeded snapshot goes through and is not ignored. -/
theorem Heeded.applied {snapshot : HcmSnapshot} (heeded : Heeded snapshot db) (clock : Clock) :
    ∃ result after, applyHcmBalanceSnapshot clock snapshot db = (.ok result, after) ∧
      Snapshotted snapshot clock.now result db after ∧ result.ignored ≠ some true := by
  obtain ⟨⟨balance, given, nonneg⟩, storable, current⟩ := heeded
  obtain ⟨stamp, stored⟩ := Option.ne_none_iff_exists'.mp storable
  obtain ⟨result, after, ran⟩ := applyHcmBalanceSnapshot_total given nonneg stored clock db
  have applied := applyHcmBalanceSnapshot_ok ran
  refine ⟨result, after, ran, applied, ?_⟩
  have cached := applied.cached
  intro ignored
  rw [ignored] at cached
  cases cached with
  | stale row found older same =>
    rw [current row found] at older
    cases older

/-- Without drift no request is touched. -/
theorem applyAndEscalate_calm {clock : RowClock} {snapshot : HcmSnapshot} {result : SnapshotResult}
    (ran : applyAndEscalate clock snapshot db = (.ok result, after))
    (calm : result.negativeDrift = false) : after.requests = db.requests := by
  simp only [applyAndEscalate] at ran
  split at ran
  · cases ran
  next applied middle went =>
    split at ran
    next drift =>
      cases ran
      rw [calm] at drift
      cases drift
    next =>
      cases ran
      exact (applyHcmBalanceSnapshot_ok went).requests

/-- A snapshot raises a false alarm exactly when it counts a debit twice. -/
theorem justified_iff : Justified seen dated db ↔ ¬ CountsTwice seen dated db := by
  constructor
  · intro justified counted
    obtain ⟨heeded, _, balance, given, enough, below⟩ := counted
    obtain ⟨result, middle, went, applied, unignored⟩ := heeded.applied dated.clock.snapshot
    have drift : result.negativeDrift = true :=
      applied.drift.mpr ⟨unignored, by rw [Option.mem_def.mp given]; simpa using below⟩
    simp only [Justified] at justified
    simp only [applyAndEscalate, went, drift, if_true] at justified
    cases (justified unignored balance given enough).1
  · intro single
    simp only [Justified]
    split
    next result after ran =>
      intro unignored balance given enough
      obtain ⟨middle, went, _⟩ := applyAndEscalate_result ran
      have applied := applyHcmBalanceSnapshot_ok went
      have calm : result.negativeDrift = false := by
        by_contra flagged
        have below := (applied.drift.mp (by simpa using flagged)).2
        rw [Option.mem_def.mp given, Option.any_some, decide_eq_true_eq] at below
        refine single ⟨applied.cached.heeded unignored, ?_, balance, given, enough, below⟩
        by_contra apart
        rw [undebitedDays_eq] at enough
        · exact absurd below (not_lt.mpr enough)
        · intro row member isOpen
          by_contra debited
          exact apart ⟨row, member, isOpen, by simpa using debited⟩
      exact ⟨calm, congrArg Table.rows (applyAndEscalate_calm ran calm)⟩
    next => trivial

/-- In every run, each snapshot that HCM's remaining days justify passes without drift and without
sending a request to review exactly if no snapshot of the run counts a debit twice. -/
theorem drift_justified_iff (config : OutboxConfig) (events : List DatedEvent) :
    StepsMeet (datedStep config) (SnapshotsMeet Justified) World.empty events ↔
      StepsMeet (datedStep config) (SnapshotsMeet fun seen dated db => ¬ CountsTwice seen dated db)
        World.empty events := by
  apply stepsMeet_congr
  intro world event
  apply stepsMeet_congr
  intro db dated
  exact justified_iff

/-- HCM holds ten days, debits all ten for the request, and pushes the zero that is left before the
worker learns of its answer. -/
theorem push_after_debit_escalates :
    ∃ world ∈ run (World.step Office.config) World.empty (Office.claimed ++
        [.balanceReply Office.clock (Office.balance 10), .hcmHandles 0]),
      hcmBalance 10 Office.key world = 0 ∧ undebitedDays world.debits Office.key world.db = 0 ∧
      ¬ SnapshotsMeet Justified world (.call (Office.snapshot 0 1), fun _ => 1) ∧
      ∃ pushed ∈ World.step Office.config world (.call (Office.snapshot 0 1)),
        requestState "r1" pushed.db = some .reviewRequired := by
  decide +kernel

end TimeOff
