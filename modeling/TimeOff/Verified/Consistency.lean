import TimeOff.Verified.CallSequences
import TimeOff.Verified.Coherence
import TimeOff.Verified.FilingReply
import TimeOff.Verified.Payloads

/-! # The tables are consistent, crashes included

A statement checks the constraints that it could break, and no others.  All the same every
constraint that `schema.js` declares holds in every state of the system, and with them what
the schema cannot declare: each request has its one reservation.
-/

set_option autoImplicit false

namespace TimeOff

open TimeOff.Lib BalancesRepository

/-- The constraints of `schema.js`. -/
structure MeetsSchema (db : Db) : Prop where
  /-- UNIQUE (employee_id, location_id, leave_type) -/
  balanceKeys : UniqueKeys db
  /-- CHECK (hcm_balance >= 0) -/
  hcmBalances : ∀ row ∈ db.balances.rows, 0 ≤ row.hcmBalance
  /-- CHECK (days > 0), on requests and on reservations -/
  requestDays : ∀ row ∈ db.requests.rows, 0 < row.days
  reservationDays : ∀ row ∈ db.reservations.rows, 0 < row.days
  /-- external_request_id UNIQUE -/
  externalRequestIds : ∀ left ∈ db.requests.rows, ∀ right ∈ db.requests.rows, ∀ externalRequestId,
    left.externalRequestId = some externalRequestId →
    right.externalRequestId = some externalRequestId → left = right
  /-- REFERENCES requests(id), from reservations and from the outbox -/
  reservationRequests : ∀ row ∈ db.reservations.rows, ∃ request ∈ db.requests.rows, request.id = row.requestId
  outboxRequests : ∀ row ∈ db.hcmOutbox.rows, ∃ request ∈ db.requests.rows, request.id = row.requestId

/-! ## The cached balances -/

def NonnegBalances (db : Db) : Prop := ∀ row ∈ db.balances.rows, 0 ≤ row.hcmBalance

variable {db after : Db}

theorem NonnegBalances.congr (nonneg : NonnegBalances db) (same : after.balances = db.balances) :
    NonnegBalances after := by
  rw [NonnegBalances, same]
  exact nonneg

theorem NonnegBalances.snapshotted {snapshot : HcmSnapshot} {now : Int} {result : SnapshotResult}
    (nonneg : NonnegBalances db) (applied : Snapshotted snapshot now result db after) :
    NonnegBalances after := by
  have cached := applied.cached
  generalize result.ignored = ignored at cached
  cases cached with
  | first balance stamp absent given checked stored cached =>
    intro row member
    rw [cached, SerialTable.rows_append, List.mem_append, List.mem_singleton] at member
    cases member with
    | inl old => exact nonneg row old
    | inr new =>
      rw [new]
      exact checked
  | stale row found older cached => exact nonneg.congr cached
  | newer row balance stamp found current given checked stored cached =>
    intro other member
    rw [cached] at member
    obtain ⟨old, oldIn, ⟨_, rfl⟩ | ⟨_, rfl⟩⟩ := SerialTable.exists_of_mem_update member
    · exact checked
    · exact nonneg other oldIn

theorem NonnegBalances.effect {results : List SnapshotResult} (nonneg : NonnegBalances db)
    (effect : Effect db results after) : NonnegBalances after := by
  refine effect.preserves ?_ ?_ ?_ ?_ nonneg
  · intro row now db after holds filed
    exact holds.congr filed.balances
  · intro before toState now patch db after holds moved
    exact holds.congr moved.balances
  · intro snapshot now result db after holds applied
    exact holds.snapshotted applied
  · intro db after holds requeued
    exact holds.congr requeued.balances

/-! ## All tables -/

/-- What every call preserves, and the constraints of the schema follow from. -/
structure Consistent (db : Db) : Prop where
  coherent : Coherent db
  whole : WholeDays db
  unique : UniqueKeys db
  nonneg : NonnegBalances db
  labelled : Labelled db

theorem Consistent.empty : Consistent Db.empty :=
  ⟨.empty, .empty, .empty, by simp [NonnegBalances, Db.empty], .empty⟩

theorem Consistent.exec (consistent : Consistent db) (call : Call) : Consistent (call.exec db) := by
  have effect := call.effect db
  exact ⟨consistent.coherent.effect effect, consistent.whole.effect effect,
    consistent.unique.effect effect, consistent.nonneg.effect effect, consistent.labelled.effect effect⟩

theorem Consistent.reservationDays (consistent : Consistent db) :
    ∀ row ∈ db.reservations.rows, 0 < row.days := by
  intro row member
  obtain ⟨n, positive, days⟩ := consistent.whole row member
  rw [days]
  exact Nat.cast_pos.mpr positive

theorem Consistent.meetsSchema (consistent : Consistent db) : MeetsSchema db := by
  refine ⟨consistent.unique, consistent.nonneg, ?_, consistent.reservationDays, ?_, ?_, ?_⟩
  -- the days of a request are those of its reservation
  · intro request member
    obtain ⟨reservation, reservationIn, pair⟩ := consistent.coherent.exists_reservation member
    rw [← pair.days]
    exact consistent.reservationDays reservation reservationIn
  · intro left leftIn right rightIn externalRequestId leftHas rightHas
    apply db.requests.eq_of_key leftIn rightIn
    exact consistent.labelled.distinct left leftIn right rightIn externalRequestId leftHas rightHas
  · intro reservation member
    have references := lockstep_refers consistent.coherent fun _ _ pair => pair.requestId
    apply List.mem_map.mp
    rw [← references]
    exact List.mem_map_of_mem member
  · intro row member
    obtain ⟨request, _, found, _⟩ := consistent.labelled.outbox row member
    exact ⟨request, Table.find?_eq_some.mp found⟩

theorem consistent_throughout (config : OutboxConfig) (events : List Event) :
    Always (World.step config) (fun world => Consistent world.db) World.empty events :=
  always_of_calls (fun call _ consistent => consistent.exec call) .empty events

/-- At every moment of every run, whatever has crashed on the way, the tables meet the schema, every
request has its one reservation, and the open reservations of a key are the days its requests hold. -/
theorem tables_consistent (config : OutboxConfig) (events : List Event) :
    Always (World.step config) (fun world => MeetsSchema world.db ∧
      (∀ request ∈ world.db.requests.rows, OwnReservation request world.db) ∧
      ∀ key, sumOpenReservations key world.db = heldDays key world.db) World.empty events := by
  apply (consistent_throughout config events).mono
  intro world consistent
  exact ⟨consistent.meetsSchema, fun _ member => consistent.coherent.ownReservation member,
    consistent.coherent.sumOpenReservations⟩

end TimeOff
