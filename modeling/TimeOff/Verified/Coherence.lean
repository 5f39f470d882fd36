import TimeOff.Lib.Lockstep
import TimeOff.Verified.Changes

/-! # Requests and reservations agree

Requests and reservations are inserted in lockstep, and every state change of a
request takes its reservation along.  So the two tables match row by row, and
the open reservations of a key are the days its requests hold.
-/

set_option autoImplicit false

namespace TimeOff

open TimeOff.Lib BalancesRepository TimeOffRepository

/-- The state of the reservation of a request in this state. -/
def State.reservation : State → ReservationState
  | .pending | .approved | .reviewRequired => .open
  | .consumed => .consumed
  | .rejected | .cancelled | .hcmFailed => .released

theorem State.reservation_open {state : State} : state.reservation = .open ↔ state.holding = true := by
  cases state <;> decide

theorem State.reservation_of_closes (state : State) : state.reservation = state.closes.getD .open := by
  cases state <;> rfl

/-- The reservation belongs to the request and stands as the request's state demands. -/
structure Matches (request : RequestRow) (reservation : ReservationRow) : Prop where
  requestId : reservation.requestId = request.id
  key : reservation.key = request.key
  days : reservation.days = request.days
  state : reservation.state = request.state.reservation

def Coherent (db : Db) : Prop := List.Forall₂ Matches db.requests.rows db.reservations.rows

theorem Coherent.filed {row : RequestRow} {now : Int} {db after : Db} (coherent : Coherent db)
    (filed : Filed row now db after) : Coherent after := by
  simp only [Coherent]
  rw [filed.requests, filed.reservations, SerialTable.rows_append]
  refine lockstep_append coherent ⟨rfl, rfl, rfl, ?_⟩
  rw [filed.state]
  rfl

/-- The reservation after a state change of the request `id`. -/
def settledReservation (id : String) (closes : Option ReservationState) (now : Int)
    (reservation : ReservationRow) : ReservationRow :=
  match closes with
  | none => reservation
  | some closed => patchRow (fun row => row.requestId = id ∧ row.state = .open)
      (fun row => { row with state := closed, updatedAt := now }) reservation

theorem Moved.reservations_rows {before : RequestRow} {toState : State} {now : Int}
    {patch : StatePatch} {db after : Db} (moved : Moved before toState now patch db after) :
    after.reservations.rows =
      db.reservations.rows.map (settledReservation before.id toState.closes now) := by
  have settled := moved.reservations
  cases closes : toState.closes with
  | none =>
    rw [closes] at settled
    rw [settled]
    exact (List.map_id _).symm
  | some closed =>
    rw [closes] at settled
    rw [settled]
    rfl

/-- A state change takes the reservation along. -/
theorem Matches.moved {before request : RequestRow} {reservation : ReservationRow} {toState : State}
    {now : Int} {patch : StatePatch} (legal : canTransition before.state toState = true)
    (same : request.id = before.id → request = before) (pair : Matches request reservation) :
    Matches (patchRow (inState before.id before.state) (patched toState now patch) request)
      (settledReservation before.id toState.closes now reservation) := by
  simp only [settledReservation]
  by_cases own : request.id = before.id
  · obtain rfl := same own
    have hit : inState request.id request.state request = true := by simp [inState]
    rw [patchRow_of_hit hit]
    have target := State.reservation_of_closes toState
    cases closes : toState.closes with
    | none =>
      -- from one state that holds the days to another: the reservation stays open
      rw [closes, Option.getD_none] at target
      refine ⟨pair.requestId, pair.key, pair.days, ?_⟩
      have holding : request.state.holding = true := by
        obtain holding | ⟨_, rfl⟩ := holding_of_canTransition legal
        · exact holding
        · cases closes
      exact pair.state.trans ((State.reservation_open.mpr holding).trans target.symm)
    | some closed =>
      rw [closes, Option.getD_some] at target
      obtain holding | ⟨failed, rfl⟩ := holding_of_canTransition legal
      -- the days were held, and the open reservation is closed
      · have isOpen : reservation.state = .open :=
          pair.state.trans (State.reservation_open.mpr holding)
        dsimp only
        rw [patchRow_of_hit (by simp [pair.requestId, isOpen])]
        exact ⟨pair.requestId, pair.key, pair.days, target.symm⟩
      -- from HCM_FAILED to CANCELLED: released before, so the UPDATE hits no row
      · have released : reservation.state = .released := by
          rw [pair.state, failed]
          rfl
        dsimp only
        rw [patchRow_of_miss (by simp [released])]
        exact ⟨pair.requestId, pair.key, pair.days, released⟩
  -- another request, whose reservation refers to it and not to the one that moved
  · have miss : inState before.id before.state request = false := by simp [inState, own]
    rw [patchRow_of_miss miss]
    cases toState.closes with
    | none => exact pair
    | some closed =>
      dsimp only
      rw [patchRow_of_miss (by simp [pair.requestId, own])]
      exact pair

theorem Coherent.moved {before : RequestRow} {toState : State} {now : Int} {patch : StatePatch}
    {db after : Db} (coherent : Coherent db) (moved : Moved before toState now patch db after) :
    Coherent after := by
  obtain ⟨beforeIn, _⟩ := Table.find?_eq_some.mp moved.found
  simp only [Coherent]
  rw [moved.requests, moved.reservations_rows]
  apply lockstep_map coherent
  intro request member reservation pair
  exact pair.moved moved.legal fun own => db.requests.eq_of_key member beforeIn own

theorem Coherent.effect {db after : Db} {results : List SnapshotResult} (coherent : Coherent db)
    (effect : Effect db results after) : Coherent after := by
  refine effect.preserves ?_ ?_ ?_ ?_ coherent
  · intro row now db after holds filed
    exact holds.filed filed
  · intro before toState now patch db after holds moved
    exact holds.moved moved
  · intro snapshot now result db after holds snapshotted
    rw [Coherent, snapshotted.requests, snapshotted.reservations]
    exact holds
  · intro db after holds requeued
    rw [Coherent, requeued.requests, requeued.reservations]
    exact holds

theorem Coherent.empty : Coherent Db.empty := .nil

/-! ## Reading the two tables together -/

/-- The one reservation of a request. -/
theorem Coherent.reservation {db : Db} (coherent : Coherent db) {request : RequestRow}
    (member : request ∈ db.requests.rows) :
    ∃ reservation, db.reservations.rows.filter (fun row => row.requestId = request.id) = [reservation] ∧
      Matches request reservation :=
  lockstep_unique coherent (fun _ _ pair => pair.requestId) db.requests.unique member

theorem Coherent.exists_reservation {db : Db} (coherent : Coherent db) {request : RequestRow}
    (member : request ∈ db.requests.rows) :
    ∃ reservation ∈ db.reservations.rows, Matches request reservation := by
  obtain ⟨reservation, only, pair⟩ := coherent.reservation member
  exact ⟨reservation, List.mem_of_mem_filter (only ▸ List.mem_singleton_self reservation), pair⟩

/-- The days that the requests of the key hold. -/
def heldDays (key : Key) (db : Db) : ℚ :=
  ((db.requests.rows.filter fun row => row.key = key ∧
    (row.state = .pending ∨ row.state = .approved ∨ row.state = .reviewRequired)).map
      RequestRow.days).sum

theorem Coherent.sumOpenReservations {db : Db} (coherent : Coherent db) (key : Key) :
    sumOpenReservations key db = heldDays key db := by
  simp only [BalancesRepository.sumOpenReservations, heldDays]
  congr 1
  apply lockstep_filter_map coherent
  intro request reservation pair
  refine ⟨?_, pair.days⟩
  simp only [openFor]
  rw [pair.key, pair.state]
  cases request.state <;> simp [State.reservation]

/-- The reservations of a request are one row, with the request's own key and days, open, consumed
or released as the request's state says. -/
def OwnReservation (request : RequestRow) (db : Db) : Prop :=
  ∃ reservation, db.reservations.rows.filter (fun row => row.requestId = request.id) = [reservation] ∧
    reservation.key = request.key ∧ reservation.days = request.days ∧
    (reservation.state = .open ↔
      request.state = .pending ∨ request.state = .approved ∨ request.state = .reviewRequired) ∧
    (reservation.state = .consumed ↔ request.state = .consumed) ∧
    (reservation.state = .released ↔
      request.state = .rejected ∨ request.state = .cancelled ∨ request.state = .hcmFailed)

theorem Coherent.ownReservation {db : Db} (coherent : Coherent db) {request : RequestRow}
    (member : request ∈ db.requests.rows) : OwnReservation request db := by
  obtain ⟨reservation, only, pair⟩ := coherent.reservation member
  refine ⟨reservation, only, pair.key, pair.days, ?_⟩
  rw [pair.state]
  cases request.state <;> simp [State.reservation]

/-- After any sequence of calls, every request has its one reservation and the open reservations of
a key are the days its requests hold. -/
theorem requests_and_reservations_agree (calls : List Call) :
    (∀ request ∈ (execAll calls Db.empty).requests.rows,
      OwnReservation request (execAll calls Db.empty)) ∧
    ∀ key, sumOpenReservations key (execAll calls Db.empty) = heldDays key (execAll calls Db.empty) := by
  have coherent : Coherent (execAll calls Db.empty) :=
    execAll_invariant (fun call db holds => holds.effect (call.effect db)) calls .empty
  exact ⟨fun request member => coherent.ownReservation member, coherent.sumOpenReservations⟩

end TimeOff
