import TimeOff.Lib.Agreement
import TimeOff.System.Operations
import TimeOff.Verified.Payloads
import TimeOff.Verified.Snapshots

/-! # What an operation can see of the tables

A set of keys cuts a slice out of the balances, the requests and the
reservations.  An operation on a request or a key of the slice reads and writes
rows of the slice only: on two databases with the same slice it answers the same
and leaves the same slice, apart from the ids that the tables assign.
-/

set_option autoImplicit false

namespace TimeOff

open TimeOff.Lib AuditService BalancesRepository BalancesService TimeOffRepository TimeOffService
  ReconciliationService HcmOutboxService

/-- The row apart from the id that the table assigned. -/
def BalanceRow.apart (row : BalanceRow) : BalanceRow := { row with id := 0 }

def ReservationRow.apart (row : ReservationRow) : ReservationRow := { row with id := 0 }

def ownRequests (own : Key → Bool) (db : Db) : List RequestRow :=
  db.requests.rows.filter fun row => own row.key

def ownReservations (own : Key → Bool) (db : Db) : List ReservationRow :=
  (db.reservations.rows.filter fun row => own row.key).map ReservationRow.apart

/-- The two databases show the same rows of the keys that `own` selects. -/
structure SameSlice (own : Key → Bool) (left right : Db) : Prop where
  balances : ∀ key, own key = true →
    (findBalance key left).map BalanceRow.apart = (findBalance key right).map BalanceRow.apart
  requests : ownRequests own left = ownRequests own right
  reservations : ownReservations own left = ownReservations own right

variable {own : Key → Bool} {left right third : Db}

theorem SameSlice.refl (own : Key → Bool) (db : Db) : SameSlice own db db := ⟨fun _ _ => rfl, rfl, rfl⟩

theorem SameSlice.symm (slice : SameSlice own left right) : SameSlice own right left :=
  ⟨fun key owned => (slice.balances key owned).symm, slice.requests.symm, slice.reservations.symm⟩

theorem SameSlice.trans (first : SameSlice own left right) (second : SameSlice own right third) :
    SameSlice own left third :=
  ⟨fun key owned => (first.balances key owned).trans (second.balances key owned),
    first.requests.trans second.requests, first.reservations.trans second.reservations⟩

/-- A request of the slice, as both databases have it. -/
structure Sees (own : Key → Bool) (row : RequestRow) (left right : Db) : Prop where
  slice : SameSlice own left right
  foundLeft : left.requests.find? row.id = some row
  foundRight : right.requests.find? row.id = some row
  owned : own row.key = true

theorem mem_ownRequests {db : Db} {row : RequestRow} :
    row ∈ ownRequests own db ↔ row ∈ db.requests.rows ∧ own row.key = true :=
  List.mem_filter

theorem SameSlice.sees (slice : SameSlice own left right) {id : String} {row : RequestRow}
    (found : left.requests.find? id = some row) (owned : own row.key = true) : Sees own row left right := by
  obtain ⟨stored, rfl⟩ := Table.find?_eq_some.mp found
  have inRight : row ∈ ownRequests own right := by
    rw [← slice.requests]
    exact mem_ownRequests.mpr ⟨stored, owned⟩
  exact ⟨slice, found, Table.find?_eq_some.mpr ⟨(mem_ownRequests.mp inRight).1, rfl⟩, owned⟩

/-! ## Statements on the slice -/

theorem sumOpenReservations_own (db : Db) {key : Key} (owned : own key = true) :
    sumOpenReservations key db =
      (((ownReservations own db).filter (openFor key)).map ReservationRow.days).sum := by
  simp only [sumOpenReservations, ownReservations, List.filter_map, List.map_map, List.filter_filter]
  congr 2
  apply List.filter_congr
  intro row _
  simp only [openFor, Function.comp_apply, ReservationRow.apart]
  by_cases same : row.key = key
  · simp [same, owned]
  · simp [same]

theorem SameSlice.sumOpenReservations (slice : SameSlice own left right) {key : Key}
    (owned : own key = true) :
    BalancesRepository.sumOpenReservations key left = BalancesRepository.sumOpenReservations key right := by
  rw [sumOpenReservations_own left owned, sumOpenReservations_own right owned, slice.reservations]

theorem SameSlice.listApprovedIdsForKey (slice : SameSlice own left right) {key : Key}
    (owned : own key = true) :
    TimeOffRepository.listApprovedIdsForKey key left = TimeOffRepository.listApprovedIdsForKey key right := by
  have listed : ∀ db, TimeOffRepository.listApprovedIdsForKey key db =
      ((ownRequests own db).filter fun row => row.key = key ∧ row.state = .approved).map RequestRow.id := by
    intro db
    simp only [TimeOffRepository.listApprovedIdsForKey, ownRequests, List.filter_filter]
    congr 1
    apply List.filter_congr
    intro row _
    by_cases same : row.key = key
    · simp [same, owned]
    · simp [same]
  rw [listed, listed, slice.requests]

/-- Filtering by the key goes before or after an update that keeps the keys. -/
theorem filter_map_patchRow {α : Type} (key : α → Key) {hit : α → Bool} {change : α → α}
    (keyed : ∀ row, key (change row) = key row) (rows : List α) :
    (rows.map (patchRow hit change)).filter (fun row => own (key row)) =
      (rows.filter fun row => own (key row)).map (patchRow hit change) := by
  rw [List.filter_map]
  congr 1
  apply List.filter_congr
  intro row _
  simp only [Function.comp_apply, patchRow]
  split
  · rw [keyed]
  · rfl

/-- A column that the update does not look at may be changed before or after it. -/
theorem patchRow_comm {α : Type} (project : α → α) {hit : α → Bool} {change : α → α}
    (same : ∀ row, hit (project row) = hit row)
    (commutes : ∀ row, project (change row) = change (project row)) (row : α) :
    project (patchRow hit change row) = patchRow hit change (project row) := by
  cases selected : hit row with
  | true => rw [patchRow_of_hit selected, patchRow_of_hit ((same row).trans selected), commutes]
  | false => rw [patchRow_of_miss selected, patchRow_of_miss ((same row).trans selected)]

theorem SameSlice.closeReservation (slice : SameSlice own left right) (requestId : String)
    (closed : ReservationState) (now : Int) :
    SameSlice own (closeReservation requestId closed now left)
      (closeReservation requestId closed now right) := by
  have after : ∀ db, ownReservations own (BalancesRepository.closeReservation requestId closed now db) =
      (ownReservations own db).map (patchRow (fun row => row.requestId = requestId ∧ row.state = .open)
        fun row => { row with state := closed, updatedAt := now }) := by
    intro db
    simp only [ownReservations, BalancesRepository.closeReservation, SerialTable.rows_update]
    rw [filter_map_patchRow ReservationRow.key (by exact fun _ => rfl), List.map_map, List.map_map]
    apply List.map_congr_left
    intro row _
    simp only [Function.comp_apply]
    apply patchRow_comm ReservationRow.apart
    · exact fun _ => rfl
    · exact fun _ => rfl
  refine ⟨slice.balances, slice.requests, ?_⟩
  rw [after, after, slice.reservations]

/-- The row after an UPDATE that hits it, in both databases. -/
theorem Sees.updated {row : RequestRow} (sees : Sees own row left right) (toState : State) (now : Int)
    (patch : StatePatch) :
    Sees own (patched toState now patch row)
      { left with
        requests := left.requests.update (inState row.id row.state) (patched toState now patch)
          fun _ => rfl }
      { right with
        requests := right.requests.update (inState row.id row.state) (patched toState now patch)
          fun _ => rfl } := by
  have found : ∀ db : Db, db.requests.find? row.id = some row →
      (db.requests.update (inState row.id row.state) (patched toState now patch) fun _ => rfl).find? row.id =
        some (patched toState now patch row) := by
    intro db found
    have updated := Table.find?_update db.requests (inState row.id row.state)
      (patched toState now patch) (fun _ => rfl) row.id
    rw [found, Option.map_some, patchRow_of_hit (by simp [inState])] at updated
    exact updated
  refine ⟨⟨sees.slice.balances, ?_, sees.slice.reservations⟩, found left sees.foundLeft,
    found right sees.foundRight, sees.owned⟩
  have after : ∀ rows : List RequestRow,
      (rows.map (patchRow (inState row.id row.state) (patched toState now patch))).filter
        (fun row => own row.key) = (rows.filter fun row => own row.key).map
          (patchRow (inState row.id row.state) (patched toState now patch)) :=
    filter_map_patchRow RequestRow.key (fun _ => rfl)
  show (left.requests.rows.map _).filter _ = (right.requests.rows.map _).filter _
  rw [after, after]
  exact congrArg _ sees.slice.requests

/-! ## One state change -/

/-- The log is not part of the slice. -/
theorem logInTx_agrees {pre : Db → Db → Prop} {auditNow otherNow : Int} {entry other : AuditEntry}
    (slices : ∀ left right, pre left right → SameSlice own left right) :
    Agree pre (logInTx auditNow entry) (logInTx otherNow other) fun _ _ => SameSlice own := by
  apply Agree.write
  intro left right holds
  obtain ⟨balances, requests, reservations⟩ := slices left right holds
  exact ⟨balances, requests, reservations⟩

theorem findByIdOrThrow_agrees {row : RequestRow} {pre : Db → Db → Prop}
    (sees : ∀ left right, pre left right → Sees own row left right) :
    Agree pre (findByIdOrThrow row.id) (findByIdOrThrow row.id)
      (fun before other left right => (before = row ∧ other = row) ∧ pre left right) := by
  apply Agree.of_ok
  intro left right holds
  have seen := sees left right holds
  exact ⟨row, row, left, right, findByIdOrThrow_ok.mpr ⟨seen.foundLeft, rfl⟩,
    findByIdOrThrow_ok.mpr ⟨seen.foundRight, rfl⟩, ⟨rfl, rfl⟩, holds⟩

/-- The external id that the move sets is not taken in either database. -/
def FreeInBoth (id : String) (externalRequestId : Option String) (left right : Db) : Prop :=
  externalIdFree left.requests id externalRequestId = true ∧
    externalIdFree right.requests id externalRequestId = true

theorem updateState_agrees {row : RequestRow} {toState : State} {now : Int} {patch : StatePatch}
    {pre : Db → Db → Prop} (sees : ∀ left right, pre left right → Sees own row left right)
    (free : ∀ left right, pre left right → FreeInBoth row.id patch.externalRequestId left right) :
    Agree pre
      (updateState row.id row.state toState now patch) (updateState row.id row.state toState now patch)
      (fun ok other left right => (ok = true ∧ other = true) ∧
        Sees own (patched toState now patch row) left right) := by
  apply Agree.of_ok
  intro left right holds
  have seen := sees left right holds
  obtain ⟨freeLeft, freeRight⟩ := free left right holds
  exact ⟨true, true, _, _, updateState_total seen.foundLeft freeLeft,
    updateState_total seen.foundRight freeRight, ⟨rfl, rfl⟩, seen.updated toState now patch⟩

/-- What an operation answers on both sides, and what it leaves. -/
def SameAnswer {α : Type} (own : Key → Bool) (answer other : α) (left right : Db) : Prop :=
  answer = other ∧ SameSlice own left right

theorem move_agrees {m : Move} {row : RequestRow} {pre : Db → Db → Prop} (target : m.requestId = row.id)
    (sees : ∀ left right, pre left right → Sees own row left right)
    (free : ∀ left right, pre left right → FreeInBoth row.id m.patch.externalRequestId left right)
    (settles : Agree (Sees own (patched m.toState m.clock.now m.patch row)) m.settle m.settle
      fun _ _ => Sees own (patched m.toState m.clock.now m.patch row)) :
    Agree pre (move m row) (move m row) (SameAnswer own) := by
  simp only [move, assertTransition, target]
  apply Agree.check.bind
  intro _ _
  apply (updateState_agrees sees free).bind
  intro ok other
  apply Agree.given
  rintro ⟨rfl, rfl⟩
  apply Agree.check.bind
  intro _ _
  apply settles.bind
  intro _ _
  -- the id of the row is that of the patched row
  apply (@findByIdOrThrow_agrees own (patched m.toState m.clock.now m.patch row) _
    fun _ _ sees => sees).bind
  intro after other
  apply Agree.given
  rintro ⟨rfl, rfl⟩
  apply (logInTx_agrees fun _ _ sees => sees.slice).bind
  intro _ _
  exact Agree.pure fun _ _ slice => ⟨rfl, slice⟩

/-! ## The operations on a request -/

theorem authorizeManager_agrees {actor : Actor} {row : RequestRow} {pre : Db → Db → Prop} :
    Agree pre (authorizeManager actor row) (authorizeManager actor row) fun _ _ => pre := by
  simp only [authorizeManager]
  split
  · exact Agree.pure fun _ _ holds => holds
  · apply Agree.check.bind
    intro _ _
    exact Agree.check

theorem Sees.closed {row : RequestRow} (sees : Sees own row left right) (closed : ReservationState)
    (now : Int) : Sees own row (closeReservation row.id closed now left)
      (closeReservation row.id closed now right) :=
  ⟨sees.slice.closeReservation row.id closed now, sees.foundLeft, sees.foundRight, sees.owned⟩

theorem enqueue_agrees {row : RequestRow} {op : OutboxOp} {payload : ConsumePayload} {now : Int} :
    Agree (Sees own row) (HcmOutboxService.enqueue row.id op payload now)
      (HcmOutboxService.enqueue row.id op payload now) fun _ _ => Sees own row := by
  apply Agree.of_ok
  intro left right sees
  obtain ⟨leftAfter, ranLeft, _⟩ := enqueue_total (by rw [sees.foundLeft]; rfl) op payload now
  obtain ⟨rightAfter, ranRight, _⟩ := enqueue_total (by rw [sees.foundRight]; rfl) op payload now
  refine ⟨(), (), leftAfter, rightAfter, ranLeft, ranRight, ?_⟩
  rw [enqueue_ok ranLeft, enqueue_ok ranRight]
  obtain ⟨⟨balances, requests, reservations⟩, foundLeft, foundRight, owned⟩ := sees
  exact ⟨⟨balances, requests, reservations⟩, foundLeft, foundRight, owned⟩

theorem freeInBoth_none (id : String) (left right : Db) : FreeInBoth id none left right :=
  ⟨externalIdFree_none _ _, externalIdFree_none _ _⟩

section Request

variable (clock : Clock) (actor : Actor) {row : RequestRow}

theorem approveBody_agrees (newExternalRequestId : String) :
    Agree (fun left right => Sees own row left right ∧
        FreeInBoth row.id (some (row.externalRequestId.getD newExternalRequestId)) left right)
      (approveBody clock newExternalRequestId actor row.id)
      (approveBody clock newExternalRequestId actor row.id) (SameAnswer own) := by
  simp only [approveBody]
  apply (findByIdOrThrow_agrees fun _ _ holds => holds.1).bind
  intro before other
  apply Agree.given
  rintro ⟨rfl, rfl⟩
  apply authorizeManager_agrees.bind
  intro _ _
  apply move_agrees rfl (fun _ _ holds => holds.1) fun _ _ holds => holds.2
  exact enqueue_agrees

theorem rejectBody_agrees (reason : Option String) :
    Agree (Sees own row) (rejectBody clock actor row.id reason) (rejectBody clock actor row.id reason)
      (SameAnswer own) := by
  simp only [rejectBody]
  apply (findByIdOrThrow_agrees fun _ _ sees => sees).bind
  intro before other
  apply Agree.given
  rintro ⟨rfl, rfl⟩
  apply authorizeManager_agrees.bind
  intro _ _
  apply move_agrees rfl (fun _ _ sees => sees) fun _ _ _ => freeInBoth_none _ _ _
  exact Agree.write fun _ _ sees => sees.closed _ _

theorem cancelBody_agrees :
    Agree (Sees own row) (cancelBody clock actor row.id) (cancelBody clock actor row.id)
      (SameAnswer own) := by
  simp only [cancelBody]
  apply (findByIdOrThrow_agrees fun _ _ sees => sees).bind
  intro before other
  apply Agree.given
  rintro ⟨rfl, rfl⟩
  apply Agree.check.bind
  intro _ _
  apply move_agrees rfl (fun _ _ sees => sees) fun _ _ _ => freeInBoth_none _ _ _
  exact Agree.write fun _ _ sees => sees.closed _ _

/-- The three `mark` operations. -/
theorem markBody_agrees {m : Move} (target : m.requestId = row.id)
    (unsent : m.patch.externalRequestId = none)
    (settles : Agree (Sees own (patched m.toState m.clock.now m.patch row)) m.settle m.settle
      fun _ _ => Sees own (patched m.toState m.clock.now m.patch row)) :
    Agree (Sees own row) (markBody m) (markBody m) (SameAnswer own) := by
  simp only [markBody, target]
  apply (findByIdOrThrow_agrees fun _ _ sees => sees).bind
  intro before other
  apply Agree.given
  rintro ⟨rfl, rfl⟩
  split
  · exact Agree.pure fun _ _ sees => ⟨rfl, sees.slice⟩
  · apply move_agrees target (fun _ _ sees => sees) _ settles
    intro _ _ _
    rw [unsent]
    exact freeInBoth_none _ _ _

end Request

/-! ## Reading the balance of a key -/

section Balance

variable {pre : Db → Db → Prop} {key : Key}

theorem findBalance_agrees (sees : ∀ left right, pre left right → SameSlice own left right)
    (owned : own key = true) :
    Agree pre (Tx.query (findBalance key) : DbTx (Option BalanceRow)) (Tx.query (findBalance key))
      fun found other left right => found.map BalanceRow.apart = other.map BalanceRow.apart ∧
        (findBalance key left = found ∧ findBalance key right = other) ∧ pre left right :=
  Agree.query fun left right holds => ⟨(sees left right holds).balances key owned, ⟨rfl, rfl⟩, holds⟩

theorem sumOpenReservations_agrees (sees : ∀ left right, pre left right → SameSlice own left right)
    (owned : own key = true) :
    Agree pre (Tx.query (sumOpenReservations key) : DbTx ℚ) (Tx.query (sumOpenReservations key))
      fun reserved other left right => reserved = other ∧ pre left right :=
  Agree.query fun left right holds => ⟨(sees left right holds).sumOpenReservations owned, holds⟩

end Balance

/-! ## Filing a request -/

/-- The id of the new request is not taken in either database. -/
def NewInBoth (id : String) (left right : Db) : Prop :=
  left.requests.find? id = none ∧ right.requests.find? id = none

theorem insert_agrees {row : RequestRow} {id : String} (named : row.id = id) (positive : 0 < row.days)
    (unsent : row.externalRequestId = none) (owned : own row.key = true) :
    Agree (fun left right => SameSlice own left right ∧ NewInBoth id left right)
      (TimeOffRepository.insert row) (TimeOffRepository.insert row) fun _ _ => Sees own row := by
  subst named
  have filed : ∀ db : Db, db.requests.find? row.id = none → ∃ after,
      TimeOffRepository.insert row db = .ok ((), after) ∧ after.balances = db.balances ∧
        after.reservations = db.reservations ∧ ownRequests own after = ownRequests own db ++ [row] ∧
        after.requests.find? row.id = some row := by
    intro db fresh
    obtain ⟨requests, inserted, ran⟩ := insert_total positive unsent fresh
    refine ⟨_, ran, rfl, rfl, ?_, ?_⟩
    · simp only [ownRequests, (Table.insertUnique_eq_some.mp inserted).2, List.filter_append,
        List.filter_singleton, owned, cond_true]
    · rw [Table.find?_insert inserted row.id]
      exact if_pos rfl
  apply Agree.of_ok
  intro left right holds
  obtain ⟨slice, freshLeft, freshRight⟩ := holds
  obtain ⟨leftAfter, ranLeft, leftBalances, leftReservations, leftRows, foundLeft⟩ := filed left freshLeft
  obtain ⟨rightAfter, ranRight, rightBalances, rightReservations, rightRows, foundRight⟩ :=
    filed right freshRight
  refine ⟨(), (), leftAfter, rightAfter, ranLeft, ranRight, ⟨?_, ?_, ?_⟩, foundLeft, foundRight, owned⟩
  · intro key ownKey
    rw [findBalance_congr leftBalances, findBalance_congr rightBalances]
    exact slice.balances key ownKey
  · rw [leftRows, rightRows, slice.requests]
  · simp only [ownReservations, leftReservations, rightReservations]
    exact slice.reservations

theorem insertReservation_agrees {row : RequestRow} {now : Int} (positive : 0 < row.days) :
    Agree (Sees own row) (insertReservation row.id row.key row.days now)
      (insertReservation row.id row.key row.days now) fun _ _ => SameSlice own := by
  apply Agree.of_ok
  intro left right sees
  refine ⟨(), (), _, _, insertReservation_total positive (by rw [sees.foundLeft]; rfl),
    insertReservation_total positive (by rw [sees.foundRight]; rfl), sees.slice.balances,
    sees.slice.requests, ?_⟩
  have after : ∀ db : Db, ownReservations own { db with
      reservations := db.reservations.append
        (fun id => ⟨id, row.id, row.key, row.days, .open, now, now⟩) fun _ => rfl } =
      ownReservations own db ++ [⟨0, row.id, row.key, row.days, .open, now, now⟩] := by
    intro db
    simp only [ownReservations, SerialTable.rows_append, List.filter_append, List.map_append,
      List.filter_singleton, sees.owned]
    rfl
  rw [after, after, sees.slice.reservations]

theorem createRequestBody_agrees {clock : Clock} {ids : NewIds} {actor : Actor} {input : CreateInput}
    {days : ℚ} (positive : 0 < days) (owned : ∀ employeeId, actor.sub = some employeeId →
      own ⟨employeeId, input.locationId, input.leaveType⟩ = true) :
    Agree (fun left right => SameSlice own left right ∧ NewInBoth ids.requestId left right)
      (createRequestBody clock ids actor input days) (createRequestBody clock ids actor input days)
      (SameAnswer own) := by
  simp only [createRequestBody]
  apply Agree.take.bind
  intro employeeId other
  apply Agree.given
  rintro ⟨subject, rfl⟩
  have ownKey := owned employeeId subject
  apply (findBalance_agrees (fun _ _ holds => holds.1) ownKey).bind
  intro found other
  apply Agree.given
  intro same
  have there : found.isSome = other.isSome := by
    have looked := congrArg Option.isSome same
    simpa using looked
  have balance : ∀ failure : Failure, Agree
      (fun left right => (findBalance ⟨employeeId, input.locationId, input.leaveType⟩ left = found ∧
          findBalance ⟨employeeId, input.locationId, input.leaveType⟩ right = other) ∧
        SameSlice own left right ∧ NewInBoth ids.requestId left right)
      (Tx.orThrow found failure) (Tx.orThrow other failure)
      (fun bal otherBal left right => bal.apart = otherBal.apart ∧
        SameSlice own left right ∧ NewInBoth ids.requestId left right) := by
    intro failure
    apply Agree.orThrow there
    rintro bal otherBal rfl rfl left right ⟨_, holds⟩
    exact ⟨Option.some.inj same, holds⟩
  apply (balance _).bind
  intro bal otherBal
  apply Agree.given
  intro sameRow
  have cached : otherBal.apart.hcmBalance = bal.apart.hcmBalance := congrArg _ sameRow.symm
  rw [show otherBal.hcmBalance = bal.hcmBalance from cached]
  apply (sumOpenReservations_agrees (fun _ _ holds => holds.1) ownKey).bind
  intro reserved other
  apply Agree.given
  rintro rfl
  apply Agree.check.bind
  intro _ _
  apply (insert_agrees (by rfl) (by exact positive) (by rfl) (by exact ownKey)).bind
  intro _ _
  apply (insertReservation_agrees (by exact positive)).bind
  intro _ _
  apply (logInTx_agrees fun _ _ slice => slice).bind
  intro _ _
  exact Agree.pure fun _ _ slice => ⟨rfl, slice⟩

/-! ## Snapshots -/

/-- The columns come from the arguments alone. -/
theorem balanceColumns_agrees {hcmBalance : Option ℚ} {asOf : Stamp} {pre : Db → Db → Prop} :
    Agree pre (balanceColumns hcmBalance asOf) (balanceColumns hcmBalance asOf)
      fun columns other left right => columns = other ∧ pre left right := by
  simp only [balanceColumns]
  apply Agree.take.bind
  intro balance other
  apply Agree.given
  rintro ⟨_, rfl⟩
  apply Agree.take.bind
  intro snapshotAt other
  apply Agree.given
  rintro ⟨_, rfl⟩
  apply Agree.check.bind
  intro _ _
  exact Agree.pure fun _ _ holds => ⟨rfl, holds⟩

/-- One balance of the slice is written, the same on both sides. -/
theorem SameSlice.cached (slice : SameSlice own left right) {leftAfter rightAfter : Db} {key : Key}
    {row other : BalanceRow} (same : row.apart = other.apart)
    (leftTables : leftAfter.requests = left.requests ∧ leftAfter.reservations = left.reservations)
    (rightTables : rightAfter.requests = right.requests ∧ rightAfter.reservations = right.reservations)
    (leftBalances : ∀ candidate, findBalance candidate leftAfter =
      if key = candidate then some row else findBalance candidate left)
    (rightBalances : ∀ candidate, findBalance candidate rightAfter =
      if key = candidate then some other else findBalance candidate right) :
    SameSlice own leftAfter rightAfter := by
  refine ⟨?_, ?_, ?_⟩
  · intro candidate owned
    rw [leftBalances, rightBalances]
    by_cases here : key = candidate
    · rw [if_pos here, if_pos here]
      exact congrArg some same
    · rw [if_neg here, if_neg here]
      exact slice.balances candidate owned
  · simp only [ownRequests, leftTables.1, rightTables.1]
    exact slice.requests
  · simp only [ownReservations, leftTables.2, rightTables.2]
    exact slice.reservations

/-- The first balance of a key is inserted on both sides. -/
theorem insertBalance_agrees {key : Key} (columns : ℚ × Stamp) (now : Int) :
    Agree (fun left right => (findBalance key left = none ∧ findBalance key right = none) ∧
        SameSlice own left right)
      (Tx.write fun db => { db with
        balances := db.balances.append (fun id => ⟨id, key, columns.1, columns.2, now, 1⟩)
          fun _ => rfl } : DbTx Unit)
      (Tx.write fun db => { db with
        balances := db.balances.append (fun id => ⟨id, key, columns.1, columns.2, now, 1⟩)
          fun _ => rfl })
      fun _ _ => SameSlice own := by
  apply Agree.write
  rintro left right ⟨⟨absentLeft, absentRight⟩, slice⟩
  have inserted : ∀ db after : Db,
      after.balances = db.balances.append
        (fun id => ⟨id, key, columns.1, columns.2, now, 1⟩) (fun _ => rfl) →
      findBalance key db = none → ∀ candidate, findBalance candidate after =
        if key = candidate then some ⟨db.balances.lastId + 1, key, columns.1, columns.2, now, 1⟩
        else findBalance candidate db := by
    intro db after appended absent
    exact findBalance_append appended absent fun _ => rfl
  refine slice.cached ?_ ⟨rfl, rfl⟩ ⟨rfl, rfl⟩ (inserted left _ rfl absentLeft)
    (inserted right _ rfl absentRight)
  rfl

/-- The balance of a key is overwritten on both sides, each under its own id. -/
theorem overwriteBalance_agrees {key : Key} {row other : BalanceRow} (same : row.apart = other.apart)
    (columns : ℚ × Stamp) (now : Int) :
    Agree (fun left right => (findBalance key left = some row ∧ findBalance key right = some other) ∧
        SameSlice own left right)
      (Tx.write fun db => { db with
        balances := db.balances.update (fun candidate => candidate.id = row.id)
          (fun candidate => { candidate with
            hcmBalance := columns.1, hcmSnapshotAt := columns.2, updatedAt := now
            version := candidate.version + 1 }) fun _ => rfl } : DbTx Unit)
      (Tx.write fun db => { db with
        balances := db.balances.update (fun candidate => candidate.id = other.id)
          (fun candidate => { candidate with
            hcmBalance := columns.1, hcmSnapshotAt := columns.2, updatedAt := now
            version := candidate.version + 1 }) fun _ => rfl })
      fun _ _ => SameSlice own := by
  apply Agree.write
  rintro left right ⟨⟨foundLeft, foundRight⟩, slice⟩
  have rewritten : ({ row.apart with
      hcmBalance := columns.1, hcmSnapshotAt := columns.2, updatedAt := now
      version := row.apart.version + 1 } : BalanceRow) = { other.apart with
      hcmBalance := columns.1, hcmSnapshotAt := columns.2, updatedAt := now
      version := other.apart.version + 1 } := by rw [same]
  refine slice.cached ?_ ⟨rfl, rfl⟩ ⟨rfl, rfl⟩ (findBalance_update rfl foundLeft ?_)
    (findBalance_update rfl foundRight ?_)
  · exact rewritten
  · exact fun _ => rfl
  · exact fun _ => rfl

theorem upsertBalance_agrees {key : Key} {hcmBalance : Option ℚ} {asOf : Stamp} {now : Int}
    (owned : own key = true) :
    Agree (SameSlice own) (upsertBalance key hcmBalance asOf now) (upsertBalance key hcmBalance asOf now)
      fun record other left right => record.apart = other.apart ∧ SameSlice own left right := by
  simp only [upsertBalance]
  apply (findBalance_agrees (fun _ _ slice => slice) owned).bind
  intro found other
  apply Agree.given
  intro same
  cases found with
  | none =>
    cases other with
    | some otherRow => cases same
    | none =>
      apply balanceColumns_agrees.bind
      intro columns otherColumns
      apply Agree.given
      rintro rfl
      apply (insertBalance_agrees columns now).bind
      intro _ _
      exact Agree.pure fun _ _ slice => ⟨rfl, slice⟩
  | some row =>
    cases other with
    | none => cases same
    | some otherRow =>
      have sameRow : row.apart = otherRow.apart := Option.some.inj same
      have sameAt : otherRow.apart.hcmSnapshotAt = row.apart.hcmSnapshotAt := congrArg _ sameRow.symm
      have sameRecord : row.apart.record.apart = otherRow.apart.record.apart := by rw [sameRow]
      simp only [show otherRow.hcmSnapshotAt = row.hcmSnapshotAt from sameAt]
      split
      · exact Agree.pure fun _ _ holds => ⟨sameRecord, holds.2⟩
      · apply balanceColumns_agrees.bind
        intro columns otherColumns
        apply Agree.given
        rintro rfl
        apply (overwriteBalance_agrees sameRow columns now).bind
        intro _ _
        have returned : ({ row.apart.record.apart with
            hcmBalance := columns.1, hcmSnapshotAt := asOf, updatedAt := now
            version := row.apart.record.apart.version + 1 } : BalanceRecord) =
          { otherRow.apart.record.apart with
            hcmBalance := columns.1, hcmSnapshotAt := asOf, updatedAt := now
            version := otherRow.apart.record.apart.version + 1 } := by rw [sameRecord]
        exact Agree.pure fun _ _ slice => ⟨returned, slice⟩

/-- Whether the snapshot is stale is read off a column, whatever the id of the row. -/
theorem ignored_agrees {found other : Option BalanceRow}
    (same : found.map BalanceRow.apart = other.map BalanceRow.apart) (asOf : Stamp) :
    (found.map fun row => asOf.lt row.hcmSnapshotAt) = other.map fun row => asOf.lt row.hcmSnapshotAt := by
  have looked := congrArg (Option.map fun row : BalanceRow => asOf.lt row.hcmSnapshotAt) same
  rw [Option.map_map, Option.map_map] at looked
  exact looked

theorem applyHcmBalanceSnapshotBody_agrees {clock : Clock} {snapshot : HcmSnapshot}
    (owned : own snapshot.key = true) :
    Agree (SameSlice own) (applyHcmBalanceSnapshotBody clock snapshot)
      (applyHcmBalanceSnapshotBody clock snapshot)
      fun result other left right => result.apart = other.apart ∧ SameSlice own left right := by
  simp only [applyHcmBalanceSnapshotBody]
  apply (findBalance_agrees (fun _ _ slice => slice) owned).bind
  intro found other
  apply Agree.given
  intro same
  rw [ignored_agrees same]
  apply ((upsertBalance_agrees owned).strengthen fun _ _ holds => holds.2).bind
  intro record otherRecord
  apply Agree.given
  intro sameRecord
  apply (sumOpenReservations_agrees (fun _ _ slice => slice) owned).bind
  intro reserved otherReserved
  apply Agree.given
  rintro rfl
  apply (logInTx_agrees fun _ _ slice => slice).bind
  intro _ _
  apply Agree.pure
  intro _ _ slice
  refine ⟨?_, slice⟩
  simp only [SnapshotResult.apart, sameRecord]

/-! ## Committing -/

/-- Both transactions commit or both roll back, with the same answer and the same slice. -/
theorem transaction_sameAnswer {α : Type} {pre : Db → Db → Prop} {body other : DbTx α}
    (agree : Agree pre body other (SameAnswer own)) (slice : SameSlice own left right)
    (related : pre left right) :
    (transaction body left).1 = (transaction other right).1 ∧
      SameSlice own (transaction body left).2 (transaction other right).2 := by
  cases transaction_agree agree related with
  | inl committed =>
    obtain ⟨answer, otherAnswer, leftAfter, rightAfter, ranLeft, ranRight, same, sliceAfter⟩ := committed
    rw [ranLeft, ranRight, same]
    exact ⟨rfl, sliceAfter⟩
  | inr rolledBack =>
    obtain ⟨failure, ranLeft, ranRight⟩ := rolledBack
    rw [ranLeft, ranRight]
    exact ⟨rfl, slice⟩

theorem SameSlice.createRequest (slice : SameSlice own left right) (clock : Clock) {ids : NewIds}
    {actor : Actor} {input : CreateInput} (isNew : NewInBoth ids.requestId left right)
    (owned : ∀ employeeId, actor.sub = some employeeId →
      own ⟨employeeId, input.locationId, input.leaveType⟩ = true) :
    (TimeOffService.createRequest clock ids actor input left).1 =
        (TimeOffService.createRequest clock ids actor input right).1 ∧
      SameSlice own (TimeOffService.createRequest clock ids actor input left).2
        (TimeOffService.createRequest clock ids actor input right).2 := by
  simp only [TimeOffService.createRequest]
  cases counted : countDaysInclusive input.startDate input.endDate with
  | error failure => exact ⟨rfl, slice⟩
  | ok days =>
    obtain ⟨n, whole, rfl⟩ := countDaysInclusive_whole counted
    have positive : (0 : ℚ) < n := by exact_mod_cast whole
    exact transaction_sameAnswer (createRequestBody_agrees positive owned) slice ⟨slice, isNew⟩

section Mark

variable {row : RequestRow}

theorem Sees.markConsumed (sees : Sees own row left right) (clock : Clock) :
    (TimeOffService.markConsumed clock row.id left).1 = (TimeOffService.markConsumed clock row.id right).1 ∧
      SameSlice own (TimeOffService.markConsumed clock row.id left).2
        (TimeOffService.markConsumed clock row.id right).2 := by
  apply transaction_sameAnswer _ sees.slice sees
  apply markBody_agrees (m :=
    { clock := clock, requestId := row.id, toState := .consumed
      settle := consumeReservation row.id clock.now, action := .requestConsumed }) rfl rfl
  exact Agree.write fun _ _ sees => sees.closed _ _

theorem Sees.markHcmFailed (sees : Sees own row left right) (clock : Clock) (errorMessage : String) :
    (TimeOffService.markHcmFailed clock row.id errorMessage left).1 =
        (TimeOffService.markHcmFailed clock row.id errorMessage right).1 ∧
      SameSlice own (TimeOffService.markHcmFailed clock row.id errorMessage left).2
        (TimeOffService.markHcmFailed clock row.id errorMessage right).2 := by
  apply transaction_sameAnswer _ sees.slice sees
  apply markBody_agrees (m :=
    { clock := clock, requestId := row.id, toState := .hcmFailed, patch := { hcmError := some errorMessage }
      settle := releaseReservation row.id clock.now, action := .requestHcmFailed }) rfl rfl
  exact Agree.write fun _ _ sees => sees.closed _ _

theorem Sees.markReviewRequired (sees : Sees own row left right) (clock : Clock) (reason : String) :
    (TimeOffService.markReviewRequired clock row.id reason left).1 =
        (TimeOffService.markReviewRequired clock row.id reason right).1 ∧
      SameSlice own (TimeOffService.markReviewRequired clock row.id reason left).2
        (TimeOffService.markReviewRequired clock row.id reason right).2 := by
  apply transaction_sameAnswer _ sees.slice sees
  apply markBody_agrees (m :=
    { clock := clock, requestId := row.id, toState := .reviewRequired, patch := { hcmError := some reason }
      action := .requestReviewRequired }) rfl rfl
  exact Agree.pure fun _ _ sees => sees

end Mark

/-! ## A snapshot with its escalations -/

/-- The escalations of requests of the slice. -/
theorem SameSlice.escalations (slice : SameSlice own left right) (clock : String → Clock)
    {ids : List String} (ours : ∀ id ∈ ids, Concerns (fun key => own key = true) left id) :
    SameSlice own
      (ids.foldl (fun db id => (markReviewRequired (clock id) id escalationReason db).2) left)
      (ids.foldl (fun db id => (markReviewRequired (clock id) id escalationReason db).2) right) := by
  induction ids generalizing left right with
  | nil => exact slice
  | cons id rest inductionHypothesis =>
    obtain ⟨row, found, owned⟩ := ours id List.mem_cons_self
    obtain rfl : row.id = id := (Table.find?_eq_some.mp found).2
    apply inductionHypothesis ((slice.sees found owned).markReviewRequired (clock row.id) escalationReason).2
    intro later member
    apply (ours later (List.mem_cons_of_mem _ member)).grows
    exact (Effect.healed (markReviewRequired_healed (clock row.id) row.id escalationReason left)).grows

theorem SameSlice.applyAndEscalate (slice : SameSlice own left right) (clock : RowClock)
    {snapshot : HcmSnapshot} (owned : own snapshot.key = true) :
    (ReconciliationService.applyAndEscalate clock snapshot left).1.map SnapshotResult.apart =
        (ReconciliationService.applyAndEscalate clock snapshot right).1.map SnapshotResult.apart ∧
      SameSlice own (ReconciliationService.applyAndEscalate clock snapshot left).2
        (ReconciliationService.applyAndEscalate clock snapshot right).2 := by
  simp only [ReconciliationService.applyAndEscalate, applyHcmBalanceSnapshot]
  cases transaction_agree (applyHcmBalanceSnapshotBody_agrees owned) slice with
  | inl committed =>
    obtain ⟨result, other, leftAfter, rightAfter, ranLeft, ranRight, same, sliceAfter⟩ := committed
    have key : result.balance.key = snapshot.key :=
      (applyHcmBalanceSnapshot_ok ranLeft).key
    have otherKey : other.balance.key = snapshot.key := (applyHcmBalanceSnapshot_ok ranRight).key
    have drift : other.apart.negativeDrift = result.apart.negativeDrift := by rw [same]
    rw [ranLeft, ranRight]
    simp only [show other.negativeDrift = result.negativeDrift from drift]
    by_cases drifted : result.negativeDrift = true
    · simp only [drifted, if_true, escalateAffectedRequests, key, otherKey]
      refine ⟨congrArg Except.ok same, ?_⟩
      rw [← sliceAfter.listApprovedIdsForKey owned]
      exact sliceAfter.escalations clock.escalation (concerns_of_listed owned)
    · simp only [drifted]
      exact ⟨congrArg Except.ok same, sliceAfter⟩
  | inr rolledBack =>
    obtain ⟨failure, ranLeft, ranRight⟩ := rolledBack
    rw [ranLeft, ranRight]
    exact ⟨rfl, slice⟩

end TimeOff
