import TimeOff.Hcm.Reconciliation
import TimeOff.Lib.Unwinding

/-! # The transactional operations

The operations of `time-off.service.js` and the snapshot with its escalation,
each with the clock readings and the generated ids that it uses.
-/

set_option autoImplicit false

namespace TimeOff

open TimeOff.Lib BalancesRepository BalancesService

inductive Operation where
  | createRequest (clock : Clock) (ids : NewIds) (actor : Actor) (input : CreateInput)
  | approve (clock : Clock) (newExternalRequestId : String) (actor : Actor) (requestId : String)
  | reject (clock : Clock) (actor : Actor) (requestId : String) (reason : Option String)
  | cancel (clock : Clock) (actor : Actor) (requestId : String)
  | markConsumed (clock : Clock) (requestId : String)
  | markHcmFailed (clock : Clock) (requestId errorMessage : String)
  | markReviewRequired (clock : Clock) (requestId reason : String)
  | applyHcmBalanceSnapshot (clock : RowClock) (snapshot : HcmSnapshot)

/-- What an operation returns or throws, apart from the ids of rows. -/
inductive Answer where
  | created (outcome : Except Failure CreatedRequest)
  | moved (outcome : Except Failure RequestRow)
  | cached (outcome : Except Failure SnapshotResult)

/-- The record apart from the id that the table assigned. -/
def BalanceRecord.apart (record : BalanceRecord) : BalanceRecord := { record with id := none }

def SnapshotResult.apart (result : SnapshotResult) : SnapshotResult :=
  { result with balance := result.balance.apart }

namespace Operation

def perform (op : Operation) (db : Db) : Answer × Db :=
  match op with
  | createRequest clock ids actor input =>
    let (outcome, after) := TimeOffService.createRequest clock ids actor input db
    (.created outcome, after)
  | approve clock newId actor requestId =>
    let (outcome, after) := TimeOffService.approve clock newId actor requestId db
    (.moved outcome, after)
  | reject clock actor requestId reason =>
    let (outcome, after) := TimeOffService.reject clock actor requestId reason db
    (.moved outcome, after)
  | cancel clock actor requestId =>
    let (outcome, after) := TimeOffService.cancel clock actor requestId db
    (.moved outcome, after)
  | markConsumed clock requestId =>
    let (outcome, after) := TimeOffService.markConsumed clock requestId db
    (.moved outcome, after)
  | markHcmFailed clock requestId errorMessage =>
    let (outcome, after) := TimeOffService.markHcmFailed clock requestId errorMessage db
    (.moved outcome, after)
  | markReviewRequired clock requestId reason =>
    let (outcome, after) := TimeOffService.markReviewRequired clock requestId reason db
    (.moved outcome, after)
  | applyHcmBalanceSnapshot clock snapshot =>
    let (outcome, after) := ReconciliationService.applyAndEscalate clock snapshot db
    (.cached (outcome.map SnapshotResult.apart), after)

/-- The key of the operation's input, or that of the request it names. -/
def addresses (op : Operation) (db : Db) : Option Key :=
  match op with
  | createRequest _ _ actor input =>
    actor.sub.map fun employeeId => ⟨employeeId, input.locationId, input.leaveType⟩
  | approve _ _ _ requestId | reject _ _ requestId _ | cancel _ _ requestId
  | markConsumed _ requestId | markHcmFailed _ requestId _ | markReviewRequired _ requestId _ =>
    (db.requests.find? requestId).map RequestRow.key
  | applyHcmBalanceSnapshot _ snapshot => some snapshot.key

/-- The id that the operation generates for a new request. -/
def newRequestId : Operation → Option String
  | createRequest _ ids _ _ => some ids.requestId
  | _ => none

/-- The `external_request_id` that the operation generates. -/
def newExternalRequestId : Operation → Option String
  | approve _ newId _ _ => some newId
  | _ => none

end Operation

/-- The operations of the run that address the key. -/
def restrictTo (key : Key) : List Operation → Db → List Operation :=
  purge Operation.perform fun db op => op.addresses db = some key

/-- What the operations that address the key answer. -/
def answersTo (key : Key) : List Operation → Db → List Answer :=
  heard Operation.perform fun db op => op.addresses db = some key

end TimeOff
