import TimeOff.Balances.Service
import TimeOff.Common.Idempotency
import TimeOff.Common.Responses

/-! # The routes of employees and managers

The handlers of `time-off.controller.js` and `balances.controller.js`,
with the role check of the guard before them and the exception filter behind.
-/

set_option autoImplicit false

namespace TimeOff

open TimeOff.Lib BalancesService TimeOffService

/-- The whole database, the idempotency table included. -/
structure Store where
  db : Db
  idempotencyKeys : Table (IdempotencyRow CreatedRequest)

def Store.empty : Store := ⟨Db.empty, Table.empty⟩

/-- The clock readings of a POST: those of `lookup` and `store`, and those of the service. -/
structure CreateClock where
  lookup : Int
  request : Clock
  store : Int

/-- The check of `JwtAuthGuard.canActivate` against the roles of the route. -/
def requireRoles (roles : List String) (actor : Actor) : Except Failure Unit :=
  if roles.any actor.roles.contains then .ok ()
  else .error (.forbidden ("Requires role: " ++ String.intercalate " | " roles))

namespace BalancesController

def getMine (actor : Actor) (store : Store) : List EffectiveBalance :=
  getEffectiveBalancesForEmployee actor.sub store.db

end BalancesController

namespace TimeOffController

def createEndpoint : String := "POST /me/requests"

def create (clock : CreateClock) (ids : NewIds) (actor : Actor) (input : CreateInput)
    (idemKey : Option String) (store : Store) : Except Failure CreatedRequest × Store :=
  match IdempotencyService.lookup clock.lookup idemKey createEndpoint actor.sub store.idempotencyKeys with
  | (some cached, table) => (.ok cached.response, { store with idempotencyKeys := table })
  | (none, table) =>
    match createRequest clock.request ids actor input store.db with
    | (.error failure, db) => (.error failure, ⟨db, table⟩)
    | (.ok created, db) =>
      match IdempotencyService.store clock.store idemKey createEndpoint actor.sub 201 created table with
      -- the request is committed, and its response is not stored
      | (.error failure, table) => (.error failure, ⟨db, table⟩)
      | (.ok (), table) => (.ok created, ⟨db, table⟩)

def listMine (actor : Actor) (store : Store) : List RequestRow := listForEmployee actor.sub store.db

def getMine (actor : Actor) (id : String) (store : Store) : Except Failure RequestRow := do
  let r ← getById id store.db
  if some r.key.employeeId ≠ actor.sub ∧ ¬ actor.roles.contains "admin" then
    -- as if there were no such request
    throw (.notFound "Request" id)
  return r

def cancel (clock : Clock) (actor : Actor) (id : String) (store : Store) :
    Except Failure RequestRow × Store :=
  let (outcome, db) := TimeOffService.cancel clock actor id store.db
  (outcome, { store with db := db })

def listForManager (actor : Actor) (store : Store) : List RequestRow :=
  TimeOffService.listForManager actor.sub store.db

def approve (clock : Clock) (newExternalRequestId : String) (actor : Actor) (id : String) (store : Store) :
    Except Failure RequestRow × Store :=
  let (outcome, db) := TimeOffService.approve clock newExternalRequestId actor id store.db
  (outcome, { store with db := db })

def reject (clock : Clock) (actor : Actor) (id : String) (reason : Option String) (store : Store) :
    Except Failure RequestRow × Store :=
  let (outcome, db) := TimeOffService.reject clock actor id reason store.db
  (outcome, { store with db := db })

end TimeOffController

end TimeOff
