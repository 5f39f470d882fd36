import TimeOff.Requests.Controller
import TimeOff.System.Calls

/-! # Filing under an Idempotency-Key, with faults

`POST /me/requests` runs three statements that commit one by one: the lookup
with its expiry deletion, the transaction of `createRequest`, and the storing of
the response.  The process may die between any two of them, and the last one may
fail.
-/

set_option autoImplicit false

namespace TimeOff

open TimeOff.Lib

/-- Where an attempt is cut off. -/
inductive Fault where
  | diesBeforeRequest
  | diesBeforeStore
  | storeFails (message : String)
  | diesBeforeReply
deriving DecidableEq, Repr

deriving instance DecidableEq for CreatedRequest

/-- The process is gone, and the client gets no answer. -/
def Fault.silences : Fault → Bool
  | storeFails _ => false
  | diesBeforeRequest | diesBeforeStore | diesBeforeReply => true

/-- A request that was committed has its response not stored. -/
def Fault.losesResponse : Fault → Bool
  | diesBeforeStore | storeFails _ => true
  | diesBeforeRequest | diesBeforeReply => false

namespace TimeOffController

/-- `create`, as far as the fault lets it come; `none` is no answer. -/
def createUnder (fault : Option Fault) (clock : CreateClock) (ids : NewIds) (actor : Actor)
    (input : CreateInput) (idemKey : Option String) (store : Store) :
    Option (Except Failure CreatedRequest) × Store :=
  let answer (outcome : Except Failure CreatedRequest) : Option (Except Failure CreatedRequest) :=
    if fault.any Fault.silences then none else some outcome
  match IdempotencyService.lookup clock.lookup idemKey createEndpoint actor.sub store.idempotencyKeys with
  | (some cached, table) => (answer (.ok cached.response), { store with idempotencyKeys := table })
  | (none, table) =>
    if fault = some .diesBeforeRequest then (none, { store with idempotencyKeys := table })
    else
      match TimeOffService.createRequest clock.request ids actor input store.db with
      | (.error failure, db) => (answer (.error failure), ⟨db, table⟩)
      | (.ok created, db) =>
        match fault, IdempotencyService.given idemKey with
        | some .diesBeforeStore, _ => (none, ⟨db, table⟩)
        -- without a key there is no statement that could fail
        | some (.storeFails message), some _ => (some (.error (.sqlite message)), ⟨db, table⟩)
        | _, _ =>
          match IdempotencyService.store clock.store idemKey createEndpoint actor.sub 201 created table with
          | (.error failure, table) => (answer (.error failure), ⟨db, table⟩)
          | (.ok (), table) => (answer (.ok created), ⟨db, table⟩)

end TimeOffController

/-- A POST with or without a key and a fault, or any other call of the service. -/
inductive StoreEvent where
  | post (fault : Option Fault) (clock : CreateClock) (ids : NewIds) (actor : Actor)
      (input : CreateInput) (idemKey : Option String)
  | call (call : Call)

namespace StoreEvent

/-- The answer to a POST, and the store afterwards. -/
def respond (event : StoreEvent) (store : Store) : Option (Except Failure CreatedRequest) × Store :=
  match event with
  | post fault clock ids actor input idemKey =>
    TimeOffController.createUnder fault clock ids actor input idemKey store
  | call other => (none, { store with db := other.exec store.db })

end StoreEvent

def storeStep (store : Store) (event : StoreEvent) : Option Store := some (event.respond store).2

end TimeOff
