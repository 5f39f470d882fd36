import TimeOff.Lib.Unwinding
import TimeOff.Requests.Controller

/-! # The calls of an employee

The five `/me` routes as one operation on the store, with the response that
the client sees.
-/

set_option autoImplicit false

namespace TimeOff

inductive Body where
  | balances (list : List EffectiveBalance)
  | created (request : CreatedRequest)
  | requests (list : List RequestRow)
  | request (row : RequestRow)
  | error (body : ErrorBody)

structure Response where
  status : Nat
  body : Body

inductive MeCall where
  | getBalances
  | postRequest (clock : CreateClock) (ids : NewIds) (input : CreateInput) (idemKey : Option String)
  | getRequests
  | getRequest (id : String)
  | cancelRequest (clock : Clock) (id : String)

/-- What the exception filter answers. -/
def Failure.toResponse (failure : Failure) : Response := ⟨failure.response.1, .error failure.response.2⟩

/-- The response of a handler that returned or threw. -/
def respondWith {α : Type} (status : Nat) (body : α → Body) : Except Failure α → Response
  | .ok result => ⟨status, body result⟩
  | .error failure => failure.toResponse

namespace MeCall

def roles : List String := ["employee", "manager", "admin"]

/-- The handler of the route, once the guard has let the actor in. -/
def handle (call : MeCall) (actor : Actor) (store : Store) : Response × Store :=
  match call with
  | getBalances => (⟨200, .balances (BalancesController.getMine actor store)⟩, store)
  | postRequest clock ids input idemKey =>
    let (outcome, store) := TimeOffController.create clock ids actor input idemKey store
    (respondWith 201 .created outcome, store)
  | getRequests => (⟨200, .requests (TimeOffController.listMine actor store)⟩, store)
  | getRequest id => (respondWith 200 .request (TimeOffController.getMine actor id store), store)
  | cancelRequest clock id =>
    let (outcome, store) := TimeOffController.cancel clock actor id store
    (respondWith 201 .request outcome, store)

def respond (actor : Actor) (call : MeCall) (store : Store) : Response × Store :=
  match requireRoles roles actor with
  | .error failure => (failure.toResponse, store)
  | .ok () => call.handle actor store

/-- The id that the call generates for a new request. -/
def newRequestId : MeCall → Option String
  | postRequest _ ids _ _ => some ids.requestId
  | _ => none

/-- The id of the request that the call cancels. -/
def cancelled : MeCall → Option String
  | cancelRequest _ id => some id
  | _ => none

end MeCall

end TimeOff
