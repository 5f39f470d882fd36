import Mathlib.Logic.Function.Basic
import TimeOff.Hcm.Wire

/-! # HCM, as the tests stand it in

`test/mocks/hcm-mock-server.js`: balances by key, the ids whose days were taken, and a plan
of scripted responses.  A `Map` is a function that is updated at a key.  The clock of HCM
is an argument.
-/

set_option autoImplicit false

namespace TimeOff

open TimeOff.Lib

/-- The value of an entry of `_idempotency`. -/
inductive IdempotencyMark where
  | consumed
  | released
deriving DecidableEq, Repr

structure MockBalance where
  balance : ℚ
  asOf : Int
deriving DecidableEq, Repr

inductive MockOp where
  | getBalance
  | consume
  | release
  | unknown
deriving DecidableEq, Repr

structure ScriptedFailure where
  op : MockOp
  status : Nat
  body : Option Json

/-- What a call of `fetch` comes to: it throws, or there is a response. -/
inductive FetchOutcome where
  | networkError (message : String)
  | response (status : Nat) (text : String)
deriving DecidableEq, Repr

structure MockHcmState where
  balances : String → Option MockBalance
  idempotency : String → Option IdempotencyMark
  calls : List HttpCall
  failurePlan : List ScriptedFailure

/-- The part of the path before the query. -/
def HttpCall.pathname (call : HttpCall) : String := String.ofList (call.path.toList.takeWhile (· ≠ '?'))

/-- The pairs of the query; one that is not UTF-8 has none. -/
def HttpCall.searchParams (call : HttpCall) : List (String × String) :=
  (decodeQuery ((call.path.toList.dropWhile (· ≠ '?')).drop 1)).getD []

/-- `u.searchParams.get(name)`; null is `none`. -/
def HttpCall.searchParam (call : HttpCall) (name : String) : Option String :=
  (call.searchParams.find? fun pair => pair.1 = name).map Prod.snd

/-- The body, parsed. -/
def HttpCall.json (call : HttpCall) : Option Json := call.body.bind Json.parse

/-- The fields of a consume call that HCM reads. -/
structure ConsumeBody where
  employeeId : String
  locationId : String
  leaveType : String
  days : ℚ
  externalRequestId : String

def ConsumeBody.ofJson? (json : Json) : Option ConsumeBody := do
  let employeeId ← (json.member? "employeeId").bind Json.text?
  let locationId ← (json.member? "locationId").bind Json.text?
  let leaveType ← (json.member? "leaveType").bind Json.text?
  let days ← (json.member? "days").bind Json.amount?
  let externalRequestId ← (json.member? "externalRequestId").bind Json.text?
  some ⟨employeeId, locationId, leaveType, days, externalRequestId⟩

def makeResponse (status : Nat) (body : Json) : FetchOutcome := .response status body.stringify

def inferOp (method pathname : String) : MockOp :=
  if method = "GET" ∧ pathname = "/api/v1/balances" then .getBalance
  else if method = "POST" ∧ pathname = "/api/v1/time-off" then .consume
  else if method = "POST" ∧ pathname = "/api/v1/time-off/release" then .release
  else .unknown

def ScriptedFailure.outcome (failure : ScriptedFailure) : FetchOutcome :=
  if failure.status = 0 then .networkError "network error (simulated)"
  else makeResponse failure.status (failure.body.getD (.object []))

namespace MockHcmState

def empty : MockHcmState := ⟨fun _ => none, fun _ => none, [], []⟩

def key (e l t : String) : String := e ++ "|" ++ l ++ "|" ++ t

variable (state : MockHcmState)

def setBalance (employeeId locationId leaveType : String) (balance : ℚ) (asOf : Int) : MockHcmState :=
  { state with
    balances := Function.update state.balances (key employeeId locationId leaveType) (some ⟨balance, asOf⟩) }

def balanceAt (now : Int) (k : String) : MockBalance := (state.balances k).getD ⟨0, now⟩

def getBalance (now : Int) (employeeId locationId leaveType : String) : MockBalance :=
  state.balanceAt now (key employeeId locationId leaveType)

def scheduleFailures (plan : List ScriptedFailure) : MockHcmState :=
  { state with failurePlan := state.failurePlan ++ plan }

/-- The first scripted response for the operation leaves the plan. -/
def popFailure (op : MockOp) : Option ScriptedFailure × MockHcmState :=
  let matching : ScriptedFailure → Bool := fun failure => failure.op = op
  (state.failurePlan.find? matching, { state with failurePlan := state.failurePlan.eraseP matching })

/-- The days of an `externalRequestId` have been taken. -/
def recorded (externalRequestId : String) : Bool := state.idempotency externalRequestId = some .consumed

def consume (now : Int) (body : ConsumeBody) : FetchOutcome × MockHcmState :=
  let k := key body.employeeId body.locationId body.leaveType
  if body.externalRequestId ≠ "" ∧ state.recorded body.externalRequestId then
    let snap := state.getBalance now body.employeeId body.locationId body.leaveType
    (makeResponse 200 (.object [("ok", .boolean true), ("balance", .number (.ofRat snap.balance)),
      ("idempotent", .boolean true)]), state)
  else
    let cur := state.balanceAt now k
    if cur.balance < body.days then
      (makeResponse 422 (.object [("error", .string "INSUFFICIENT_BALANCE"),
        ("available", .number (.ofRat cur.balance)), ("requested", .number (.ofRat body.days))]), state)
    else
      let next : MockBalance := ⟨cur.balance - body.days, now⟩
      (makeResponse 200 (.object [("ok", .boolean true), ("balance", .number (.ofRat next.balance))]),
        { state with
          balances := Function.update state.balances k (some next)
          -- an empty id is falsy, and is not remembered
          idempotency :=
            if body.externalRequestId ≠ "" then
              Function.update state.idempotency body.externalRequestId (some .consumed)
            else state.idempotency })

def release (externalRequestId : String) : FetchOutcome × MockHcmState :=
  (makeResponse 200 (.object [("ok", .boolean true)]),
    { state with idempotency := Function.update state.idempotency externalRequestId (some .released) })

/-- The answer to `GET /api/v1/balances`. -/
def balanceResponse (now : Int) (call : HttpCall) : FetchOutcome :=
  let param := call.searchParam
  let text (value : Option String) : Json := value.elim .null .string
  let spelled (value : Option String) : String := value.getD "null"
  let snap := state.getBalance now (spelled (param "employeeId")) (spelled (param "locationId"))
    (spelled (param "leaveType"))
  makeResponse 200 (.object
    [("employeeId", text (param "employeeId")), ("locationId", text (param "locationId")),
      ("leaveType", text (param "leaveType")), ("balance", .number (.ofRat snap.balance)),
      ("asOf", .number (.ofRat snap.asOf))])

/-- What the `catch` answers to an error without a status. -/
def internalError : FetchOutcome := makeResponse 500 (.object [("error", .string "INTERNAL")])

def fetch (now : Int) (call : HttpCall) : FetchOutcome × MockHcmState :=
  let op := inferOp call.method call.pathname
  let (failure, state) := { state with calls := state.calls ++ [call] }.popFailure op
  match failure with
  | some failure => (failure.outcome, state)
  | none =>
    match op with
    | .getBalance => (state.balanceResponse now call, state)
    | .consume =>
      match call.json.bind ConsumeBody.ofJson? with
      | some body => state.consume now body
      | none => (internalError, state)
    | .release =>
      match (call.json.bind (Json.member? "externalRequestId")).bind Json.text? with
      | some externalRequestId => state.release externalRequestId
      | none => (internalError, state)
    | .unknown => (makeResponse 404 (.object [("error", .string "NOT_FOUND")]), state)

end MockHcmState

namespace FetchOutcome

/-- What `_request` makes of the outcome, the JSON of the body read by `read`. -/
def reply {α : Type} (read : Json → Option α) : FetchOutcome → Reply α
  | networkError message => .networkError message
  | response status text => HcmClient.received read status text

def balanceReply (outcome : FetchOutcome) : Reply BalanceView := outcome.reply BalanceView.ofJson?

/-- The worker looks no further than whether the call was answered. -/
def consumeReply (outcome : FetchOutcome) : Reply Unit :=
  outcome.reply fun
    | .null => none
    | _ => some ()

/-- `res.ok`. -/
def ok : FetchOutcome → Bool
  | networkError _ => false
  | response status _ => 200 ≤ status ∧ status < 300

end FetchOutcome

end TimeOff
