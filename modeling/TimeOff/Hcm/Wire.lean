import TimeOff.Lib.Json
import TimeOff.Hcm.Client

/-! # What crosses the wire

The texts between the service and HCM: the JSON of an outbox payload, which is the body
of a consume call too, the query of a balance call, and the JSON that HCM answers.
-/

set_option autoImplicit false

namespace TimeOff

open TimeOff.Lib

namespace Lib.Json

/-- `object[name]`. -/
def member? (name : String) : Json → Option Json
  | .object members => (members.find? fun member => member.1 = name).map Prod.snd
  | _ => none

def text? : Json → Option String
  | .string value => some value
  | _ => none

/-- A finite number. -/
def amount? : Json → Option ℚ
  | .number (.finite x) => some x.value
  | _ => none

end Lib.Json

/-- The member order is that of `approve`, and of `consumeBalance`. -/
def ConsumePayload.toJson (payload : ConsumePayload) : Json :=
  .object
    [("employeeId", .string payload.key.employeeId), ("locationId", .string payload.key.locationId),
      ("leaveType", .string payload.key.leaveType), ("days", .number (.ofRat payload.days)),
      ("startDate", .string payload.startDate), ("endDate", .string payload.endDate),
      ("externalRequestId", .string payload.externalRequestId),
      ("correlationId", .string payload.correlationId)]

def ConsumePayload.ofJson? (json : Json) : Option ConsumePayload := do
  let employeeId ← (json.member? "employeeId").bind Json.text?
  let locationId ← (json.member? "locationId").bind Json.text?
  let leaveType ← (json.member? "leaveType").bind Json.text?
  let days ← (json.member? "days").bind Json.amount?
  let startDate ← (json.member? "startDate").bind Json.text?
  let endDate ← (json.member? "endDate").bind Json.text?
  let externalRequestId ← (json.member? "externalRequestId").bind Json.text?
  let correlationId ← (json.member? "correlationId").bind Json.text?
  some ⟨⟨employeeId, locationId, leaveType⟩, days, startDate, endDate, externalRequestId, correlationId⟩

/-- What `enqueue` writes into the column `payload`. -/
def HcmOutboxService.payloadText (payload : ConsumePayload) : String := payload.toJson.stringify

/-- What `claimDue` makes of the column. -/
def HcmOutboxService.readPayload (text : String) : Option ConsumePayload :=
  (Json.parse text).bind ConsumePayload.ofJson?

/-- One call of `fetch`: the path is what follows the base URL. -/
structure HttpCall where
  method : String
  path : String
  body : Option String
deriving DecidableEq, Repr

namespace HcmClient

def getBalanceCall (key : Key) : HttpCall := ⟨"GET", "/api/v1/balances?" ++ balanceQuery key, none⟩

def consumeBalanceCall (payload : ConsumePayload) : HttpCall :=
  ⟨"POST", "/api/v1/time-off", some payload.toJson.stringify⟩

/-- `text ? JSON.parse(text) : null` of an answer that was received, the value read by `read`. -/
def received {α : Type} (read : Json → Option α) (status : Nat) (text : String) : Reply α :=
  .response status text <|
    match Json.parse text with
    | none => .error "Unexpected token in JSON"
    | some json => .ok (read json)

end HcmClient

/-- `view.asOf`, of which null is taken like undefined.  What is neither a number nor a string
cannot be bound to a column, like NaN. -/
def Stamp.ofJson? : Json → Option Stamp
  | .null => none
  | .string spelling => some (.text spelling)
  | .number value => some (.ofNumber value)
  | _ => some .nan

/-- `view.balance` and `view.asOf`, unless the view is null. -/
def BalanceView.ofJson? : Json → Option BalanceView
  | .null => none
  | json => some ⟨(json.member? "balance").bind Json.amount?, (json.member? "asOf").bind Stamp.ofJson?⟩

end TimeOff
