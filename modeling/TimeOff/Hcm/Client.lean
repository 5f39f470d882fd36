import TimeOff.Lib.FormEncoding
import TimeOff.Database.Schema

/-! # The HCM client

How `hcm.client.js` turns the outcome of one HTTP exchange into a value or an
error.  The exchange itself is an input: a network error, or a status with the
text of the body and what `JSON.parse` makes of that text.
-/

set_option autoImplicit false

namespace TimeOff

open TimeOff.Lib

/-- The outcome of one call of `fetch`; `parsed` is `none` where the JSON is `null`. -/
inductive Reply (α : Type) where
  | networkError (message : String)
  | response (status : Nat) (text : String) (parsed : Except String (Option α))

/-- What the service reads of HCM's answer: a balance that is a finite number, and `asOf`. -/
structure BalanceView where
  balance : Option ℚ
  asOf : Option Stamp

namespace HcmClient

variable {α : Type}

def request (method path : String) : Reply α → Except Failure (Option α)
  | .networkError message => .error (.hcmTransient ("HCM network error: " ++ message) 0)
  | .response status text parsed =>
    let message := "HCM " ++ method ++ " " ++ path ++ " -> " ++ toString status ++ ": " ++ text
    if 200 ≤ status ∧ status < 300 then
      if text = "" then .ok none                                      -- 204 and the like: null
      else match parsed with
        | .ok value => .ok value
        | .error message => .error (.syntaxError message)
    else if status = 408 ∨ status = 429 ∨ 500 ≤ status then .error (.hcmTransient message status)
    else .error (.hcmPermanent message status)

/-- The pairs of `URLSearchParams`. -/
def keyPairs (key : Key) : List (String × String) :=
  [("employeeId", key.employeeId), ("locationId", key.locationId), ("leaveType", key.leaveType)]

/-- `qs`. -/
def balanceQuery (key : Key) : String := String.ofList (encodeQuery (keyPairs key))

def getBalance (key : Key) (reply : Reply BalanceView) : Except Failure (Option BalanceView) :=
  request "GET" ("/api/v1/balances?" ++ balanceQuery key) reply

def consumeBalance (reply : Reply Unit) : Except Failure (Option Unit) :=
  request "POST" "/api/v1/time-off" reply

end HcmClient

end TimeOff
