import Mathlib.Data.Rat.Defs
import TimeOff.Requests.States

/-! # What the service can throw

The domain errors of `common/errors.js` with the data each carries, the errors
of the HCM client, and what SQLite and the language themselves throw.
-/

set_option autoImplicit false

namespace TimeOff

inductive Failure where
  | insufficientBalance (available requested : ℚ)
  | invalidStateTransition (fromState toState : State)
  | notFound (entity id : String)
  | forbidden (message : String)
  | validation (message : String)
  | conflict (code message : String)
  | balanceNotFound (employeeId : Option String) (locationId leaveType : String)
  | hcmPermanent (message : String) (httpStatus : Nat)
  | hcmTransient (message : String) (httpStatus : Nat)
  /-- A constraint of the schema refused a statement. -/
  | sqlite (message : String)
  /-- `JSON.parse` on text that is not JSON. -/
  | syntaxError (message : String)
  /-- Reading a property of `null`. -/
  | typeError (message : String)
deriving DecidableEq, Repr

/-- `err.message`. -/
def Failure.message : Failure → String
  | .insufficientBalance _ _ => "Insufficient balance"
  | .invalidStateTransition fromState toState =>
    "Cannot transition from " ++ fromState.name ++ " to " ++ toState.name
  | .notFound entity id => entity ++ " not found: " ++ id
  | .balanceNotFound _ _ _ => "No balance for key"
  | .forbidden message | .validation message | .conflict _ message | .hcmPermanent message _
  | .hcmTransient message _ | .sqlite message | .syntaxError message | .typeError message => message

/-- `err instanceof HcmPermanentError`. -/
def Failure.isHcmPermanent : Failure → Bool
  | .hcmPermanent _ _ => true
  | _ => false

end TimeOff
