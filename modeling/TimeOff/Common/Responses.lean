import TimeOff.Common.Errors

/-! # Errors as responses

`AllExceptionsFilter` turns what a handler throws into a status and a JSON body:
a domain error keeps its own, and nothing else is told to the client.
-/

set_option autoImplicit false

namespace TimeOff

/-- What an error carries besides its code and its message. -/
inductive Detail where
  | text (value : String)
  | number (value : ℚ)
deriving DecidableEq, Repr

/-- `{ error, message, ...extra }`. -/
structure ErrorBody where
  error : String
  message : String
  extra : List (String × Detail) := []
deriving DecidableEq, Repr

/-- The status and the body that the constructors of `errors.js` give a domain error. -/
def Failure.response? : Failure → Option (Nat × ErrorBody)
  | failure@(.insufficientBalance available requested) =>
    some (409, ⟨"INSUFFICIENT_BALANCE", failure.message,
      [("available", .number available), ("requested", .number requested)]⟩)
  | failure@(.invalidStateTransition fromState toState) =>
    some (409, ⟨"INVALID_STATE_TRANSITION", failure.message,
      [("from", .text fromState.name), ("to", .text toState.name)]⟩)
  | failure@(.notFound entity id) =>
    some (404, ⟨"NOT_FOUND", failure.message, [("entity", .text entity), ("id", .text id)]⟩)
  | failure@(.forbidden _) => some (403, ⟨"FORBIDDEN", failure.message, []⟩)
  | failure@(.validation _) => some (400, ⟨"VALIDATION_ERROR", failure.message, []⟩)
  | failure@(.conflict code _) => some (409, ⟨code, failure.message, []⟩)
  | failure@(.balanceNotFound employeeId locationId leaveType) =>
    -- JSON leaves out an `employeeId` that is undefined
    some (404, ⟨"BALANCE_NOT_FOUND", failure.message,
      (employeeId.map fun employeeId => ("employeeId", .text employeeId)).toList ++
        [("locationId", .text locationId), ("leaveType", .text leaveType)]⟩)
  | .hcmPermanent _ _ | .hcmTransient _ _ | .sqlite _ | .syntaxError _ | .typeError _ => none

/-- `AllExceptionsFilter.catch`. -/
def Failure.response (failure : Failure) : Nat × ErrorBody :=
  failure.response?.getD (500, ⟨"INTERNAL_ERROR", "Internal server error", []⟩)

end TimeOff
