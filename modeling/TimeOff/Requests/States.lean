import Mathlib.Tactic.Common

/-! # The states of a time-off request

The states of `state-machine.js` and their names in the `requests` table.
-/

set_option autoImplicit false

namespace TimeOff

inductive State where
  | pending
  | approved
  | rejected
  | cancelled
  | consumed
  | hcmFailed
  | reviewRequired
deriving DecidableEq, Repr

def State.name : State → String
  | .pending => "PENDING"
  | .approved => "APPROVED"
  | .rejected => "REJECTED"
  | .cancelled => "CANCELLED"
  | .consumed => "CONSUMED"
  | .hcmFailed => "HCM_FAILED"
  | .reviewRequired => "REVIEW_REQUIRED"

end TimeOff
