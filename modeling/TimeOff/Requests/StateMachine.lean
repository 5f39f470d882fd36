import TimeOff.Common.Errors
import TimeOff.Lib.Transaction

/-! # The request state machine

The adjacency sets of `state-machine.js`: an edge that is not listed is refused
by `assertTransition`.  CONSUMED, REJECTED and CANCELLED have no way out, and
HCM_FAILED can only be cleaned up to CANCELLED.
-/

set_option autoImplicit false

namespace TimeOff

open TimeOff.Lib

def transitions : State → List State
  | .pending => [.approved, .rejected, .cancelled]
  | .approved => [.consumed, .cancelled, .hcmFailed, .reviewRequired]
  | .reviewRequired => [.approved, .rejected, .cancelled]
  | .rejected => []
  | .cancelled => []
  | .consumed => []
  | .hcmFailed => [.cancelled]

def canTransition (fromState toState : State) : Bool := (transitions fromState).contains toState

def assertTransition {σ : Type} (fromState toState : State) : Tx σ Failure Unit :=
  Tx.require (canTransition fromState toState) (.invalidStateTransition fromState toState)

/-- The states in which a request holds its days of the balance. -/
def State.holding : State → Bool
  | .pending | .approved | .reviewRequired => true
  | .rejected | .cancelled | .consumed | .hcmFailed => false

/-- Only the approved and the pending or reviewed requests move on their way to HCM. -/
theorem holding_of_canTransition {fromState toState : State}
    (legal : canTransition fromState toState = true) :
    fromState.holding = true ∨ fromState = .hcmFailed ∧ toState = .cancelled := by
  revert legal
  cases fromState <;> cases toState <;> decide

theorem canTransition_approved {fromState : State} :
    canTransition fromState .approved = true ↔ fromState = .pending ∨ fromState = .reviewRequired := by
  cases fromState <;> decide

theorem canTransition_consumed {fromState : State} :
    canTransition fromState .consumed = true ↔ fromState = .approved := by
  cases fromState <;> decide

theorem canTransition_hcmFailed {fromState : State} :
    canTransition fromState .hcmFailed = true ↔ fromState = .approved := by
  cases fromState <;> decide

theorem canTransition_reviewRequired {fromState : State} :
    canTransition fromState .reviewRequired = true ↔ fromState = .approved := by
  cases fromState <;> decide

end TimeOff
