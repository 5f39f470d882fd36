import TimeOff.Lib.DoubleArithmetic

/-! # Balances in doubles

The program keeps balances and days in doubles.  Here are the few places where it computes with
them, operation by operation; a cached balance is a REAL, and the SUM of reservations one too.
-/

set_option autoImplicit false

namespace TimeOff.InDoubles

open TimeOff.Lib

def hundred : Double := Double.whole 100 (by norm_num)

/-- `Math.round(n * 100) / 100`. -/
def round (n : Number) : Number := n.roundAt hundred

/-- The `effectiveBalance` of `getEffectiveBalance`. -/
def effectiveBalance (hcmBalance reserved : Double) : Number := round (hcmBalance.minus reserved)

/-- What `createRequest` computes: the amounts of its `InsufficientBalanceError`, or its
`effectiveBalanceAfter`. -/
def admission (hcmBalance reserved days : Double) : Except (Number × Double) Number :=
  let effective := round (hcmBalance.minus reserved)
  if effective.below days.value then .error (effective, days)
  else .ok (round (effective.andThen (·.minus days)))

/-- `balance < reserved`, the comparison of `applyHcmBalanceSnapshot`. -/
def negativeDrift (balance reserved : Double) : Bool := balance.value < reserved.value

end TimeOff.InDoubles
