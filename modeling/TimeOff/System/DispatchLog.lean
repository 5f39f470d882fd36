import TimeOff.Lib.Runs
import TimeOff.System.World

/-! # Dispatches and failures

A log that the service does not keep: each row that a tick claims, and each
`scheduleRetry`, with the clock reading at which it happens.
-/

set_option autoImplicit false

namespace TimeOff

open TimeOff.Lib HcmOutboxService

inductive Happening where
  | dispatched (id : Nat) (now : Int)
  | failed (id : Nat) (now : Int)
deriving DecidableEq, Repr

def Happening.row : Happening → Nat
  | dispatched id _ | failed id _ => id

def Happening.isDispatch : Happening → Bool
  | dispatched .. => true
  | failed .. => false

/-- What happens to the rows of the outbox in a step. -/
def happenings (config : OutboxConfig) (world : World) : Event → List Happening
  | .tick now =>
    match world.worker with
    | .idle => (dueRows config now world.db).map fun row => .dispatched row.id now
    | _ => []
  | .settle now _ =>
    match world.worker with
    | .settling row _ (.retry _) => [.failed row.id now]
    | _ => []
  | _ => []

def recordHappenings (config : OutboxConfig) (log : List Happening) (world : World) (event : Event)
    (_ : World) : List Happening :=
  log ++ happenings config world event

/-- The part of the log that is about the row of this id. -/
def rowLog (id : Nat) (log : List Happening) : List Happening := log.filter fun happening => happening.row = id

def dispatches (log : List Happening) : Nat := (log.filter Happening.isDispatch).length

def failures (log : List Happening) : Nat := (log.filter fun happening => !happening.isDispatch).length

/-- The system with its log. -/
abbrev loggedStep (config : OutboxConfig) : World × List Happening → Event → Option (World × List Happening) :=
  withHistory (World.step config) (recordHappenings config)

end TimeOff
