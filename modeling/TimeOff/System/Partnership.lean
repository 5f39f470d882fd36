import TimeOff.Common.Ids
import TimeOff.Hcm.MockServer
import TimeOff.System.World

/-! # The service and its HCM

The closed system: the service on one side, the HCM of `hcm-mock-server.js` on the other,
and between them nothing but texts.  A call of the worker reaches HCM at any later time, or
never; an answer reaches the worker as long as it waits for it, or is lost.  HR sets balances
in HCM at any time, and scripts responses of its own.
-/

set_option autoImplicit false

namespace TimeOff

open TimeOff.Lib

structure Partnership where
  db : Db
  worker : WorkerState
  /-- Every consume call ever sent, the oldest first. -/
  sent : List HttpCall
  hcm : MockHcmState
  /-- HCM's answer to the balance call that the worker awaits. -/
  balanceAnswer : Option FetchOutcome
  /-- HCM's answers to consume calls, each with the number of its call. -/
  answers : List (Nat × FetchOutcome)

namespace Partnership

inductive Event where
  /-- A call of one of the HTTP routes. -/
  | call (call : Call)
  | tick (now : Int)
  /-- The balance call of the row at hand reaches HCM. -/
  | hcmReads (now : Int)
  | balanceArrives (clock : Clock)
  | balanceLost (clock : Clock) (message : String)
  /-- The consume call of this number reaches HCM. -/
  | hcmHandles (number : Nat) (now : Int)
  /-- The answer at this place of `answers` reaches the worker. -/
  | answerArrives (clock : Clock) (place : Nat)
  | answerLost (clock : Clock) (message : String)
  | settle (now : Int) (random : ℚ)
  | crash
  | crashInBatch (clocks : Nat → RowClock) (batch : Batch) (rows escalations : Nat)
  | setBalance (employeeId locationId leaveType : String) (balance : ℚ) (asOf : Int)
  | scheduleFailures (plan : List ScriptedFailure)

/-- An approval comes with an id that `newExternalRequestId` has made. -/
def generated : Call → Bool
  | .approve _ newId _ _ => isExternalRequestId newId
  | _ => true

/-- A service without data, beside an HCM that has not heard of it. -/
def start (balances : String → Option MockBalance) (plan : List ScriptedFailure) : Partnership :=
  ⟨Db.empty, .idle, [], ⟨balances, fun _ => none, [], plan⟩, none, []⟩

variable (config : OutboxConfig) (p : Partnership)

/-- The worker goes on from the first await. -/
def afterBalance (clock : Clock) (row : ClaimedRow) (rest : List ClaimedRow) (reply : Reply BalanceView) :
    Partnership :=
  match HcmOutboxWorker.onBalance clock row reply p.db with
  | (some settlement, db) => { p with db := db, worker := .settling row rest settlement, balanceAnswer := none }
  | (none, db) => { p with
      db := db, worker := .awaitConsume row rest, balanceAnswer := none
      sent := p.sent ++ [HcmClient.consumeBalanceCall row.payload] }

/-- The worker goes on from the second await. -/
def afterConsume (clock : Clock) (row : ClaimedRow) (rest : List ClaimedRow) (reply : Reply Unit) :
    Partnership :=
  let (settlement, db) := HcmOutboxWorker.onConsume clock row reply p.db
  { p with db := db, worker := .settling row rest settlement }

def step : Event → Option Partnership
  | .call call =>
    if p.worker.yields ∧ call.offered ∧ generated call then some { p with db := call.exec p.db } else none
  | .tick now =>
    match p.worker with
    | .idle =>
      let (worker, db) := HcmOutboxWorker.tick config now p.db
      some { p with db := db, worker := worker }
    | .settling .. => none
    -- a tick that finds the last one still draining returns at once
    | _ => some p
  | .hcmReads now =>
    match p.worker with
    | .awaitBalance row _ =>
      let (outcome, hcm) := p.hcm.fetch now (HcmClient.getBalanceCall row.payload.key)
      some { p with hcm := hcm, balanceAnswer := some outcome }
    | _ => none
  | .balanceArrives clock =>
    match p.worker, p.balanceAnswer with
    | .awaitBalance row rest, some outcome => some (p.afterBalance clock row rest outcome.balanceReply)
    | _, _ => none
  | .balanceLost clock message =>
    match p.worker with
    | .awaitBalance row rest => some (p.afterBalance clock row rest (.networkError message))
    | _ => none
  | .hcmHandles number now =>
    match p.sent[number]? with
    | some call =>
      let (outcome, hcm) := p.hcm.fetch now call
      some { p with hcm := hcm, answers := p.answers ++ [(number, outcome)] }
    | none => none
  | .answerArrives clock place =>
    match p.worker, p.answers[place]? with
    | .awaitConsume row rest, some (number, outcome) =>
      -- the worker awaits the answer to its last call
      if number + 1 = p.sent.length then some (p.afterConsume clock row rest outcome.consumeReply) else none
    | _, _ => none
  | .answerLost clock message =>
    match p.worker with
    | .awaitConsume row rest => some (p.afterConsume clock row rest (.networkError message))
    | _ => none
  | .settle now random =>
    match p.worker with
    | .settling row rest settlement =>
      some { p with
        db := HcmOutboxWorker.settle config now random row settlement p.db
        worker := HcmOutboxWorker.afterSettle rest settlement }
    | _ => none
  | .crash => some { p with worker := .idle, balanceAnswer := none }
  | .crashInBatch clocks batch rows escalations =>
    if p.worker.yields then
      some { p with
        db := interruptedBatch clocks batch rows escalations p.db, worker := .idle, balanceAnswer := none }
    else none
  | .setBalance employeeId locationId leaveType balance asOf =>
    some { p with hcm := p.hcm.setBalance employeeId locationId leaveType balance asOf }
  | .scheduleFailures plan => some { p with hcm := p.hcm.scheduleFailures plan }

end Partnership

end TimeOff
