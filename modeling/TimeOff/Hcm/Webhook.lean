import TimeOff.Hcm.Reconciliation

/-! # The HCM webhooks

`hcm.controller.js`: the batch route parses the `asOf` of the batch, the single
route that of its one row; the `asOf` of a row inside a batch is passed on as
the string it is.  `dateParse` is the `Date.parse` of the host.
-/

set_option autoImplicit false

namespace TimeOff

structure HcmBalanceEntryDto where
  employeeId : String
  locationId : String
  leaveType : String
  balance : ℚ
  asOf : Option String

structure HcmBatchDto where
  batchId : Option String
  asOf : Option String
  balances : List HcmBalanceEntryDto

def HcmBalanceEntryDto.key (entry : HcmBalanceEntryDto) : Key :=
  ⟨entry.employeeId, entry.locationId, entry.leaveType⟩

namespace HcmWebhookController

variable (dateParse : String → Option Int)

/-- `asOf ? Date.parse(asOf) : undefined`. -/
def parseAsOf (asOf : Option String) : Option Stamp :=
  match asOf with
  | none => none
  | some spelling =>
    if spelling = "" then none
    else match dateParse spelling with
      | some time => some (.ms time)
      | none => some .nan

/-- The batch that `handleBatch` hands on. -/
def batchOf (body : HcmBatchDto) : Batch where
  batchId := body.batchId
  asOf := parseAsOf dateParse body.asOf
  balances := body.balances.map fun entry => ⟨entry.key, some entry.balance, entry.asOf.map Stamp.text⟩

/-- The batch that `handleSingle` hands on. -/
def singleOf (body : HcmBalanceEntryDto) : Batch :=
  let asOf := parseAsOf dateParse body.asOf
  ⟨none, asOf, [⟨body.key, some body.balance, asOf⟩]⟩

def handleBatch (clocks : Nat → RowClock) (body : HcmBatchDto) (db : Db) :
    Except Failure BatchResult × Db :=
  ReconciliationService.handleBatch clocks (batchOf dateParse body) db

def handleSingle (clocks : Nat → RowClock) (body : HcmBalanceEntryDto) (db : Db) :
    Except Failure BatchResult × Db :=
  ReconciliationService.handleBatch clocks (singleOf dateParse body) db

end HcmWebhookController

end TimeOff
