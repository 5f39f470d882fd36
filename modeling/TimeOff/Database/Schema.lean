import TimeOff.Lib.EcmaDate
import TimeOff.Lib.NumberString
import TimeOff.Lib.Table
import TimeOff.Lib.Transaction
import TimeOff.Common.Errors

/-! # The tables of the service

The rows of `schema.js` and the database they form.  Numbers that JavaScript
keeps in a REAL column are exact rationals, milliseconds are integers.  A JSON
column holds the value it encodes.  The primary keys are kept by the tables
themselves; the other constraints are checked where a statement can break them.
-/

set_option autoImplicit false

namespace TimeOff

open TimeOff.Lib

/-- The three columns by which balances, reservations and requests are grouped. -/
structure Key where
  employeeId : String
  locationId : String
  leaveType : String
deriving DecidableEq, Repr

/-- A value of `asOf`: a whole number of milliseconds, any other number, among them the NaN that
`Date.parse` makes of a string it cannot read, or a string that was never parsed. -/
inductive Stamp where
  | ms (time : Int)
  | number (value : Number) (unwhole : value.whole? = none)
  | text (spelling : String)
deriving DecidableEq, Repr

def Stamp.nan : Stamp := .number .nan rfl

def Stamp.ofNumber (value : Number) : Stamp :=
  match whole : value.whole? with
  | some time => .ms time
  | none => .number value whole

/-- `Number(stamp)`; `none` is NaN. -/
def Stamp.toNumber : Stamp → Option (WithBot (WithTop ℚ))
  | .ms time => some (((time : ℚ) : WithTop ℚ) : WithBot (WithTop ℚ))
  | .number value _ => value.extended?
  | .text spelling => (stringToNumber spelling).extended?

/-- JavaScript's `left < right`: two strings compare as strings, anything else as numbers. -/
def Stamp.lt : Stamp → Stamp → Bool
  | .text left, .text right => left < right
  | left, right =>
    match left.toNumber, right.toNumber with
    | some left, some right => left < right
    | _, _ => false

/-- What SQLite passes over before and behind a number in a string. -/
def isBlank (char : Char) : Bool := char = ' ' || (9 ≤ char.toNat && char.toNat ≤ 13)

/-- The number a column of numeric affinity reads in a string: a decimal literal with its sign and
blanks around it.  Other than `Number`, it knows no other base, no infinity and no empty string. -/
def columnNumber? (spelling : String) : Option Number :=
  match trimmedOf isBlank spelling.toList with
  | '+' :: rest => (unsignedDecimal? rest).map .ofRat
  | '-' :: rest => (unsignedDecimal? rest).map fun value => .ofRat (-value)
  | rest => (unsignedDecimal? rest).map .ofRat

/-- What an INTEGER NOT NULL column makes of the value: a string that is no number stays a
string, a number with a fraction stays as it is, and NaN is NULL, which the column refuses. -/
def Stamp.stored : Stamp → Option Stamp
  | .ms time => some (.ms time)
  | .number value unwhole => if value = .nan then none else some (.number value unwhole)
  | .text spelling =>
    match columnNumber? spelling with
    | some value => some (.ofNumber value)
    | none => some (.text spelling)

structure BalanceRow where
  id : Nat
  key : Key
  hcmBalance : ℚ
  hcmSnapshotAt : Stamp
  updatedAt : Int
  version : Nat
deriving DecidableEq, Repr

structure RequestRow where
  id : String
  key : Key
  managerId : Option String
  startDate : String
  endDate : String
  days : ℚ
  reason : Option String
  state : State
  createdAt : Int
  updatedAt : Int
  approverId : Option String
  approvedAt : Option Int
  externalRequestId : Option String
  hcmError : Option String
  correlationId : String
deriving DecidableEq, Repr

inductive ReservationState where
  | open
  | consumed
  | released
deriving DecidableEq, Repr

structure ReservationRow where
  id : Nat
  requestId : String
  key : Key
  days : ℚ
  state : ReservationState
  createdAt : Int
  updatedAt : Int
deriving DecidableEq, Repr

inductive OutboxOp where
  | consume
deriving DecidableEq, Repr

inductive OutboxStatus where
  | pending
  | inflight
  | done
  | dead
deriving DecidableEq, Repr

/-- The JSON that `approve` puts into the outbox and the worker sends to HCM. -/
structure ConsumePayload where
  key : Key
  days : ℚ
  startDate : String
  endDate : String
  externalRequestId : String
  correlationId : String
deriving DecidableEq, Repr

structure OutboxRow where
  id : Nat
  requestId : String
  op : OutboxOp
  payload : ConsumePayload
  attempts : Nat
  nextAttemptAt : Int
  status : OutboxStatus
  lastError : Option String
  createdAt : Int
  updatedAt : Int
deriving DecidableEq, Repr

inductive ActorType where
  | user
  | system
  | hcm
deriving DecidableEq, Repr

inductive AuditAction where
  | requestCreated
  | requestApproved
  | requestRejected
  | requestCancelled
  | requestConsumed
  | requestHcmFailed
  | requestReviewRequired
  | balanceSnapshotIgnoredStale
  | balanceSnapshotNegativeDrift
  | balanceSnapshotApplied
deriving DecidableEq, Repr

inductive TargetType where
  | request
  | balance
deriving DecidableEq, Repr

/-- A balance as the code hands it on; the record of a row just inserted has no id. -/
structure BalanceRecord where
  id : Option Nat
  key : Key
  hcmBalance : ℚ
  hcmSnapshotAt : Stamp
  updatedAt : Int
  version : Nat
deriving DecidableEq, Repr

inductive AuditRecord where
  | request (row : RequestRow)
  | balance (record : BalanceRecord)
deriving DecidableEq, Repr

structure AuditEvent where
  id : Nat
  actorId : Option String
  actorType : ActorType
  action : AuditAction
  targetType : TargetType
  targetId : String
  before : Option AuditRecord
  after : Option AuditRecord
  correlationId : Option String
  createdAt : Int
deriving DecidableEq, Repr

instance : Keyed BalanceRow Nat := ⟨BalanceRow.id⟩
instance : Keyed RequestRow String := ⟨RequestRow.id⟩
instance : Keyed ReservationRow Nat := ⟨ReservationRow.id⟩
instance : Keyed OutboxRow Nat := ⟨OutboxRow.id⟩
instance : Keyed AuditEvent Nat := ⟨AuditEvent.id⟩

structure Db where
  balances : SerialTable BalanceRow
  requests : Table RequestRow
  reservations : SerialTable ReservationRow
  hcmOutbox : SerialTable OutboxRow
  auditEvents : SerialTable AuditEvent

def Db.empty : Db :=
  ⟨SerialTable.empty, Table.empty, SerialTable.empty, SerialTable.empty, SerialTable.empty⟩

/-- The body of a `DatabaseService.transaction`. -/
abbrev DbTx (α : Type) := Tx Db Failure α

/-- The clock readings of one operation: its own `now` and that of the audit row it writes. -/
structure Clock where
  now : Int
  auditNow : Int
deriving DecidableEq, Repr

def BalanceRow.record (row : BalanceRow) : BalanceRecord :=
  ⟨some row.id, row.key, row.hcmBalance, row.hcmSnapshotAt, row.updatedAt, row.version⟩

end TimeOff
