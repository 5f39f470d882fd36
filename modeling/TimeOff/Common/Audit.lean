import TimeOff.Database.Schema

/-! # The audit log

`AuditService.logInTx` appends one row to `audit_events` on the connection of
the transaction it is called in; it touches no other table.
-/

set_option autoImplicit false

namespace TimeOff

open TimeOff.Lib

structure AuditEntry where
  actorId : Option String := none
  actorType : ActorType
  action : AuditAction
  targetType : TargetType
  targetId : String
  before : Option AuditRecord := none
  after : Option AuditRecord
  correlationId : Option String

namespace AuditService

/-- The row that an entry becomes. -/
def auditEvent (auditNow : Int) (entry : AuditEntry) (id : Nat) : AuditEvent where
  id := id
  actorId := entry.actorId
  actorType := entry.actorType
  action := entry.action
  targetType := entry.targetType
  targetId := entry.targetId
  before := entry.before
  after := entry.after
  correlationId := entry.correlationId
  createdAt := auditNow

def logged (auditNow : Int) (entry : AuditEntry) (db : Db) : Db :=
  { db with auditEvents := db.auditEvents.append (auditEvent auditNow entry) fun _ => rfl }

def logInTx (auditNow : Int) (entry : AuditEntry) : DbTx Unit := Tx.write (logged auditNow entry)

end AuditService

end TimeOff
