import TimeOff.Lib.Table
import TimeOff.Common.Errors

/-! # The idempotency store

`idempotency.service.js`: the first response under a key, an endpoint and an
actor is kept for 24 hours.  `lookup` deletes an entry that it finds expired,
`store` overwrites the one there is; each is a single statement or two, outside
of any transaction.
-/

set_option autoImplicit false

namespace TimeOff

open TimeOff.Lib

/-- The primary key of `idempotency_keys`. -/
structure Scope where
  key : String
  endpoint : String
  actorId : String
deriving DecidableEq, Repr

/-- A row of `idempotency_keys`; the column `response` holds the JSON of a `β`. -/
structure IdempotencyRow (β : Type) where
  scope : Scope
  statusCode : Nat
  response : β
  createdAt : Int
  expiresAt : Int

instance {β : Type} : Keyed (IdempotencyRow β) Scope := ⟨IdempotencyRow.scope⟩

structure CachedResponse (β : Type) where
  statusCode : Nat
  response : β

namespace IdempotencyService

variable {β : Type}

def ttlMs : Int := 24 * 60 * 60 * 1000

/-- The header that is given: `undefined` and the empty string are both falsy. -/
def given (key : Option String) : Option String := key.filter fun key => key ≠ ""

def lookup (now : Int) (key : Option String) (endpoint : String) (actorId : Option String)
    (table : Table (IdempotencyRow β)) : Option (CachedResponse β) × Table (IdempotencyRow β) :=
  match given key, actorId with
  | some key, some actorId =>
    match table.find? ⟨key, endpoint, actorId⟩ with
    | none => (none, table)
    | some row =>
      if row.expiresAt < now then (none, table.delete ⟨key, endpoint, actorId⟩)
      else (some ⟨row.statusCode, row.response⟩, table)
  -- without a key nothing is looked up, and an actor that is NULL equals none of the rows
  | _, _ => (none, table)

def store (now : Int) (key : Option String) (endpoint : String) (actorId : Option String)
    (statusCode : Nat) (response : β) (table : Table (IdempotencyRow β)) :
    Except Failure Unit × Table (IdempotencyRow β) :=
  match given key, actorId with
  | none, _ => (.ok (), table)
  | some _, none => (.error (.sqlite "NOT NULL constraint failed: idempotency_keys.actor_id"), table)
  | some key, some actorId =>
    (.ok (), table.insertOrReplace
      ⟨⟨key, endpoint, actorId⟩, statusCode, response, now, now + ttlMs⟩)

end IdempotencyService

end TimeOff
