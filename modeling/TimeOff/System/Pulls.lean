import TimeOff.System.Calls

/-! # Pulls and pushes of balances

Any number of `reconcileKey` and `reconcileActive` are under way at once, each
suspended at its call of `getBalance`: HCM reads the balance at one moment, and
the answer is applied at a later one, with webhook reports and other calls
in between.  Each delivered balance carries the instant at which HCM held it.
That instant and what is kept of it, `taken`, are not seen by the service.
-/

set_option autoImplicit false

namespace TimeOff

open TimeOff.Lib ReconciliationService

/-- A snapshot about to be applied, and the instant at which HCM held its balance. -/
structure Report where
  clock : RowClock
  snapshot : HcmSnapshot
  heldAt : Int

/-- The snapshot says when HCM held its balance. -/
def Report.Dated (report : Report) : Prop := report.snapshot.asOf = .ms report.heldAt

instance (report : Report) : Decidable report.Dated :=
  inferInstanceAs (Decidable (_ = _))

/-- A `reconcileKey` or `reconcileActive` that awaits HCM's answer for `key`, with the keys that
come after it.  `read` is what HCM read, and when. -/
structure Pull where
  key : Key
  rest : List Key
  read : Option (Int × Reply BalanceView)

structure Cache where
  db : Db
  /-- The report from which the balance of the key is cached. -/
  taken : Key → Option Report
  pulls : List Pull

inductive CacheEvent where
  /-- A call that brings no balance. -/
  | call (call : Call)
  /-- A webhook. -/
  | handleBatch (clocks : Nat → RowClock) (batch : Batch)
  | reconcileKey (key : Key)
  | reconcileActive (now sinceMs : Int) (limit : Nat)
  /-- HCM reads the balance that this pull asks for. -/
  | hcmReads (number : Nat) (heldAt : Int) (reply : Reply BalanceView)
  /-- The answer arrives, and the pull goes on. -/
  | resume (number : Nat) (clock : RowClock)
  | crash

/-- The instant that the row of a webhook carries. -/
def BatchRow.heldAt (asOf : Option Stamp) (row : BatchRow) : Option Int :=
  match row.asOf.or asOf with
  | some (.ms time) => some time
  | _ => none

/-- Every row carries the instant at which HCM held its balance. -/
def Batch.dated (batch : Batch) : Bool := batch.balances.all fun row => (row.heldAt batch.asOf).isSome

/-- The reports of a batch, in the order of its rows. -/
def pushed (asOf : Option Stamp) : (Nat → RowClock) → List BatchRow → List Report
  | _, [] => []
  | clocks, row :: rest =>
    ⟨clocks 0, rowSnapshot asOf (clocks 0) row, (row.heldAt asOf).getD 0⟩ ::
      pushed asOf (fun n => clocks (n + 1)) rest

/-- The report that HCM's answer makes, if it can be read. -/
def pulled (clock : RowClock) (key : Key) (heldAt : Int) (reply : Reply BalanceView) : List Report :=
  match HcmClient.getBalance key reply with
  | .ok (some view) =>
    [⟨clock, { key := key, balance := view.balance, asOf := view.asOf.getD (.ms clock.fallback)
               source := .hcmPull }, heldAt⟩]
  | _ => []

/-- An answer that carries an `asOf` carries the instant at which HCM held the balance. -/
def answersTruly (key : Key) (heldAt : Int) (reply : Reply BalanceView) : Bool :=
  match HcmClient.getBalance key reply with
  | .ok (some view) => view.asOf = none ∨ view.asOf = some (.ms heldAt)
  | _ => true

namespace Cache

def empty : Cache := ⟨Db.empty, fun _ => none, []⟩

/-- Apply a report; one that throws ends the loop it is in. -/
def take (cache : Cache) (report : Report) : Option Cache :=
  match applyAndEscalate report.clock report.snapshot cache.db with
  | (.ok result, db) =>
    some { cache with
      db := db
      taken :=
        if result.ignored = some true then cache.taken
        else Function.update cache.taken report.snapshot.key (some report) }
  | (.error _, _) => none

def takeAll : List Report → Cache → Cache
  | [], cache => cache
  | report :: rest, cache =>
    match cache.take report with
    | some next => next.takeAll rest
    | none => cache

/-- The reports that the event applies. -/
def reports (cache : Cache) : CacheEvent → List Report
  | .handleBatch clocks batch => if batch.dated then pushed batch.asOf clocks batch.balances else []
  | .resume number clock =>
    match cache.pulls[number]? with
    | some ⟨key, _, some (heldAt, reply)⟩ => pulled clock key heldAt reply
    | _ => []
  | _ => []

/-- The pulls after the answer for `number` was applied: the loop goes on with its next key, and an
exception ends it. -/
def advance (pulls : List Pull) (number : Nat) (rest : List Key) :
    Except Failure ReconcileOutcome → List Pull
  | .error _ => pulls.eraseIdx number
  | .ok _ =>
    match rest with
    | [] => pulls.eraseIdx number
    | key :: rest => pulls.set number ⟨key, rest, none⟩

def step (cache : Cache) (event : CacheEvent) : Option Cache :=
  let ghost := cache.takeAll (cache.reports event)
  match event with
  | .call call => if call.bringsBalance then none else some { cache with db := call.exec cache.db }
  | .handleBatch clocks batch =>
    if batch.dated then
      some { ghost with db := (ReconciliationService.handleBatch clocks batch cache.db).2 }
    else none
  | .reconcileKey key => some { cache with pulls := cache.pulls ++ [⟨key, [], none⟩] }
  | .reconcileActive now sinceMs limit =>
    match ReconciliationService.reconcileActive now sinceMs limit cache.db with
    | [] => some cache
    | key :: rest => some { cache with pulls := cache.pulls ++ [⟨key, rest, none⟩] }
  | .hcmReads number heldAt reply =>
    match cache.pulls[number]? with
    | some ⟨key, rest, none⟩ =>
      if answersTruly key heldAt reply then
        some { cache with pulls := cache.pulls.set number ⟨key, rest, some (heldAt, reply)⟩ }
      else none
    | _ => none
  | .resume number clock =>
    match cache.pulls[number]? with
    | some ⟨key, rest, some (_, reply)⟩ =>
      let (outcome, db) := ReconciliationService.reconcileKey clock key reply cache.db
      some { ghost with db := db, pulls := advance cache.pulls number rest outcome }
    | _ => none
  | .crash => some { cache with pulls := [] }

end Cache

end TimeOff
