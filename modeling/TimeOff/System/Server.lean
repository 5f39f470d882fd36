import TimeOff.Auth.Guard
import TimeOff.Hcm.Admin
import TimeOff.Hcm.Signature
import TimeOff.Hcm.Webhook
import TimeOff.System.Me
import TimeOff.System.World

/-! # The HTTP server

The service with its routes: who calls is what a token says, a webhook counts by its
signature, an admin starts reconcile loops and ticks.  A handler runs to its end, or to the
await at which it is suspended, before any other code does; the worker, HCM and crashes come
in between.
-/

set_option autoImplicit false

namespace TimeOff

open TimeOff.Lib

/-- What the service takes from its host, its packages and its configuration.  The two readers make
the body of a webhook from the text received: JSON, and what the validation pipe lets pass. -/
structure Host where
  outbox : OutboxConfig
  jwtSecret : String
  hcmWebhookSecret : String
  jwtVerify : Int → String → String → Except String Claims
  hmacSha256 : String → String → String
  dateParse : String → Option Int
  readBatch : WebhookRequest → Except Failure HcmBatchDto
  readBalance : WebhookRequest → Except Failure HcmBalanceEntryDto

/-- A route behind the guard, with what the request carries and with the clock readings and the ids
that its handler takes. -/
inductive Route where
  | me (call : MeCall)
  | listForManager
  | approve (clock : Clock) (newExternalRequestId id : String)
  | reject (clock : Clock) (id : String) (reason : Option String)
  | reconcile (now : Int) (body : ReconcileDto)
  | listOutbox (status limit : Option String)
  | retry (now : Int) (id : String)
  | drain (now : Int)

def Route.roles : Route → List String
  | me _ => MeCall.roles
  | listForManager | approve .. | reject .. => ["manager", "admin"]
  | reconcile .. | listOutbox .. | retry .. | drain .. => ["admin"]

structure ApiRequest where
  now : Int
  authorization : Option String
  route : Route

inductive WebhookRoute where
  | batch
  | balance

structure WebhookDelivery where
  now : Double
  request : WebhookRequest
  route : WebhookRoute
  clocks : Nat → RowClock

inductive ServerResponse where
  | response (response : Response)
  | outbox (entries : List OutboxEntry)
  | batch (result : BatchResult)
  /-- The handler is suspended and answers later. -/
  | awaits

structure Server where
  world : World
  idempotencyKeys : Table (IdempotencyRow CreatedRequest)
  /-- The reconcile loops under way: the key whose balance HCM was asked for, and the keys to come. -/
  pulls : List (Key × List Key)

namespace Server

def empty : Server := ⟨World.empty, Table.empty, []⟩

def store (server : Server) : Store := ⟨server.world.db, server.idempotencyKeys⟩

def withDb (server : Server) (db : Db) : Server := { server with world := { server.world with db := db } }

def withStore (server : Server) (store : Store) : Server :=
  { server.withDb store.db with idempotencyKeys := store.idempotencyKeys }

def withPull (server : Server) : List Key → Server
  | [] => server
  | key :: rest => { server with pulls := server.pulls ++ [(key, rest)] }

variable (host : Host)

/-- `tick` up to its first await; one that finds the last still draining returns at once. -/
def startTick (now : Int) (server : Server) : Server :=
  { server with world := (World.step host.outbox server.world (.tick now)).getD server.world }

/-- The handler of the route, once the guard has let the actor in. -/
def handle (actor : Actor) (server : Server) : Route → ServerResponse × Server
  | .me call =>
    let (response, store) := call.handle actor server.store
    (.response response, server.withStore store)
  | .listForManager =>
    (.response ⟨200, .requests (TimeOffController.listForManager actor server.store)⟩, server)
  | .approve clock newId id =>
    let (outcome, store) := TimeOffController.approve clock newId actor id server.store
    (.response (respondWith 201 .request outcome), server.withStore store)
  | .reject clock id reason =>
    let (outcome, store) := TimeOffController.reject clock actor id reason server.store
    (.response (respondWith 201 .request outcome), server.withStore store)
  -- the loop asks HCM for its first key and is suspended; a sweep over no keys is over at once
  | .reconcile now body => (.awaits, server.withPull (AdminController.reconcile now body server.world.db))
  | .listOutbox status limit =>
    -- SQLite throws on a limit that is no integer
    match AdminController.list status limit server.world.db with
    | .ok entries => (.outbox entries, server)
    | .error failure => (.response failure.toResponse, server)
  | .retry now id =>
    match AdminController.retry id server.world.db with
    | .ok db => (.awaits, (server.withDb db).startTick host now)
    | .error failure => (.response failure.toResponse, server)
  | .drain now => (.awaits, server.startTick host now)

/-- Who calls, if the guard lets the request pass. -/
def actorOf (request : ApiRequest) : Except Refusal Actor :=
  JwtAuthGuard.canActivate host.jwtVerify host.jwtSecret request.now request.route.roles
    request.authorization

def serve (request : ApiRequest) (server : Server) : ServerResponse × Server :=
  match actorOf host request with
  -- the handler is not reached
  | .error refusal => (.response ⟨refusal.response.1, .error refusal.response.2⟩, server)
  | .ok actor => server.handle host actor request.route

/-- The body of a delivery, once its signature was verified. -/
def receive (delivery : WebhookDelivery) : Except (Nat × ErrorBody) Batch :=
  match HcmSignatureGuard.canActivate host.hmacSha256 host.hcmWebhookSecret delivery.now delivery.request with
  | .error error => .error (error.httpStatus, ⟨error.code, error.message, []⟩)
  -- the guard comes before the validation pipe
  | .ok _ =>
    match delivery.route with
    | .batch =>
      match host.readBatch delivery.request with
      | .ok body => .ok (HcmWebhookController.batchOf host.dateParse body)
      | .error failure => .error failure.response
    | .balance =>
      match host.readBalance delivery.request with
      | .ok body => .ok (HcmWebhookController.singleOf host.dateParse body)
      | .error failure => .error failure.response

def deliver (delivery : WebhookDelivery) (server : Server) : ServerResponse × Server :=
  match receive host delivery with
  | .error (status, body) => (.response ⟨status, .error body⟩, server)
  | .ok batch =>
    match ReconciliationService.handleBatch delivery.clocks batch server.world.db with
    | (.ok result, db) => (.batch result, server.withDb db)
    | (.error failure, db) => (.response failure.toResponse, server.withDb db)

/-- The loops once HCM's answer for the pull of this number was taken in: an exception ends the loop. -/
def advance (pulls : List (Key × List Key)) (number : Nat) (rest : List Key) :
    Except Failure ReconcileOutcome → List (Key × List Key)
  | .error _ => pulls.eraseIdx number
  | .ok _ =>
    match rest with
    | [] => pulls.eraseIdx number
    | key :: rest => pulls.set number (key, rest)

/-- The process dies once the first transaction of the handler has committed and before its next
statement. -/
def cutShort (actor : Actor) (server : Server) : Route → Option Server
  | .me (.postRequest clock ids input idemKey) =>
    match IdempotencyService.lookup clock.lookup idemKey TimeOffController.createEndpoint actor.sub
        server.idempotencyKeys with
    | (some _, _) => none
    -- filed, and the response not yet kept
    | (none, table) =>
      some { server.withDb (TimeOffService.createRequest clock.request ids actor input server.world.db).2 with
        idempotencyKeys := table }
  | .retry _ id =>
    match AdminController.retry id server.world.db with
    -- reset, and the tick not begun
    | .ok db => some (server.withDb db)
    | .error _ => none
  -- the other handlers commit once at most, so a crash comes before or after them
  | _ => none

/-- The process has died: what was suspended is gone. -/
def restarted (server : Server) : Server := { server with world := { server.world with worker := .idle }, pulls := [] }

/-- The batch of one row that stands for HCM's answer to a pull. -/
def pulledBatch (key : Key) (view : BalanceView) : Batch := ⟨none, none, [⟨key, view.balance, view.asOf⟩]⟩

inductive Event where
  | request (request : ApiRequest)
  | webhook (delivery : WebhookDelivery)
  /-- HCM's answer for the pull of this number arrives. -/
  | pullAnswered (number : Nat) (clock : RowClock) (reply : Reply BalanceView)
  /-- A step of the worker, of its timer or of HCM. -/
  | background (event : TimeOff.Event)
  | crash
  | crashInRequest (request : ApiRequest)
  /-- After `rows` rows of the batch, the snapshot of the next one and `escalations` of its
  escalations. -/
  | crashInWebhook (delivery : WebhookDelivery) (rows escalations : Nat)
  /-- After the snapshot and `escalations` of its escalations. -/
  | crashInPull (number : Nat) (clock : RowClock) (reply : Reply BalanceView) (escalations : Nat)

/-- The steps of the system that no request takes part in. -/
def inBackground : TimeOff.Event → Bool
  | .tick _ | .balanceReply .. | .hcmHandles _ | .consumeReply .. | .settle .. => true
  | .call _ | .crash | .crashInBatch .. => false

/-- Does the event need its turn?  The worker's outbox statement follows its transaction at once. -/
def Event.inTurn : Event → Bool
  | background _ | crash => false
  | request _ | webhook _ | pullAnswered .. | crashInRequest _ | crashInWebhook .. | crashInPull .. => true

def step (server : Server) (event : Event) : Option Server :=
  if event.inTurn ∧ ¬ server.world.worker.yields then none
  else match event with
    | .request request => some (serve host request server).2
    | .webhook delivery => some (deliver host delivery server).2
    | .pullAnswered number clock reply =>
      match server.pulls[number]? with
      | some (key, rest) =>
        let (outcome, db) := ReconciliationService.reconcileKey clock key reply server.world.db
        some { server.withDb db with pulls := advance server.pulls number rest outcome }
      | none => none
    | .background event =>
      if inBackground event then
        (World.step host.outbox server.world event).map fun world => { server with world := world }
      else none
    | .crash => some server.restarted
    | .crashInRequest request =>
      match actorOf host request with
      | .ok actor => (cutShort actor server request.route).map restarted
      | .error _ => none
    | .crashInWebhook delivery rows escalations =>
      match receive host delivery with
      | .ok batch =>
        some (server.withDb (interruptedBatch delivery.clocks batch rows escalations server.world.db)).restarted
      | .error _ => none
    | .crashInPull number clock reply escalations =>
      match server.pulls[number]? with
      | some (key, _) =>
        match HcmClient.getBalance key reply with
        | .ok (some view) =>
          some (server.withDb
            (interruptedBatch (fun _ => clock) (pulledBatch key view) 0 escalations server.world.db)).restarted
        | _ => none
      | none => none

end Server

end TimeOff
