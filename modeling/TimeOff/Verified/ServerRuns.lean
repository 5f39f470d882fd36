import TimeOff.Lib.Simulation
import TimeOff.System.Server
import TimeOff.Verified.Privacy

/-! # The server runs the system

Every step of the server amounts to steps of the system beneath: an admitted request to the call
of its handler, a verified webhook to its batch, an answered pull to its `reconcileKey`.  What
holds in every run of the system so holds behind the HTTP interface.
-/

set_option autoImplicit false

namespace TimeOff

open TimeOff.Lib

variable {host : Host} {server next : Server}

/-! ## What a step amounts to -/

/-- The steps of the system that the handler of the route amounts to. -/
def Route.Amounts (actor : Actor) : Route → Event → Prop
  | .me (.postRequest clock ids input _), event =>
    event = .call (.createRequest clock.request ids actor input)
  | .me (.cancelRequest clock id), event => event = .call (.cancel clock actor id)
  | .approve clock newId id, event => event = .call (.approve clock newId actor id)
  | .reject clock id reason, event => event = .call (.reject clock actor id reason)
  | .retry now _, event => (∃ row, event = .call (.resetToPending row)) ∨ event = .tick now
  | .drain now, event => event = .tick now
  | _, _ => False

/-- The steps of the system that a step of the server amounts to. -/
def Server.Amounts (host : Host) (server : Server) : Server.Event → TimeOff.Event → Prop
  | .request request, event =>
    ∃ actor, Server.actorOf host request = .ok actor ∧ request.route.Amounts actor event
  | .webhook delivery, event =>
    ∃ batch, Server.receive host delivery = .ok batch ∧ event = .call (.handleBatch delivery.clocks batch)
  | .pullAnswered number clock reply, event =>
    ∃ key rest, server.pulls[number]? = some (key, rest) ∧ event = .call (.reconcileKey clock key reply)
  | .background own, event => event = own ∧ Server.inBackground own = true
  | .crash, event => event = .crash
  | .crashInRequest request, event =>
    event = .crash ∨ ∃ actor, Server.actorOf host request = .ok actor ∧ request.route.Amounts actor event
  | .crashInWebhook delivery rows escalations, event =>
    ∃ batch, Server.receive host delivery = .ok batch ∧
      event = .crashInBatch delivery.clocks batch rows escalations
  | .crashInPull number clock reply escalations, event =>
    ∃ key rest view, server.pulls[number]? = some (key, rest) ∧
      HcmClient.getBalance key reply = .ok (some view) ∧
      event = .crashInBatch (fun _ => clock) (Server.pulledBatch key view) 0 escalations

/-- The world moved by steps of the given kind. -/
abbrev MovesBy (host : Host) (kind : Event → Prop) : World → World → Prop :=
  RunsBy (World.step host.outbox) fun _ => kind

variable {kind : Event → Prop} {world after : World}

/-- A call of a route runs while the worker waits. -/
theorem MovesBy.called {call : Call} {db : Db} (yields : world.worker.yields = true)
    (offered : call.offered = true) (ran : call.exec world.db = db) (ofKind : kind (.call call)) :
    MovesBy host kind world { world with db := db } := by
  apply RunsBy.once _ ofKind
  simp only [World.step, yields, offered, ran]
  rfl

theorem MovesBy.restarted (moves : MovesBy host kind server.world next.world) (crash : kind .crash) :
    MovesBy host kind server.world next.restarted.world :=
  moves.trans (RunsBy.once rfl crash)

/-! ## The handlers -/

/-- Of the routes of an employee, filing and cancelling change the tables, each by its one call. -/
theorem MeCall.handle_db (call : MeCall) (actor : Actor) (store : Store) :
    (call.handle actor store).2.db = store.db ∨ ∃ made : Call, made.offered = true ∧
      made.exec store.db = (call.handle actor store).2.db ∧ (Route.me call).Amounts actor (.call made) := by
  cases call with
  | getBalances => exact .inl rfl
  | getRequests => exact .inl rfl
  | getRequest id => exact .inl rfl
  | cancelRequest clock id => exact .inr ⟨.cancel clock actor id, rfl, rfl, rfl⟩
  | postRequest clock ids input idemKey =>
    obtain same | created := create_db clock ids actor input idemKey store
    · exact .inl same
    · exact .inr ⟨.createRequest clock.request ids actor input, rfl, created.symm, rfl⟩

/-- A tick starts, or finds the last one still draining. -/
theorem startTick_moves (now : Int) (yields : server.world.worker.yields = true) (ofKind : kind (.tick now)) :
    MovesBy host kind server.world (server.startTick host now).world := by
  -- a tick has no guard but that the worker waits
  have ticks : ∃ after, World.step host.outbox server.world (.tick now) = some after := by
    simp only [World.step]
    split
    · exact ⟨_, rfl⟩
    next settling =>
      rw [settling] at yields
      cases yields
    · exact ⟨_, rfl⟩
  obtain ⟨after, stepped⟩ := ticks
  simp only [Server.startTick, stepped, Option.getD_some]
  exact .once stepped ofKind

theorem retry_moves {id : String} {db : Db} (yields : server.world.worker.yields = true)
    (ran : AdminController.retry id server.world.db = .ok db)
    (ofKind : ∀ row, kind (.call (.resetToPending row))) :
    MovesBy host kind server.world (server.withDb db).world := by
  simp only [AdminController.retry] at ran
  cases found : AdminController.rowId id with
  | error failure =>
    rw [found] at ran
    cases ran
  | ok row =>
    rw [found] at ran
    cases ran
    cases row with
    | none => exact .stay _
    | some row => exact .called yields rfl rfl (ofKind row)

theorem handle_moves (actor : Actor) (route : Route) (yields : server.world.worker.yields = true) :
    MovesBy host (route.Amounts actor) server.world (server.handle host actor route).2.world := by
  cases route with
  | me call =>
    obtain same | ⟨made, offered, ran, amounts⟩ := call.handle_db actor server.store
    · have unchanged : (server.handle host actor (.me call)).2.world = server.world := by
        show { server.world with db := (call.handle actor server.store).2.db } = server.world
        rw [same]
        rfl
      rw [unchanged]
    · exact .called yields offered ran amounts
  | listForManager => exact .stay _
  | approve clock newId id => exact .called yields rfl rfl rfl
  | reject clock id reason => exact .called yields rfl rfl rfl
  | reconcile now body =>
    simp only [Server.handle, Server.withPull]
    split
    · exact .stay _
    · exact .stay _
  | listOutbox status limit =>
    simp only [Server.handle]
    split
    · exact .stay _
    · exact .stay _
  | retry now id =>
    simp only [Server.handle]
    split
    next db ran =>
      apply (retry_moves yields ran fun row => .inl ⟨row, rfl⟩).trans
      exact startTick_moves now yields (.inr rfl)
    next => exact .stay _
  | drain now => exact startTick_moves now yields rfl

theorem serve_moves (request : ApiRequest) (yields : server.world.worker.yields = true) :
    MovesBy host (Server.Amounts host server (.request request)) server.world
      (Server.serve host request server).2.world := by
  simp only [Server.serve]
  split
  · exact .stay _
  next actor admitted =>
    exact (handle_moves actor request.route yields).mono fun _ _ amounts => ⟨actor, admitted, amounts⟩

theorem deliver_moves (delivery : WebhookDelivery) (yields : server.world.worker.yields = true) :
    MovesBy host (Server.Amounts host server (.webhook delivery)) server.world
      (Server.deliver host delivery server).2.world := by
  simp only [Server.deliver]
  split
  · exact .stay _
  next batch received =>
    have amounts : Server.Amounts host server (.webhook delivery)
        (.call (.handleBatch delivery.clocks batch)) := ⟨batch, received, rfl⟩
    have handled : MovesBy host (Server.Amounts host server (.webhook delivery)) server.world _ :=
      .called yields rfl rfl amounts
    -- the handler gives the tables of the batch, whether it returned or threw
    simp only [Call.exec] at handled
    split
    next result db ran => rwa [ran] at handled
    next failure db ran => rwa [ran] at handled

theorem cutShort_moves (actor : Actor) (route : Route) (yields : server.world.worker.yields = true)
    (cut : Server.cutShort actor server route = some next) :
    MovesBy host (route.Amounts actor) server.world next.world := by
  cases route with
  | me call =>
    cases call with
    | postRequest clock ids input idemKey =>
      simp only [Server.cutShort] at cut
      split at cut
      · cases cut
      · cases cut
        have amounts : (Route.me (.postRequest clock ids input idemKey)).Amounts actor
            (.call (.createRequest clock.request ids actor input)) := rfl
        exact .called yields rfl rfl amounts
    | getBalances => cases cut
    | getRequests => cases cut
    | getRequest id => cases cut
    | cancelRequest clock id => cases cut
  | retry now id =>
    simp only [Server.cutShort] at cut
    split at cut
    next ran =>
      cases cut
      exact retry_moves yields ran fun row => .inl ⟨row, rfl⟩
    next => cases cut
  | listForManager => cases cut
  | approve clock newId id => cases cut
  | reject clock id reason => cases cut
  | reconcile now body => cases cut
  | listOutbox status limit => cases cut
  | drain now => cases cut

/-! ## Steps and runs -/

/-- Everything that a step of the server can do. -/
inductive Server.Stepped (host : Host) (server : Server) : Server.Event → Server → Prop
  | request (request : ApiRequest) (yields : server.world.worker.yields = true) :
      Stepped host server (.request request) (serve host request server).2
  | webhook (delivery : WebhookDelivery) (yields : server.world.worker.yields = true) :
      Stepped host server (.webhook delivery) (deliver host delivery server).2
  | pullAnswered (number : Nat) (clock : RowClock) (reply : Reply BalanceView) (key : Key) (rest : List Key)
      (found : server.pulls[number]? = some (key, rest)) (yields : server.world.worker.yields = true) :
      Stepped host server (.pullAnswered number clock reply)
        { server.withDb (ReconciliationService.reconcileKey clock key reply server.world.db).2 with
          pulls := advance server.pulls number rest
            (ReconciliationService.reconcileKey clock key reply server.world.db).1 }
  | background (event : TimeOff.Event) (world : World) (inBackground : Server.inBackground event = true)
      (ran : World.step host.outbox server.world event = some world) :
      Stepped host server (.background event) { server with world := world }
  | crash : Stepped host server .crash server.restarted
  | crashInRequest (request : ApiRequest) (actor : Actor) (cut : Server)
      (admitted : actorOf host request = .ok actor) (ran : cutShort actor server request.route = some cut)
      (yields : server.world.worker.yields = true) :
      Stepped host server (.crashInRequest request) cut.restarted
  | crashInWebhook (delivery : WebhookDelivery) (rows escalations : Nat) (batch : Batch)
      (received : receive host delivery = .ok batch) (yields : server.world.worker.yields = true) :
      Stepped host server (.crashInWebhook delivery rows escalations)
        (server.withDb (interruptedBatch delivery.clocks batch rows escalations server.world.db)).restarted
  | crashInPull (number : Nat) (clock : RowClock) (reply : Reply BalanceView) (escalations : Nat) (key : Key)
      (rest : List Key) (view : BalanceView) (found : server.pulls[number]? = some (key, rest))
      (answer : HcmClient.getBalance key reply = .ok (some view))
      (yields : server.world.worker.yields = true) :
      Stepped host server (.crashInPull number clock reply escalations)
        (server.withDb
          (interruptedBatch (fun _ => clock) (pulledBatch key view) 0 escalations server.world.db)).restarted

theorem Server.step_stepped {event : Server.Event} (stepped : Server.step host server event = some next) :
    Server.Stepped host server event next := by
  simp only [Server.step] at stepped
  split at stepped
  · cases stepped
  next turn =>
    -- an event that needs its turn happens while the worker waits
    have yields : event.inTurn = true → server.world.worker.yields = true :=
      fun inTurn => not_not.mp fun waits => turn ⟨inTurn, waits⟩
    cases event with
    | request request =>
      cases stepped
      exact .request request (yields rfl)
    | webhook delivery =>
      cases stepped
      exact .webhook delivery (yields rfl)
    | pullAnswered number clock reply =>
      dsimp only at stepped
      split at stepped
      next key rest found =>
        cases stepped
        exact .pullAnswered number clock reply key rest found (yields rfl)
      next => cases stepped
    | background own =>
      dsimp only at stepped
      split at stepped
      next inBackground =>
        obtain ⟨world, ran, rfl⟩ := Option.map_eq_some_iff.mp stepped
        exact .background own world inBackground ran
      next => cases stepped
    | crash =>
      cases stepped
      exact .crash
    | crashInRequest request =>
      dsimp only at stepped
      split at stepped
      next actor admitted =>
        obtain ⟨cut, ran, rfl⟩ := Option.map_eq_some_iff.mp stepped
        exact .crashInRequest request actor cut admitted ran (yields rfl)
      next => cases stepped
    | crashInWebhook delivery rows escalations =>
      dsimp only at stepped
      split at stepped
      next batch received =>
        cases stepped
        exact .crashInWebhook delivery rows escalations batch received (yields rfl)
      next => cases stepped
    | crashInPull number clock reply escalations =>
      dsimp only at stepped
      split at stepped
      next key rest found =>
        split at stepped
        next view answer =>
          cases stepped
          exact .crashInPull number clock reply escalations key rest view found answer (yields rfl)
        next => cases stepped
      next => cases stepped

/-- A crash in the middle of a batch is a step of the system. -/
theorem crashInBatch_moves {clocks : Nat → RowClock} {batch : Batch} {rows escalations : Nat}
    (yields : server.world.worker.yields = true)
    (ofKind : kind (.crashInBatch clocks batch rows escalations)) :
    MovesBy host kind server.world
      (server.withDb (interruptedBatch clocks batch rows escalations server.world.db)).restarted.world := by
  apply RunsBy.once _ ofKind
  simp only [World.step, yields]
  rfl

theorem Server.Stepped.moves {event : Server.Event} (stepped : Server.Stepped host server event next) :
    MovesBy host (Server.Amounts host server event) server.world next.world := by
  cases stepped with
  | request request yields => exact serve_moves request yields
  | webhook delivery yields => exact deliver_moves delivery yields
  | pullAnswered number clock reply key rest found yields =>
    have amounts : Server.Amounts host server (.pullAnswered number clock reply)
        (.call (.reconcileKey clock key reply)) := ⟨key, rest, found, rfl⟩
    exact .called yields rfl rfl amounts
  | background own world inBackground ran => exact .once ran ⟨rfl, inBackground⟩
  | crash => exact .once rfl rfl
  | crashInRequest request actor cut admitted ran yields =>
    apply MovesBy.restarted _ (.inl rfl)
    exact (cutShort_moves actor request.route yields ran).mono fun _ _ amounts => .inr ⟨actor, admitted, amounts⟩
  | crashInWebhook delivery rows escalations batch received yields =>
    exact crashInBatch_moves yields ⟨batch, received, rfl⟩
  | crashInPull number clock reply escalations key rest view found answer yields =>
    exact crashInBatch_moves yields ⟨key, rest, view, found, answer, rfl⟩

/-- The server with what it hides: the system beneath it. -/
theorem server_simulates (host : Host) :
    Simulates (Server.step host) (World.step host.outbox) (fun _ _ => True)
      (fun server world => server.world = world) := by
  rintro server world event next rfl _ stepped
  obtain ⟨events, ran⟩ := (Server.step_stepped stepped).moves.run
  exact ⟨events, next.world, ran, rfl⟩

/-- What holds throughout every run of the system holds throughout every run of the server. -/
theorem server_always (host : Host) {property : World → Prop}
    (kept : ∀ events, Always (World.step host.outbox) property World.empty events)
    (events : List Server.Event) :
    Always (Server.step host) (fun server => property server.world) Server.empty events := by
  apply ((server_simulates host).transfer rfl kept (stepsMeet_of_forall (fun _ _ => trivial) _ events)).mono
  rintro server ⟨_, rfl, holds⟩
  exact holds

end TimeOff
