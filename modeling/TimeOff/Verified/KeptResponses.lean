import TimeOff.Verified.Permanence
import TimeOff.Verified.ServerRuns

/-! # The responses that are kept

A response is kept under the key that came with its request, and answers the next request under
that key.  While it is kept the tables go on: the state of the request it shows, who decided on it
and what HCM made of it go stale, and the rest stays true.  Whatever happens, the request is there,
was filed as it is shown, and belongs to the actor under whose key it stands; and no two keys show
the same request.
-/

set_option autoImplicit false

namespace TimeOff

open TimeOff.Lib TimeOffService

/-- What is shown is a stored request of the actor, as it was when it was filed. -/
def ShowsOwn (db : Db) (shown : RequestRow) (actorId : Option String) : Prop :=
  ∃ request, db.requests.find? shown.id = some request ∧ request.asFiled = shown ∧
    some request.key.employeeId = actorId

/-- The row keeps the response of a filing of the actor in its scope. -/
structure KeepsFiling (db : Db) (row : IdempotencyRow CreatedRequest) : Prop where
  endpoint : row.scope.endpoint = TimeOffController.createEndpoint
  statusCode : row.statusCode = 201
  expiresAt : row.expiresAt = row.createdAt + IdempotencyService.ttlMs
  shows : ShowsOwn db row.response.row (some row.scope.actorId)

structure KeptResponses (db : Db) (table : Table (IdempotencyRow CreatedRequest)) : Prop where
  filings : ∀ row ∈ table.rows, KeepsFiling db row
  distinct : ∀ left ∈ table.rows, ∀ right ∈ table.rows,
    left.response.row.id = right.response.row.id → left = right

variable {db after : Db} {table later : Table (IdempotencyRow CreatedRequest)}

/-! ## Requests stay -/

/-- A request that was stored is found later, as it was filed. -/
theorem RemembersLedger.find?_request {id : String} {request : RequestRow}
    (remembers : RemembersLedger db after) (found : db.requests.find? id = some request) :
    ∃ later, after.requests.find? id = some later ∧ later.asFiled = request.asFiled := by
  obtain ⟨member, own⟩ := Table.find?_eq_some.mp found
  obtain ⟨later, laterIn, same⟩ :=
    List.mem_map.mp (remembers.requests.subset (List.mem_map_of_mem member))
  have sameId : later.asFiled.id = request.asFiled.id := congrArg RequestRow.id same
  exact ⟨later, Table.find?_eq_some.mpr ⟨laterIn, sameId.trans own⟩, same⟩

theorem ShowsOwn.remembered {shown : RequestRow} {actorId : Option String}
    (shows : ShowsOwn db shown actorId) (remembers : RemembersLedger db after) :
    ShowsOwn after shown actorId := by
  obtain ⟨request, found, asFiled, own⟩ := shows
  obtain ⟨later, foundLater, same⟩ := remembers.find?_request found
  have sameOwner : some later.asFiled.key.employeeId = some request.asFiled.key.employeeId :=
    congrArg (fun row : RequestRow => some row.key.employeeId) same
  exact ⟨later, foundLater, same.trans asFiled, sameOwner.trans own⟩

theorem KeepsFiling.remembered {row : IdempotencyRow CreatedRequest} (keeps : KeepsFiling db row)
    (remembers : RemembersLedger db after) : KeepsFiling after row :=
  ⟨keeps.endpoint, keeps.statusCode, keeps.expiresAt, keeps.shows.remembered remembers⟩

/-- The tables remember and kept responses are dropped. -/
theorem KeptResponses.shrinks (kept : KeptResponses db table) (remembers : RemembersLedger db after)
    (shrinks : ∀ row ∈ later.rows, row ∈ table.rows) : KeptResponses after later where
  filings row member := (kept.filings row (shrinks row member)).remembered remembers
  distinct left leftIn right rightIn := kept.distinct left (shrinks left leftIn) right (shrinks right rightIn)

theorem MovesBy.remembers {host : Host} {kind : Event → Prop} {world moved : World}
    (moves : MovesBy host kind world moved) : Remembers world.db moved.db := by
  induction moves with
  | refl => exact .refl world.db
  | @tail middle next earlier stepped remembers =>
    obtain ⟨event, _, stepped⟩ := stepped
    obtain ⟨calls, same⟩ := (step_calledTo stepped).reached
    rw [same]
    exact remembers.trans (execAll_remembers calls middle.db)

/-! ## What a POST does to the store -/

/-- A POST is answered from the store, fails, or files a request and keeps the response. -/
inductive CreateOutcome (clock : CreateClock) (ids : NewIds) (actor : Actor) (input : CreateInput)
    (store : Store) (outcome : Except Failure CreatedRequest) (after : Store) : Prop
  | replayed (row : IdempotencyRow CreatedRequest) (member : row ∈ store.idempotencyKeys.rows)
      (own : actor.sub = some row.scope.actorId) (same : after = store) (answer : outcome = .ok row.response)
  | failed (failure : Failure)
      (threw : createRequest clock.request ids actor input store.db = (.error failure, after.db))
      (shrinks : ∀ row ∈ after.idempotencyKeys.rows, row ∈ store.idempotencyKeys.rows)
      (answer : outcome = .error failure)
  | filed (created : CreatedRequest) (now : Int) (filed : Filed created.row now store.db after.db)
      (asFiled : created.row.asFiled = created.row) (answer : outcome = .ok created) (key : String) (keptAt : Int)
      (own : some created.row.key.employeeId = actor.sub)
      (keys : ∀ row ∈ after.idempotencyKeys.rows, row ∈ store.idempotencyKeys.rows ∨
        row = ⟨⟨key, TimeOffController.createEndpoint, created.row.key.employeeId⟩, 201, created, keptAt,
          keptAt + IdempotencyService.ttlMs⟩)

theorem lookup_found {now : Int} {key : Option String} {endpoint : String} {actorId : Option String}
    {cached : CachedResponse CreatedRequest} (found :
      IdempotencyService.lookup now key endpoint actorId table = (some cached, later)) :
    later = table ∧ ∃ row ∈ table.rows, actorId = some row.scope.actorId ∧ cached.response = row.response := by
  simp only [IdempotencyService.lookup] at found
  split at found
  next given subject _ =>
    split at found
    · cases found
    next row stored =>
      obtain ⟨member, scope⟩ := Table.find?_eq_some.mp stored
      -- the row is found under the caller's id
      have own : row.scope.actorId = subject := congrArg Scope.actorId scope
      split at found
      · cases found
      · cases found
        exact ⟨rfl, row, member, by rw [own], rfl⟩
  · cases found

theorem lookup_shrinks (now : Int) (key : Option String) (endpoint : String) (actorId : Option String)
    (table : Table (IdempotencyRow CreatedRequest)) :
    ∀ row ∈ (IdempotencyService.lookup now key endpoint actorId table).2.rows, row ∈ table.rows := by
  intro row member
  simp only [IdempotencyService.lookup] at member
  split at member
  · split at member
    · exact member
    · split at member
      · exact (List.mem_filter.mp member).1
      · exact member
  · exact member

theorem store_rows (now : Int) (key : Option String) (endpoint actorId : String) (statusCode : Nat)
    (response : CreatedRequest) : ∃ given, ∀ row ∈
      (IdempotencyService.store now key endpoint (some actorId) statusCode response table).2.rows,
      row ∈ table.rows ∨ row =
        ⟨⟨given, endpoint, actorId⟩, statusCode, response, now, now + IdempotencyService.ttlMs⟩ := by
  simp only [IdempotencyService.store]
  split
  -- without a key nothing is kept, under whatever name
  · exact ⟨"", fun row member => .inl member⟩
  next absent => cases absent
  next given subject _ same =>
    cases same
    refine ⟨given, ?_⟩
    intro row member
    cases List.mem_append.mp member with
    | inl old => exact .inl (List.mem_filter.mp old).1
    | inr new => exact .inr (List.mem_singleton.mp new)

theorem store_ok (now : Int) (key : Option String) (endpoint actorId : String) (statusCode : Nat)
    (response : CreatedRequest) :
    (IdempotencyService.store now key endpoint (some actorId) statusCode response table).1 = .ok () := by
  simp only [IdempotencyService.store]
  split
  · rfl
  next absent => cases absent
  · rfl

theorem createRequest_asFiled {clock : Clock} {ids : NewIds} {actor : Actor} {input : CreateInput}
    {created : CreatedRequest} (ran : createRequest clock ids actor input db = (.ok created, after)) :
    created.row.asFiled = created.row := by
  obtain ⟨days, employeeId, bal, requests, _, _, row, _⟩ := createRequest_inv ran
  rw [row]
  rfl

theorem create_outcome (clock : CreateClock) (ids : NewIds) (actor : Actor) (input : CreateInput)
    (idemKey : Option String) (store : Store) :
    CreateOutcome clock ids actor input store
      (TimeOffController.create clock ids actor input idemKey store).1
      (TimeOffController.create clock ids actor input idemKey store).2 := by
  have shrinks := lookup_shrinks clock.lookup idemKey TimeOffController.createEndpoint actor.sub
    store.idempotencyKeys
  simp only [TimeOffController.create]
  split
  next cached table found =>
    obtain ⟨rfl, row, member, own, response⟩ := lookup_found found
    exact .replayed row member own rfl (by rw [response])
  next table missed =>
    rw [missed] at shrinks
    split
    next failure db threw => exact .failed failure threw shrinks rfl
    next created db ran =>
      -- the request is filed for the caller, who so has a name to keep the response under
      obtain ⟨_, _, employeeId, subject, key⟩ := createRequest_row ran
      have own : some created.row.key.employeeId = actor.sub := by rw [key, subject]
      rw [subject]
      have stores := @store_ok table clock.store idemKey TimeOffController.createEndpoint employeeId 201 created
      obtain ⟨given, rows⟩ :=
        @store_rows table clock.store idemKey TimeOffController.createEndpoint employeeId 201 created
      split
      next failure kept refused =>
        -- `store` refuses only an actor without a name
        rw [refused] at stores
        cases stores
      next kept stored =>
        rw [stored] at rows
        refine .filed created clock.request.now (createRequest_ok ran) (createRequest_asFiled ran) rfl given
          clock.store own ?_
        intro row member
        rw [key]
        exact (rows row member).imp_left (shrinks row)

theorem Filed.showsOwn {row : RequestRow} {now : Int} {actorId : Option String}
    (filed : Filed row now db after) (asFiled : row.asFiled = row)
    (own : some row.key.employeeId = actorId) : ShowsOwn after row actorId :=
  ⟨row, by rw [filed.find?, if_pos rfl], asFiled, own⟩

/-- A response that is kept is not that of a request just filed. -/
theorem KeptResponses.unfiled {row : RequestRow} {now : Int} {keptRow : IdempotencyRow CreatedRequest}
    (kept : KeptResponses db table) (member : keptRow ∈ table.rows) (filed : Filed row now db after) :
    keptRow.response.row.id ≠ row.id := by
  intro same
  obtain ⟨request, found, _⟩ := (kept.filings keptRow member).shows
  cases filed.fresh.symm.trans (same ▸ found)

theorem KeptResponses.create {clock : CreateClock} {ids : NewIds} {actor : Actor} {input : CreateInput}
    {store next : Store} {outcome : Except Failure CreatedRequest}
    (kept : KeptResponses store.db store.idempotencyKeys)
    (created : CreateOutcome clock ids actor input store outcome next) :
    KeptResponses next.db next.idempotencyKeys := by
  cases created with
  | replayed row member own same answer =>
    rw [same]
    exact kept
  | failed failure threw shrinks answer =>
    rw [createRequest_error threw]
    exact kept.shrinks (.refl store.db) shrinks
  | filed created now filed asFiled answer key keptAt own keys =>
    constructor
    case filings =>
      intro row member
      obtain old | rfl := keys row member
      · exact (kept.filings row old).remembered filed.remembers
      · exact ⟨rfl, rfl, rfl, filed.showsOwn asFiled rfl⟩
    case distinct =>
      -- two kept responses are both old, both the new one, or of requests with different ids
      intro left leftIn right rightIn same
      obtain leftOld | leftNew := keys left leftIn
      · obtain rightOld | rightNew := keys right rightIn
        · exact kept.distinct left leftOld right rightOld same
        · rw [rightNew] at same
          exact absurd same (kept.unfiled leftOld filed)
      · obtain rightOld | rightNew := keys right rightIn
        · rw [leftNew] at same
          exact absurd same.symm (kept.unfiled rightOld filed)
        · rw [leftNew, rightNew]

/-! ## Every step of the server -/

variable {host : Host} {server next : Server}

/-- Of all routes, only that of the filing keeps a response. -/
theorem handle_keys (actor : Actor) (server : Server) (route : Route) :
    (server.handle host actor route).2.idempotencyKeys = server.idempotencyKeys ∨
      ∃ clock ids input idemKey, route = .me (.postRequest clock ids input idemKey) := by
  cases route with
  | me call =>
    cases call with
    | postRequest clock ids input idemKey => exact .inr ⟨clock, ids, input, idemKey, rfl⟩
    | getBalances => exact .inl rfl
    | getRequests => exact .inl rfl
    | getRequest id => exact .inl rfl
    | cancelRequest clock id => exact .inl rfl
  | reconcile now body =>
    left
    simp only [Server.handle, Server.withPull]
    split
    · rfl
    · rfl
  | listOutbox status limit =>
    left
    simp only [Server.handle]
    split
    · rfl
    · rfl
  | retry now id =>
    left
    simp only [Server.handle]
    split
    · rfl
    · rfl
  | listForManager => exact .inl rfl
  | approve clock newId id => exact .inl rfl
  | reject clock id reason => exact .inl rfl
  | drain now => exact .inl rfl

def Server.Kept (server : Server) : Prop := KeptResponses server.world.db server.idempotencyKeys

/-- A step that leaves the kept responses alone. -/
theorem Server.Kept.moves {kind : TimeOff.Event → Prop} (kept : server.Kept)
    (moves : MovesBy host kind server.world next.world)
    (same : next.idempotencyKeys = server.idempotencyKeys) : next.Kept := by
  apply KeptResponses.shrinks kept moves.remembers.toRemembersLedger
  rw [same]
  exact fun _ member => member

theorem Server.Kept.serve {request : ApiRequest} (kept : server.Kept)
    (yields : server.world.worker.yields = true) : (Server.serve host request server).2.Kept := by
  have moves := @serve_moves host server request yields
  simp only [Server.serve] at moves ⊢
  split
  · exact kept
  next actor admitted =>
    rw [admitted] at moves
    obtain same | ⟨clock, ids, input, idemKey, ofRoute⟩ := @handle_keys host actor server request.route
    · exact kept.moves moves same
    · rw [ofRoute]
      -- a filing, the one route that keeps a response
      have kept : KeptResponses server.store.db server.store.idempotencyKeys := kept
      exact kept.create (create_outcome clock ids actor input idemKey server.store)

theorem Server.Kept.cutShort {actor : Actor} {route : Route} (kept : server.Kept)
    (cut : Server.cutShort actor server route = some next)
    (moves : MovesBy host (route.Amounts actor) server.world next.world) : next.Kept := by
  cases route with
  | me call =>
    cases call with
    | postRequest clock ids input idemKey =>
      have shrinks := lookup_shrinks clock.lookup idemKey TimeOffController.createEndpoint actor.sub
        server.idempotencyKeys
      simp only [Server.cutShort] at cut
      split at cut
      · cases cut
      next table missed =>
        rw [missed] at shrinks
        cases cut
        -- the request is filed and its response is not kept
        exact KeptResponses.shrinks kept moves.remembers.toRemembersLedger shrinks
    | getBalances => cases cut
    | getRequests => cases cut
    | getRequest id => cases cut
    | cancelRequest clock id => cases cut
  | retry now id =>
    simp only [Server.cutShort] at cut
    split at cut
    · cases cut
      exact kept.moves moves rfl
    · cases cut
  | listForManager => cases cut
  | approve clock newId id => cases cut
  | reject clock id reason => cases cut
  | reconcile now body => cases cut
  | listOutbox status limit => cases cut
  | drain now => cases cut

theorem deliver_keys (delivery : WebhookDelivery) (server : Server) :
    (Server.deliver host delivery server).2.idempotencyKeys = server.idempotencyKeys := by
  simp only [Server.deliver]
  split
  · rfl
  · split
    · rfl
    · rfl

theorem Server.Kept.step {event : Server.Event} (kept : server.Kept)
    (stepped : Server.Stepped host server event next) : next.Kept := by
  have moves := stepped.moves
  cases stepped with
  | request request yields => exact kept.serve yields
  | webhook delivery yields => exact kept.moves moves (deliver_keys delivery server)
  | pullAnswered number clock reply key rest found yields => exact kept.moves moves rfl
  | background own world inBackground ran => exact kept.moves moves rfl
  | crash => exact kept.moves moves rfl
  | crashInRequest request actor cut admitted ran yields =>
    have keptCut : cut.Kept := kept.cutShort ran (@cutShort_moves host server cut actor request.route yields ran)
    exact keptCut
  | crashInWebhook delivery rows escalations batch received yields => exact kept.moves moves rfl
  | crashInPull number clock reply escalations key rest view found answer yields => exact kept.moves moves rfl

theorem Server.kept_throughout (host : Host) (events : List Server.Event) :
    Always (Server.step host) Server.Kept Server.empty events := by
  apply always_of_invariant
  · intro server event next kept stepped
    exact kept.step (Server.step_stepped stepped)
  · exact ⟨by simp [Server.empty, Table.empty], by simp [Server.empty, Table.empty]⟩

/-- What POST answers with 201, filed or replayed, the tables hold for its caller. -/
theorem Server.Kept.answers {clock : CreateClock} {ids : NewIds} {actor : Actor} {input : CreateInput}
    {idemKey : Option String} {created : CreatedRequest} (kept : server.Kept)
    (answered : (MeCall.handle (.postRequest clock ids input idemKey) actor server.store).1 =
      ⟨201, .created created⟩) :
    ShowsOwn (MeCall.handle (.postRequest clock ids input idemKey) actor server.store).2.db
      created.row actor.sub := by
  have outcome := create_outcome clock ids actor input idemKey server.store
  simp only [MeCall.handle] at answered ⊢
  generalize TimeOffController.create clock ids actor input idemKey server.store = result at *
  obtain ⟨reply, after⟩ := result
  cases outcome with
  | replayed row member own same answer =>
    subst same answer
    cases answered
    rw [own]
    exact (kept.filings row member).shows
  | failed failure threw shrinks answer =>
    subst answer
    cases congrArg Response.body answered
  | filed filedRequest now filed asFiled answer key keptAt own keys =>
    subst answer
    cases answered
    exact filed.showsOwn asFiled own

/-- In every state of every run of the server, whatever has crashed, each kept response is the 201 of a
filing and shows a stored request of the actor of its scope as it was filed, and no two keys show the
same request.  So whatever a POST answers with 201, filed just now or kept from an earlier attempt, is a
request of the caller's own, as it was filed. -/
theorem kept_responses_true (host : Host) (events : List Server.Event) :
    Always (Server.step host) (fun server =>
      (∀ row ∈ server.idempotencyKeys.rows, KeepsFiling server.world.db row) ∧
      (∀ left ∈ server.idempotencyKeys.rows, ∀ right ∈ server.idempotencyKeys.rows,
        left.response.row.id = right.response.row.id → left = right) ∧
      ∀ (request : ApiRequest) (actor : Actor) clock ids input idemKey created,
        Server.actorOf host request = .ok actor →
        request.route = .me (.postRequest clock ids input idemKey) →
        (Server.serve host request server).1 = .response ⟨201, .created created⟩ →
        ShowsOwn (Server.serve host request server).2.world.db created.row actor.sub)
      Server.empty events := by
  apply (Server.kept_throughout host events).mono
  intro server kept
  refine ⟨kept.filings, kept.distinct, ?_⟩
  intro request actor clock ids input idemKey created admitted ofRoute answered
  simp only [Server.serve, admitted, ofRoute, Server.handle] at answered ⊢
  exact kept.answers (ServerResponse.response.inj answered)

end TimeOff
