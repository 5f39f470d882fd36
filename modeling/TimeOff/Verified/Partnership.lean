import TimeOff.Lib.Simulation
import TimeOff.System.Partnership
import TimeOff.Verified.MockHcm

/-! # The closed system refines the open one

The system whose runs are verified leaves HCM open: any answer may come, and days are taken
under an id that is new.  Beside the HCM of the tests every run of the service is such a
run: HCM has recorded exactly the ids for which the open system took days.
-/

set_option autoImplicit false

namespace TimeOff

open TimeOff.Lib HcmClient HcmOutboxService HcmOutboxWorker

/-! ## The ids are never empty -/

/-- No request has the empty id, which HCM would not remember. -/
def Named (db : Db) : Prop := ∀ row ∈ db.requests.rows, row.externalRequestId ≠ some ""

variable {db after : Db} {config : OutboxConfig} {world next : World} {event : Event}

theorem Named.congr (named : Named db) (same : after.requests = db.requests) : Named after := by
  rw [Named, same]
  exact named

theorem Named.moved {before : RequestRow} {toState : State} {now : Int} {patch : StatePatch}
    (named : Named db) (moved : Moved before toState now patch db after)
    (given : patch.externalRequestId ≠ some "") : Named after := by
  intro row member
  rw [moved.requests] at member
  obtain ⟨old, oldIn, rfl⟩ := List.mem_map.mp member
  unfold patchRow
  split
  · simp only [TimeOffRepository.patched]
    cases patched : patch.externalRequestId with
    | none => exact named old oldIn
    | some id =>
      rw [patched] at given
      exact given
  · exact named old oldIn

theorem Named.moved_unapproved {before : RequestRow} {toState : State} {now : Int} {patch : StatePatch}
    (named : Named db) (moved : Moved before toState now patch db after) (unapproved : toState ≠ .approved) :
    Named after := by
  apply named.moved moved
  rw [(moved.unqueued unapproved).1]
  simp

theorem Named.healed {results : List SnapshotResult} (named : Named db) (healed : Healed db results after) :
    Named after := by
  induction healed with
  | done db => exact named
  | snapshotted applied rest inductionHypothesis => exact inductionHypothesis (named.congr applied.requests)
  | escalated moved rest inductionHypothesis =>
    exact inductionHypothesis (named.moved_unapproved moved (by simp))

theorem Named.reaction {row : ClaimedRow} {toState : State} {settlement : Settlement} (named : Named db)
    (reaction : Reaction row db toState settlement after) (unapproved : toState ≠ .approved) : Named after := by
  cases reaction with
  | moved before now patch final found state moved => exact named.moved_unapproved moved unapproved
  | already state => exact named
  | elsewhere settlement ends different elsewhere => exact named

theorem Named.call {call : Call} (named : Named db) (offered : call.offered = true)
    (generated : Partnership.generated call = true) : Named (call.exec db) := by
  cases call with
  | approve clock newId actor requestId =>
    refine transaction_rule (fun _ after => Named after) ?_ fun _ _ => named
    intro _ after ran
    obtain ⟨before, found, _, moved⟩ := approve_ok (transaction_ok.mpr ran)
    apply named.moved moved
    -- the request keeps the id it has, or is given the new one
    simp only [approvalPatch, ne_eq, Option.some.injEq]
    cases has : before.externalRequestId with
    | none => exact isExternalRequestId_ne generated
    | some kept =>
      intro empty
      apply named before (Table.find?_eq_some.mp found).1
      rw [has]
      exact congrArg some empty
  | createRequest clock ids actor input =>
    simp only [Call.exec]
    cases ran : TimeOffService.createRequest clock ids actor input db with
    | mk outcome after =>
      cases outcome with
      | ok created =>
        have filed := createRequest_ok ran
        rw [Named, filed.requests, List.forall_mem_append]
        refine ⟨named, List.forall_mem_singleton.mpr ?_⟩
        rw [filed.unsent]
        simp
      | error failure =>
        rw [createRequest_error ran]
        exact named
  | reject clock actor requestId reason =>
    refine transaction_rule (fun _ after => Named after) ?_ fun _ _ => named
    intro _ after ran
    obtain ⟨_, _, _, moved⟩ := reject_ok (transaction_ok.mpr ran)
    exact named.moved_unapproved moved (by simp)
  | cancel clock actor requestId =>
    refine transaction_rule (fun _ after => Named after) ?_ fun _ _ => named
    intro _ after ran
    obtain ⟨_, _, _, moved⟩ := cancel_ok (transaction_ok.mpr ran)
    exact named.moved_unapproved moved (by simp)
  | handleBatch clocks batch => exact named.healed (handleBatch_healed clocks batch db)
  | reconcileKey clock key reply => exact named.healed (reconcileKey_healed clock key reply db)
  | resetToPending id => exact named
  | _ => cases offered

/-- An approval comes with an id that the service has generated. -/
def GeneratedIds : Event → Prop
  | .call call => Partnership.generated call = true
  | _ => True

theorem Named.stepped (named : Named world.db) (stepped : Stepped config world event next)
    (generated : GeneratedIds event) : Named next.db := by
  -- an approval is the only step that gives a request an id
  cases stepped with
  | call call yields offered => exact named.call offered generated
  | reviews clock reply row rest balance settlement final at_await insufficient reaction =>
    exact named.reaction reaction (by simp)
  | accepted clock reply body row rest settlement final at_await answer reaction =>
    exact named.reaction reaction (by simp)
  | refused clock reply failure row rest settlement final at_await answer permanent reaction =>
    exact named.reaction reaction (by simp)
  | retries now random row rest message at_end =>
    exact named.congr (scheduleRetry_requests config now random row.id message world.db)
  | crashInBatch clocks batch rows escalations yields =>
    obtain ⟨_, healed⟩ := interruptedBatch_healed clocks batch rows escalations world.db
    exact named.healed healed
  | claimed | draining | sends | repeated | debits | lost | done | crash => exact named

/-! ## What is known of the open system -/

/-- The payloads on their way speak for requests, exactly, and under ids that are not empty. -/
structure SpokenFor (world : World) : Prop where
  accounted : Accounted world
  counted : CountedDays world.db
  named : Named world.db

theorem SpokenFor.empty : SpokenFor World.empty :=
  ⟨.empty, by simp [CountedDays, World.empty, Db.empty, Table.empty],
    by simp [Named, World.empty, Db.empty, Table.empty]⟩

theorem SpokenFor.step (spokenFor : SpokenFor world) (stepped : World.step config world event = some next)
    (generated : GeneratedIds event) : SpokenFor next := by
  have described := step_stepped stepped
  refine ⟨spokenFor.accounted.step described, ?_, spokenFor.named.stepped described generated⟩
  obtain ⟨calls, reached⟩ := (step_calledTo stepped).reached
  rw [reached]
  exact execAll_invariant (fun call _ holds => holds.exec call) calls spokenFor.counted

theorem SpokenFor.speaks (spokenFor : SpokenFor world) {requestId : String} {payload : ConsumePayload}
    (speaks : SpeaksFor world.db requestId payload) : payload.Writable ∧ payload.externalRequestId ≠ "" := by
  refine ⟨(speaks.writable spokenFor.counted).2, ?_⟩
  obtain ⟨request, externalRequestId, found, has, rfl⟩ := speaks
  -- the id is that of a request
  rintro empty
  apply spokenFor.named request (Table.find?_eq_some.mp found).1
  rw [has]
  exact congrArg some empty

/-! ## The relation of the two systems -/

variable {scripts : ScriptedFailure → Prop} {p : Partnership}

/-- Some script reports success although no days are taken. -/
def Lies (scripts : ScriptedFailure → Prop) : Prop := ∃ failure, scripts failure ∧ failure.outcome.ok = true

/-- The open system that the closed one stands for, where HR writes scripts of one kind only. -/
structure Represents (scripts : ScriptedFailure → Prop) (p : Partnership) (world : World) : Prop where
  db : world.db = p.db
  worker : world.worker = p.worker
  sent : p.sent = world.sent.map fun call => consumeBalanceCall call.row.payload
  recorded : ∀ id, p.hcm.recorded id = world.debited id
  spokenFor : SpokenFor world
  planned : ∀ failure ∈ p.hcm.failurePlan, scripts failure
  /-- The worker awaits the answer to its last call. -/
  awaited : ∀ row rest, world.worker = .awaitConsume row rest →
    ∃ earlier call, world.sent = earlier ++ [call] ∧ call.row = row
  answered : ∀ answer ∈ p.answers, answer.2.ok = true → Lies scripts ∨
    ∃ call, world.sent[answer.1]? = some call ∧ p.hcm.recorded call.row.payload.externalRequestId = true
  acknowledged : ∀ row ∈ world.acknowledged, Lies scripts ∨
    p.hcm.recorded row.payload.externalRequestId = true

/-- HR writes only such scripts. -/
def ScriptsOnly (scripts : ScriptedFailure → Prop) : Partnership.Event → Prop
  | .scheduleFailures plan => ∀ failure ∈ plan, scripts failure
  | _ => True

/-- A step of the service that leaves HCM, the calls and the answers alone. -/
theorem Represents.serviceStep {db : Db} {worker : WorkerState} {balanceAnswer : Option FetchOutcome}
    (represents : Represents scripts p world) {event : Event}
    (stepped : World.step config world event = some { world with db := db, worker := worker })
    (generated : GeneratedIds event)
    (awaits : ∀ row rest, worker = .awaitConsume row rest → p.worker = .awaitConsume row rest) :
    Represents scripts { p with db := db, worker := worker, balanceAnswer := balanceAnswer }
      { world with db := db, worker := worker } where
  db := rfl
  worker := rfl
  sent := represents.sent
  recorded := represents.recorded
  spokenFor := represents.spokenFor.step stepped generated
  planned := represents.planned
  awaited row rest awaiting := represents.awaited row rest (represents.worker.trans (awaits row rest awaiting))
  answered := represents.answered
  acknowledged := represents.acknowledged

/-- HCM changes, and neither its accounts nor the service does. -/
theorem Represents.hcmStep {hcm : MockHcmState} {balanceAnswer : Option FetchOutcome}
    (represents : Represents scripts p world) (same : hcm.idempotency = p.hcm.idempotency)
    (planned : ∀ failure ∈ hcm.failurePlan, scripts failure) :
    Represents scripts { p with hcm := hcm, balanceAnswer := balanceAnswer } world where
  db := represents.db
  worker := represents.worker
  sent := represents.sent
  recorded id := by
    rw [← represents.recorded id]
    exact recorded_congr same id
  spokenFor := represents.spokenFor
  planned := planned
  awaited := represents.awaited
  answered answer member answeredOk := by
    simp only [recorded_congr same]
    exact represents.answered answer member answeredOk
  acknowledged row member := by
    simp only [recorded_congr same]
    exact represents.acknowledged row member

/-! ## The worker's awaits -/

theorem Represents.afterBalance {row : ClaimedRow} {rest : List ClaimedRow}
    (represents : Represents scripts p world) (awaits : p.worker = .awaitBalance row rest) (clock : Clock)
    (reply : Reply BalanceView) : ∃ next, World.step config world (.balanceReply clock reply) = some next ∧
      Represents scripts (p.afterBalance clock row rest reply) next := by
  have worker := represents.worker.trans awaits
  unfold Partnership.afterBalance
  cases ran : onBalance clock row reply p.db with
  | mk outcome db =>
    have ranWorld := ran
    rw [← represents.db] at ranWorld
    cases outcome with
    | some settlement =>
      have stepped : World.step config world (.balanceReply clock reply) =
          some { world with db := db, worker := .settling row rest settlement } := by
        simp only [World.step, worker, ranWorld]
      refine ⟨_, stepped, represents.serviceStep stepped trivial ?_⟩
      intro other others awaiting
      cases awaiting
    | none =>
      have stepped : World.step config world (.balanceReply clock reply) =
          some { world with db := db, worker := .awaitConsume row rest
                            sent := world.sent ++ [world.consume row] } := by
        simp only [World.step, worker, ranWorld]
      -- the call is sent, and is the last one of both systems
      refine ⟨_, stepped, ?_⟩
      constructor
      case db => rfl
      case worker => rfl
      case sent =>
        rw [List.map_append, ← represents.sent]
        rfl
      case recorded => exact represents.recorded
      case spokenFor => exact represents.spokenFor.step stepped trivial
      case planned => exact represents.planned
      case awaited =>
        intro other others awaiting
        cases awaiting
        exact ⟨world.sent, world.consume row, rfl, rfl⟩
      case answered =>
        intro answer member answeredOk
        obtain lies | ⟨call, found, recorded⟩ := represents.answered answer member answeredOk
        · exact .inl lies
        · obtain ⟨inside, _⟩ := List.getElem?_eq_some_iff.mp found
          exact .inr ⟨call, (List.getElem?_append_left inside).trans found, recorded⟩
      case acknowledged => exact represents.acknowledged

/-- A status in the 200s is what the client takes for success. -/
theorem ok_of_accepted {outcome : FetchOutcome} {body : Option Unit}
    (accepted : consumeBalance outcome.consumeReply = .ok body) : outcome.ok = true := by
  cases outcome with
  | networkError message => cases accepted
  | response status text =>
    simp only [consumeBalance, FetchOutcome.consumeReply, FetchOutcome.reply, received, request] at accepted
    split at accepted
    next success => simpa [FetchOutcome.ok] using success
    next =>
      split at accepted
      · cases accepted
      · cases accepted

/-- A success that the worker hears answers its last call, which is that of the row at hand. -/
theorem Represents.heard (represents : Represents scripts p world) {row : ClaimedRow}
    {rest : List ClaimedRow} {place number : Nat} {outcome : FetchOutcome}
    (awaits : p.worker = .awaitConsume row rest) (at_place : p.answers[place]? = some (number, outcome))
    (last : number + 1 = p.sent.length) {body : Option Unit}
    (accepted : consumeBalance outcome.consumeReply = .ok body) :
    Lies scripts ∨ p.hcm.recorded row.payload.externalRequestId = true := by
  obtain lies | ⟨call, found, known⟩ := represents.answered (number, outcome)
    (List.mem_of_getElem? at_place) (ok_of_accepted accepted)
  · exact .inl lies
  · right
    obtain ⟨earlier, lastCall, sent, own⟩ := represents.awaited row rest (represents.worker.trans awaits)
    rw [represents.sent, List.length_map, sent, List.length_append, List.length_singleton] at last
    -- the answer is to the last call, and that is the one of the row at hand
    have same : number = earlier.length := by omega
    rw [sent, same, List.getElem?_concat_length] at found
    cases found
    rwa [own] at known

theorem Represents.afterConsume {row : ClaimedRow} {rest : List ClaimedRow}
    (represents : Represents scripts p world) (awaits : p.worker = .awaitConsume row rest) (clock : Clock)
    (reply : Reply Unit) (heard : ∀ body, consumeBalance reply = .ok body →
      Lies scripts ∨ p.hcm.recorded row.payload.externalRequestId = true) :
    ∃ next, World.step config world (.consumeReply clock reply) = some next ∧
      Represents scripts (p.afterConsume clock row rest reply) next := by
  have worker := represents.worker.trans awaits
  have stepped := show World.step config world (.consumeReply clock reply) = _ by
    simp only [World.step, worker]
    rfl
  refine ⟨_, stepped, ?_⟩
  constructor
  case db => rw [represents.db]; rfl
  case worker => rw [represents.db]; rfl
  case sent => exact represents.sent
  case recorded => exact represents.recorded
  case spokenFor => exact represents.spokenFor.step stepped trivial
  case planned => exact represents.planned
  case awaited =>
    intro other others awaiting
    cases awaiting
  case answered => exact represents.answered
  case acknowledged =>
    intro other member
    dsimp only at member
    cases answer : consumeBalance reply with
    | error failure =>
      rw [answer] at member
      exact represents.acknowledged other member
    | ok body =>
      rw [answer] at member
      cases List.mem_append.mp member with
      | inl old => exact represents.acknowledged other old
      | inr new =>
        rw [List.mem_singleton.mp new]
        exact heard body answer

/-- The open system goes on to a state that is represented. -/
def Followed (config : OutboxConfig) (scripts : ScriptedFailure → Prop) (world : World) (next : Partnership) :
    Prop :=
  ∃ events after, run (World.step config) world events = some after ∧ Represents scripts next after

/-- What the open system does not see it follows by staying where it is. -/
theorem Represents.unseen {next : Partnership} (represents : Represents scripts next world) :
    Followed config scripts world next :=
  ⟨[], world, run_nil world, represents⟩

/-! ## HCM handles a call -/

/-- HCM answers a call, and records no id but that of the call. -/
theorem Represents.answer {number : Nat} {call : Consume} {outcome : FetchOutcome} {hcm : MockHcmState}
    (debits : List Consume) (represents : Represents scripts p world) (found : world.sent[number]? = some call)
    (spokenFor : SpokenFor { world with debits := debits })
    (recorded : ∀ id, hcm.recorded id = ({ world with debits := debits } : World).debited id)
    (grows : ∀ id, p.hcm.recorded id = true → hcm.recorded id = true)
    (planned : ∀ failure ∈ hcm.failurePlan, scripts failure)
    (heard : outcome.ok = true → Lies scripts ∨ hcm.recorded call.row.payload.externalRequestId = true) :
    Represents scripts { p with hcm := hcm, answers := p.answers ++ [(number, outcome)] }
      { world with debits := debits } where
  db := represents.db
  worker := represents.worker
  sent := represents.sent
  recorded := recorded
  spokenFor := spokenFor
  planned := planned
  awaited := represents.awaited
  answered := by
    rw [List.forall_mem_append, List.forall_mem_singleton]
    constructor
    · intro answer member answeredOk
      obtain lies | ⟨earlier, foundEarlier, known⟩ := represents.answered answer member answeredOk
      · exact .inl lies
      · exact .inr ⟨earlier, foundEarlier, grows _ known⟩
    · intro answeredOk
      obtain lies | known := heard answeredOk
      · exact .inl lies
      · exact .inr ⟨call, found, known⟩
  acknowledged row member := by
    obtain lies | known := represents.acknowledged row member
    · exact .inl lies
    · exact .inr (grows _ known)

theorem Represents.hcmHandles {number : Nat} {text : HttpCall} (represents : Represents scripts p world)
    (sent : p.sent[number]? = some text) (now : Int) :
    Followed config scripts world { p with
      hcm := (p.hcm.fetch now text).2
      answers := p.answers ++ [(number, (p.hcm.fetch now text).1)] } := by
  rw [represents.sent, List.getElem?_map, Option.map_eq_some_iff] at sent
  obtain ⟨call, found, rfl⟩ := sent
  have member : call ∈ world.sent := List.mem_of_getElem? found
  obtain ⟨writable, named⟩ := represents.spokenFor.speaks (represents.spokenFor.accounted.sent call member)
  have planned : ∀ failure ∈ (p.hcm.fetch now (consumeBalanceCall call.row.payload)).2.failurePlan,
      scripts failure :=
    fun failure planned => represents.planned failure (fetch_plan now _ p.hcm failure planned)
  -- without a debit the open system stays where it is
  have unmoved : ∀ outcome hcm, hcm.idempotency = p.hcm.idempotency →
      (∀ failure ∈ hcm.failurePlan, scripts failure) →
      (outcome.ok = true → Lies scripts ∨ p.hcm.recorded call.row.payload.externalRequestId = true) →
      Followed config scripts world { p with hcm := hcm, answers := p.answers ++ [(number, outcome)] } := by
    intro outcome hcm same planned heard
    apply Represents.unseen
    refine represents.answer world.debits found represents.spokenFor ?_ ?_ planned ?_
    · intro id
      rw [recorded_congr same]
      exact represents.recorded id
    · intro id known
      rwa [recorded_congr same]
    · rwa [recorded_congr same]
  have handled := fetch_consume writable named now p.hcm
  generalize p.hcm.fetch now (consumeBalanceCall call.row.payload) = answered at handled planned ⊢
  obtain ⟨outcome, hcm⟩ := answered
  dsimp only at handled planned ⊢
  cases handled with
  | scripted failure _ inPlan same =>
    apply unmoved _ _ same.idempotency planned
    exact fun success => .inl ⟨failure, represents.planned failure inPlan, success⟩
  | repeated _ _ known same =>
    apply unmoved _ _ same.idempotency planned
    exact fun _ => .inr known
  | refused _ _ short answer same =>
    apply unmoved _ _ same.idempotency planned
    intro success
    cases answer.symm.trans success
  | taken _ _ at_ unknown covered balances idempotency =>
    -- the open system takes the days of the call too
    have undebited : world.debited call.row.payload.externalRequestId = false := by
      rw [← represents.recorded]
      exact unknown
    have stepped : World.step config world (.hcmHandles number) =
        some { world with debits := world.debits ++ [call] } := by
      simp only [World.step, found, undebited]
      rfl
    have recorded := recorded_update idempotency
    refine ⟨[.hcmHandles number], _, run_singleton stepped, represents.answer _ found ?_ ?_ ?_ planned ?_⟩
    · exact represents.spokenFor.step stepped trivial
    · intro id
      rw [recorded, represents.recorded]
      simp [World.debited, Bool.or_comm]
    · intro id known
      rw [recorded, known, Bool.or_true]
    · intro _
      right
      rw [recorded]
      simp

/-! ## Every step is matched -/

/-- One step of the service alone is one step of the open system. -/
theorem Represents.served (event : Event) {db : Db} {worker : WorkerState} {balanceAnswer : Option FetchOutcome}
    (represents : Represents scripts p world)
    (stepped : World.step config world event = some { world with db := db, worker := worker })
    (generated : GeneratedIds event)
    (awaits : ∀ row rest, worker = .awaitConsume row rest → p.worker = .awaitConsume row rest) :
    Followed config scripts world { p with db := db, worker := worker, balanceAnswer := balanceAnswer } :=
  ⟨[event], _, run_singleton stepped, represents.serviceStep stepped generated awaits⟩

theorem awaits_proceed {rows rest : List ClaimedRow} {row : ClaimedRow} :
    proceed rows ≠ .awaitConsume row rest := by
  cases rows <;> exact nofun

section Steps

variable {next : Partnership} (represents : Represents scripts p world)

include represents

theorem Represents.followsCall {call : Call} (stepped : Partnership.step config p (.call call) = some next) :
    Followed config scripts world next := by
  simp only [Partnership.step] at stepped
  split at stepped
  next enabled =>
    obtain ⟨yields, offered, generated⟩ := enabled
    cases stepped
    apply represents.served (.call call)
    · simp only [World.step, represents.worker, yields, offered, represents.db]
      simp [← represents.worker]
    · exact generated
    · exact fun _ _ awaiting => awaiting
  next => cases stepped

theorem Represents.followsTick {now : Int} (stepped : Partnership.step config p (.tick now) = some next) :
    Followed config scripts world next := by
  simp only [Partnership.step] at stepped
  split at stepped
  next idle =>
    cases stepped
    apply represents.served (.tick now)
    · simp only [World.step, represents.worker, idle, represents.db]
    · trivial
    · exact fun _ _ awaiting => absurd awaiting awaits_proceed
  next => cases stepped
  -- a tick that finds the last one still draining does nothing
  next notIdle notSettling =>
    cases stepped
    exact represents.unseen

theorem Represents.followsHcmReads {now : Int} (stepped : Partnership.step config p (.hcmReads now) = some next) :
    Followed config scripts world next := by
  simp only [Partnership.step] at stepped
  split at stepped
  next row rest _ =>
    cases stepped
    apply Represents.unseen
    apply represents.hcmStep (fetch_getBalance now row.payload.key p.hcm).idempotency
    exact fun failure planned => represents.planned failure (fetch_plan now _ p.hcm failure planned)
  next => cases stepped

theorem Represents.followsBalanceArrives {clock : Clock}
    (stepped : Partnership.step config p (.balanceArrives clock) = some next) :
    Followed config scripts world next := by
  simp only [Partnership.step] at stepped
  split at stepped
  next row rest outcome awaiting _ =>
    cases stepped
    obtain ⟨after, matched, representsNext⟩ := represents.afterBalance awaiting clock outcome.balanceReply
    exact ⟨[_], after, run_singleton matched, representsNext⟩
  next => cases stepped

theorem Represents.followsBalanceLost {clock : Clock} {message : String}
    (stepped : Partnership.step config p (.balanceLost clock message) = some next) :
    Followed config scripts world next := by
  simp only [Partnership.step] at stepped
  split at stepped
  next row rest awaiting =>
    cases stepped
    obtain ⟨after, matched, representsNext⟩ := represents.afterBalance awaiting clock (.networkError message)
    exact ⟨[_], after, run_singleton matched, representsNext⟩
  next => cases stepped

theorem Represents.followsHcmHandles {number : Nat} {now : Int}
    (stepped : Partnership.step config p (.hcmHandles number now) = some next) :
    Followed config scripts world next := by
  simp only [Partnership.step] at stepped
  split at stepped
  next text sent =>
    cases stepped
    exact represents.hcmHandles sent now
  next => cases stepped

theorem Represents.followsAnswerArrives {clock : Clock} {place : Nat}
    (stepped : Partnership.step config p (.answerArrives clock place) = some next) :
    Followed config scripts world next := by
  simp only [Partnership.step] at stepped
  split at stepped
  next row rest number outcome awaiting at_place =>
    split at stepped
    next last =>
      cases stepped
      obtain ⟨after, matched, representsNext⟩ := represents.afterConsume awaiting clock _
        fun _ accepted => represents.heard awaiting at_place last accepted
      exact ⟨[_], after, run_singleton matched, representsNext⟩
    next => cases stepped
  next => cases stepped

theorem Represents.followsAnswerLost {clock : Clock} {message : String}
    (stepped : Partnership.step config p (.answerLost clock message) = some next) :
    Followed config scripts world next := by
  simp only [Partnership.step] at stepped
  split at stepped
  next row rest awaiting =>
    cases stepped
    obtain ⟨after, matched, representsNext⟩ :=
      represents.afterConsume awaiting clock (.networkError message) fun _ accepted => by cases accepted
    exact ⟨[_], after, run_singleton matched, representsNext⟩
  next => cases stepped

theorem Represents.followsSettle {now : Int} {random : ℚ}
    (stepped : Partnership.step config p (.settle now random) = some next) :
    Followed config scripts world next := by
  simp only [Partnership.step] at stepped
  split at stepped
  next row rest settlement settling =>
    cases stepped
    apply represents.served (.settle now random)
    · simp only [World.step, represents.worker, settling, represents.db]
    · trivial
    · intro other others awaiting
      cases settlement with
      | done escaping =>
        cases escaping with
        | none => exact absurd awaiting awaits_proceed
        | some failure => cases awaiting
      | retry message => exact absurd awaiting awaits_proceed
  next => cases stepped

theorem Represents.followsCrash (stepped : Partnership.step config p .crash = some next) :
    Followed config scripts world next := by
  cases stepped
  apply represents.served .crash
  · simp only [World.step, represents.db]
  · trivial
  · intro other others awaiting
    cases awaiting

theorem Represents.followsCrashInBatch {clocks : Nat → RowClock} {batch : Batch} {rows escalations : Nat}
    (stepped : Partnership.step config p (.crashInBatch clocks batch rows escalations) = some next) :
    Followed config scripts world next := by
  simp only [Partnership.step] at stepped
  split at stepped
  next yields =>
    cases stepped
    apply represents.served (.crashInBatch clocks batch rows escalations)
    · simp only [World.step, represents.worker, yields, represents.db]
      simp
    · trivial
    · intro other others awaiting
      cases awaiting
  next => cases stepped

theorem Represents.followsSetBalance {employeeId locationId leaveType : String} {balance : ℚ} {asOf : Int}
    (stepped : Partnership.step config p (.setBalance employeeId locationId leaveType balance asOf) = some next) :
    Followed config scripts world next := by
  cases stepped
  apply Represents.unseen
  exact represents.hcmStep rfl represents.planned

theorem Represents.followsScheduleFailures {plan : List ScriptedFailure} (only : ∀ failure ∈ plan, scripts failure)
    (stepped : Partnership.step config p (.scheduleFailures plan) = some next) :
    Followed config scripts world next := by
  cases stepped
  apply Represents.unseen
  have planned : ∀ failure ∈ p.hcm.failurePlan ++ plan, scripts failure :=
    List.forall_mem_append.mpr ⟨represents.planned, only⟩
  exact represents.hcmStep rfl planned

end Steps

theorem partnership_simulates (config : OutboxConfig) (scripts : ScriptedFailure → Prop) :
    Simulates (Partnership.step config) (World.step config) (fun _ event => ScriptsOnly scripts event)
      (Represents scripts) := by
  intro p world event next represents only stepped
  cases event with
  | call call => exact represents.followsCall stepped
  | tick now => exact represents.followsTick stepped
  | hcmReads now => exact represents.followsHcmReads stepped
  | balanceArrives clock => exact represents.followsBalanceArrives stepped
  | balanceLost clock message => exact represents.followsBalanceLost stepped
  | hcmHandles number now => exact represents.followsHcmHandles stepped
  | answerArrives clock place => exact represents.followsAnswerArrives stepped
  | answerLost clock message => exact represents.followsAnswerLost stepped
  | settle now random => exact represents.followsSettle stepped
  | crash => exact represents.followsCrash stepped
  | crashInBatch clocks batch rows escalations => exact represents.followsCrashInBatch stepped
  | setBalance employeeId locationId leaveType balance asOf => exact represents.followsSetBalance stepped
  | scheduleFailures plan => exact represents.followsScheduleFailures only stepped

/-! ## What the closed system inherits -/

theorem Represents.start (scripts : ScriptedFailure → Prop) (balances : String → Option MockBalance)
    {plan : List ScriptedFailure} (planned : ∀ failure ∈ plan, scripts failure) :
    Represents scripts (Partnership.start balances plan) World.empty where
  db := rfl
  worker := rfl
  sent := rfl
  recorded _ := rfl
  spokenFor := .empty
  planned := planned
  awaited := nofun
  answered := nofun
  acknowledged := nofun

theorem scriptsOnly_any (event : Partnership.Event) : ScriptsOnly (fun _ => True) event := by
  cases event with
  | scheduleFailures plan => exact fun _ _ => trivial
  | _ => trivial

/-- Whatever the service and its HCM do together, the open system can do, with the same tables, the
same place in the tick and the same calls, and with debits for just the ids that HCM has recorded. -/
theorem partnership_refines (config : OutboxConfig) (balances : String → Option MockBalance)
    (plan : List ScriptedFailure) (events : List Partnership.Event) :
    Always (Partnership.step config) (fun p => ∃ openEvents world,
      run (World.step config) World.empty openEvents = some world ∧
      world.db = p.db ∧ world.worker = p.worker ∧
      p.sent = world.sent.map (fun call => consumeBalanceCall call.row.payload) ∧
      ∀ id, p.hcm.recorded id = world.debited id) (Partnership.start balances plan) events := by
  refine ((partnership_simulates config fun _ => True).always (.start _ balances fun _ _ => trivial)
    (stepsMeet_of_events _ fun event _ => scriptsOnly_any event)).mono ?_
  rintro p ⟨openEvents, world, ran, represents⟩
  exact ⟨openEvents, world, ran, represents.db, represents.worker, represents.sent, represents.recorded⟩

/-- As long as no script reports a success, a request is CONSUMED only once HCM has taken its days. -/
theorem consumed_recorded (config : OutboxConfig) (balances : String → Option MockBalance)
    (plan : List ScriptedFailure) (events : List Partnership.Event)
    (honestPlan : ∀ failure ∈ plan, failure.outcome.ok = false)
    (honest : ∀ event ∈ events, ScriptsOnly (fun failure => failure.outcome.ok = false) event) :
    Always (Partnership.step config) (fun p => ∀ request ∈ p.db.requests.rows, request.state = .consumed →
      ∃ id ∈ request.externalRequestId, p.hcm.recorded id = true) (Partnership.start balances plan) events := by
  refine ((partnership_simulates config _).always (.start _ balances honestPlan)
    (stepsMeet_of_events _ honest)).mono ?_
  rintro p ⟨openEvents, world, ran, represents⟩ request member consumed
  rw [← represents.db] at member
  have found : world.db.requests.find? request.id = some request := Table.find?_eq_some.mpr ⟨member, rfl⟩
  have accounted := represents.spokenFor.accounted
  obtain ⟨row, acknowledged, own⟩ :=
    accounted.consumed request.id (requestState_eq_some.mpr ⟨request, found, consumed⟩)
  obtain ⟨has, -⟩ := (accounted.acknowledged row acknowledged).ownPayload member own
  obtain ⟨failure, honestFailure, success⟩ | recorded := represents.acknowledged row acknowledged
  · cases honestFailure.symm.trans success
  · exact ⟨_, has, recorded⟩

namespace Office

/-- HCM has ten days of the employee. -/
def tenDays : String → Option MockBalance := fun k => if k = mockKey key then some ⟨10, 0⟩ else none

/-- The ten days are filed, approved and taken. -/
def taken : List Partnership.Event :=
  [.call (snapshot 10 0), .call (file "r1"), .call (approve "r1" "ext_1"), .tick 0, .hcmReads 1,
    .balanceArrives clock, .hcmHandles 0 2, .answerArrives clock 0, .settle 3 0]

end Office

open Office in
theorem consumed_recorded_office :
    ((run (Partnership.step Office.config) (Partnership.start tenDays []) taken).map fun p =>
      (p.db.requests.rows.map RequestRow.state, p.hcm.balanceOf (mockKey key))) = some ([.consumed], 0) ∧
    Always (Partnership.step Office.config) (fun p => ∀ request ∈ p.db.requests.rows, request.state = .consumed →
      ∃ id ∈ request.externalRequestId, p.hcm.recorded id = true) (Partnership.start tenDays []) taken := by
  refine ⟨by decide +kernel, consumed_recorded Office.config tenDays [] taken nofun ?_⟩
  simp [taken, ScriptsOnly]

end TimeOff
