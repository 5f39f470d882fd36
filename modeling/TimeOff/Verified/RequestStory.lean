import TimeOff.Lib.Path
import TimeOff.Lib.Runs
import TimeOff.Verified.AuditTrail
import TimeOff.Verified.RequestStates

/-! # The story of a request

Every state change writes its audit row inside its own transaction, with the
request as it was read and as it was read back.  Under correlation ids that are
used once, the rows of a request therefore are the path that the request took
through the state graph.
-/

set_option autoImplicit false

namespace TimeOff

open TimeOff.Lib AuditService TimeOffService

def AuditRecord.state? : AuditRecord → Option State
  | .request row => some row.state
  | .balance _ => none

/-- The states in the `before` and `after` of the row. -/
def AuditEvent.stateChange (event : AuditEvent) : Option State × Option State :=
  (event.before.bind AuditRecord.state?, event.after.bind AuditRecord.state?)

/-- The audit rows with this correlation id, in the order of their ids. -/
def storyOf (correlationId : String) (db : Db) : List AuditEvent :=
  db.auditEvents.rows.filter fun event => event.correlationId = some correlationId

/-- A request comes into being as PENDING and moves along TRANSITIONS. -/
def Edge : Option State → Option State → Prop
  | none, some state => state = .pending
  | some fromState, some toState => canTransition fromState toState = true
  | _, none => False

/-- The change of the request's state from one database to the other. -/
def stateChange (id : String) (db after : Db) : List (Option State × Option State) :=
  if requestState id after = requestState id db then []
  else [(requestState id db, requestState id after)]

/-- The state changes of the request, call by call. -/
def stateChanges (id : String) : List Call → Db → List (Option State × Option State)
  | [], _ => []
  | call :: rest, db => stateChange id db (call.exec db) ++ stateChanges id rest (call.exec db)

/-- The rows with the correlation id are the state changes of the request, from REQUEST_CREATED to
its current state. -/
structure TellsStory (id correlationId : String) (changes : List (Option State × Option State))
    (db : Db) : Prop where
  rows : (storyOf correlationId db).map AuditEvent.stateChange = changes
  path : Path Edge none changes (requestState id db)
  created : ∃ first rest, storyOf correlationId db = first :: rest ∧ first.action = .requestCreated ∧
    first.stateChange = (none, some .pending)

/-- No two requests, and no snapshot and a request, are logged under one correlation id. -/
def FreshCorrelation (db : Db) : Call → Prop
  | .createRequest _ ids _ _ =>
    ∀ event ∈ db.auditEvents.rows, event.correlationId ≠ some ids.correlationId
  | .applyHcmBalanceSnapshot _ snapshot =>
    ∀ request ∈ db.requests.rows, snapshot.correlationId ≠ some request.correlationId
  | _ => True

instance (db : Db) : DecidablePred (FreshCorrelation db) := by
  intro call
  cases call <;> unfold FreshCorrelation <;> infer_instance

def requestCorrelation (id : String) (db : Db) : Option String :=
  (db.requests.find? id).map RequestRow.correlationId

/-- What a call means to one request: nothing, or one change of state with its row. -/
inductive Chapter (id correlationId : String) (db after : Db) : Prop
  | nothing (state : requestState id after = requestState id db)
      (story : storyOf correlationId after = storyOf correlationId db)
  | change (fromState toState : State) (was : requestState id db = some fromState)
      (became : requestState id after = some toState) (legal : canTransition fromState toState = true)
      (event : AuditEvent) (story : storyOf correlationId after = storyOf correlationId db ++ [event])
      (tells : event.stateChange = (some fromState, some toState))

variable {db after : Db} {id correlationId : String} {entry : AuditEntry}

/-! ## One row -/

theorem Enters.story_own (entered : Enters entry db after) (own : entry.correlationId = some correlationId) :
    ∃ auditNow id, storyOf correlationId after =
      storyOf correlationId db ++ [auditEvent auditNow entry id] := by
  apply entered.selected
  intro auditNow id
  simp [auditEvent, own]

theorem Enters.story_other (entered : Enters entry db after)
    (other : entry.correlationId ≠ some correlationId) :
    storyOf correlationId after = storyOf correlationId db := by
  apply entered.passed_over
  intro auditNow id
  simp [auditEvent, other]

theorem requestCorrelation_congr (same : after.requests = db.requests) (id : String) :
    requestCorrelation id after = requestCorrelation id db := by
  simp only [requestCorrelation, same]

/-- A request has a state exactly if it has a correlation id. -/
theorem requestState_eq_none (unknown : requestCorrelation id db = none) : requestState id db = none := by
  simpa [requestCorrelation, requestState] using unknown

theorem Turned.correlations {before turned : RequestRow} (step : Turned before turned db after)
    (id : String) : requestCorrelation id after = requestCorrelation id db := by
  simp only [requestCorrelation, step.stored id]
  by_cases own : id = before.id
  · rw [if_pos own, own, step.found, Option.map_some, Option.map_some, step.correlationId]
  · rw [if_neg own]

theorem Turned.states {before turned : RequestRow} (step : Turned before turned db after) (id : String) :
    requestState id after = if id = before.id then some turned.state else requestState id db := by
  simp only [requestState, step.stored id]
  split
  · rfl
  · rfl

theorem Turned.was {before turned : RequestRow} (step : Turned before turned db after) :
    requestState before.id db = some before.state := by
  simp only [requestState, step.found, Option.map_some]

/-! ## One call -/

/-- No two requests have one correlation id. -/
def Distinct (db : Db) : Prop :=
  ∀ first second correlationId, requestCorrelation first db = some correlationId →
    requestCorrelation second db = some correlationId → first = second

theorem Distinct.congr (distinct : Distinct db)
    (same : ∀ id, requestCorrelation id after = requestCorrelation id db) : Distinct after := by
  intro first second correlationId
  rw [same, same]
  exact distinct first second correlationId

theorem Turned.chapter {before turned : RequestRow} (step : Turned before turned db after)
    (distinct : Distinct db) (known : requestCorrelation id db = some correlationId) :
    Chapter id correlationId db after := by
  obtain ⟨entry, entered, _, _, entryBefore, entryAfter, correlation⟩ := step.entered
  have beforeKnown : requestCorrelation before.id db = some before.correlationId := by
    simp only [requestCorrelation, step.found, Option.map_some]
  by_cases own : id = before.id
  · subst own
    cases known.symm.trans beforeKnown
    obtain ⟨auditNow, eventId, story⟩ := entered.story_own correlation
    refine .change before.state turned.state step.was ?_ step.legal _ story ?_
    · rw [step.states, if_pos rfl]
    · simp only [AuditEvent.stateChange, auditEvent, entryBefore, entryAfter, Option.bind_some,
        AuditRecord.state?]
  · apply Chapter.nothing
    · rw [step.states, if_neg own]
    · apply entered.story_other
      intro same
      rw [correlation, Option.some.injEq] at same
      rw [same] at beforeKnown
      exact own (distinct id before.id correlationId known beforeKnown)

theorem SnapshotLogged.story {snapshot : HcmSnapshot} {result : SnapshotResult}
    (applied : SnapshotLogged snapshot result db after) (apart : snapshot.correlationId ≠ some correlationId) :
    storyOf correlationId after = storyOf correlationId db := by
  obtain ⟨entry, entered, _, _, _, _, correlation⟩ := applied.entered
  apply entered.story_other
  rw [correlation]
  exact apart

theorem canTransition_irrefl (state : State) : canTransition state state = false := by
  cases state <;> rfl

variable {middle : Db}

theorem Chapter.after_nothing (state : requestState id middle = requestState id db)
    (story : storyOf correlationId middle = storyOf correlationId db)
    (later : Chapter id correlationId middle after) : Chapter id correlationId db after := by
  cases later with
  | nothing stateLater storyLater => exact .nothing (stateLater.trans state) (storyLater.trans story)
  | change fromState toState was became legal event storyLater tells =>
    exact .change fromState toState (state.symm.trans was) became legal event
      (by rw [storyLater, story]) tells

/-- What leaves the state alone adds no row. -/
theorem Chapter.story_same (chapter : Chapter id correlationId db after)
    (same : requestState id after = requestState id db) :
    storyOf correlationId after = storyOf correlationId db := by
  cases chapter with
  | nothing state story => exact story
  | change fromState toState was became legal event story tells =>
    rw [was, became, Option.some.injEq] at same
    rw [same, canTransition_irrefl] at legal
    cases legal

theorem Chapter.then_nothing (first : Chapter id correlationId db middle)
    (state : requestState id after = requestState id middle)
    (story : storyOf correlationId after = storyOf correlationId middle) :
    Chapter id correlationId db after := by
  cases first with
  | nothing stateFirst storyFirst => exact .nothing (state.trans stateFirst) (story.trans storyFirst)
  | change fromState toState was became legal event storyFirst tells =>
    exact .change fromState toState was (state.trans became) legal event (story.trans storyFirst) tells

theorem Escalated.correlations {correlation : Option String} (chain : Escalated correlation db after)
    (id : String) : requestCorrelation id after = requestCorrelation id db := by
  induction chain with
  | done db => rfl
  | snapshotted applied under rest inductionHypothesis =>
    rw [inductionHypothesis, requestCorrelation_congr applied.requests]
  | turned review step rest inductionHypothesis => rw [inductionHypothesis, step.correlations]

/-- Escalations lead into REVIEW_REQUIRED and not out of it. -/
theorem Escalated.states {correlation : Option String} (chain : Escalated correlation db after)
    (id : String) : requestState id after = requestState id db ∨ requestState id db = some .approved := by
  induction chain with
  | done db => exact .inl rfl
  | snapshotted applied under rest inductionHypothesis =>
    rw [requestState_congr applied.requests] at inductionHypothesis
    exact inductionHypothesis
  | @turned before turned db middle after review step rest inductionHypothesis =>
    by_cases own : id = before.id
    · right
      have fromApproved := step.legal
      rw [review] at fromApproved
      rw [own, step.was, canTransition_reviewRequired.mp fromApproved]
    · rw [step.states, if_neg own] at inductionHypothesis
      exact inductionHypothesis

/-- A chain of escalations moves a request at most once. -/
theorem Escalated.chapter {correlation : Option String} (chain : Escalated correlation db after)
    (apart : correlation ≠ some correlationId) (distinct : Distinct db)
    (known : requestCorrelation id db = some correlationId) : Chapter id correlationId db after := by
  induction chain with
  | done db => exact .nothing rfl rfl
  | snapshotted applied under rest inductionHypothesis =>
    have same := requestCorrelation_congr applied.requests
    have later := inductionHypothesis (distinct.congr same) ((same id).trans known)
    exact later.after_nothing (requestState_congr applied.requests id)
      (applied.story (under.symm ▸ apart))
  | @turned before turned db middle after review step rest inductionHypothesis =>
    have first := step.chapter distinct known
    have later := inductionHypothesis (distinct.congr step.correlations) ((step.correlations id).trans known)
    by_cases own : id = before.id
    -- in REVIEW_REQUIRED the request stays where it is for the rest of the chain
    · have reviewed : requestState id middle = some .reviewRequired := by
        rw [step.states, if_pos own, review]
      have same : requestState id after = requestState id middle := by
        cases rest.states id with
        | inl same => exact same
        | inr approved =>
          rw [reviewed] at approved
          cases approved
      exact first.then_nothing same (later.story_same same)
    · have same : requestState id middle = requestState id db := by rw [step.states, if_neg own]
      exact later.after_nothing same (first.story_same same)

theorem Audited.correlations {call : Call} (audited : Audited call db after)
    (id : String) : requestCorrelation id after = requestCorrelation id db := by
  cases audited with
  | unlogged same => exact requestCorrelation_congr same.requests id
  | turned step => exact step.correlations id
  | escalated brings chain => exact chain.correlations id

theorem Audited.chapter {call : Call} (audited : Audited call db after)
    (apart : call.snapshotCorrelation ≠ some correlationId) (distinct : Distinct db)
    (known : requestCorrelation id db = some correlationId) : Chapter id correlationId db after := by
  cases audited with
  | unlogged same =>
    apply Chapter.nothing
    · exact requestState_congr same.requests id
    · simp only [storyOf, same.auditEvents]
  | turned step => exact step.chapter distinct known
  | escalated brings chain => exact chain.chapter apart distinct known

/-! ## Runs -/

/-- Each request's story so far is told, and there is no history of requests that are not filed. -/
structure Narrated (histories : String → List (Option State × Option State)) (db : Db) : Prop where
  distinct : Distinct db
  told : ∀ id correlationId, requestCorrelation id db = some correlationId →
    TellsStory id correlationId (histories id) db
  unfiled : ∀ id, requestCorrelation id db = none → histories id = []

variable {histories : String → List (Option State × Option State)}

theorem Narrated.empty : Narrated (fun _ => []) Db.empty := by
  refine ⟨?_, ?_, fun _ _ => rfl⟩
  · intro first second correlationId known
    cases known
  · intro id correlationId known
    cases known

theorem TellsStory.chapter {changes : List (Option State × Option State)}
    (tells : TellsStory id correlationId changes db) (chapter : Chapter id correlationId db after) :
    TellsStory id correlationId (changes ++ stateChange id db after) after := by
  obtain ⟨rows, path, first, rest, start, action, created⟩ := tells
  cases chapter with
  | nothing state story =>
    simp only [stateChange, state, if_true, List.append_nil]
    refine ⟨by rw [story, rows], by rw [state]; exact path, first, rest, by rw [story, start], action, created⟩
  | change fromState toState was became legal event story tellsChange =>
    have moved : some toState ≠ some fromState := by
      intro same
      cases same
      rw [canTransition_irrefl] at legal
      cases legal
    simp only [stateChange, was, became, moved, if_false]
    refine ⟨?_, ?_, first, rest ++ [event], by rw [story, start, List.cons_append], action, created⟩
    · rw [story, List.map_append, rows, List.map_singleton, tellsChange]
    · rw [was] at path
      rw [became]
      exact path.append (Path.step legal)

/-- The correlation id of a request that is told about occurs in the log. -/
theorem TellsStory.logged {changes : List (Option State × Option State)}
    (tells : TellsStory id correlationId changes db) :
    ∃ event ∈ db.auditEvents.rows, event.correlationId = some correlationId := by
  obtain ⟨first, rest, start, _⟩ := tells.created
  have member : first ∈ storyOf correlationId db := by
    rw [start]
    exact List.mem_cons_self
  obtain ⟨inLog, correlation⟩ := List.mem_filter.mp member
  exact ⟨first, inLog, by simpa using correlation⟩

theorem FilingLogged.correlations {row : RequestRow} (filed : FilingLogged row db after) (id : String) :
    requestCorrelation id after = if row.id = id then some row.correlationId else requestCorrelation id db := by
  simp only [requestCorrelation, filed.stored id]
  split
  · rfl
  · rfl

theorem FilingLogged.states {row : RequestRow} (filed : FilingLogged row db after) (id : String) :
    requestState id after = if row.id = id then some .pending else requestState id db := by
  simp only [requestState, filed.stored id]
  split
  · rw [Option.map_some, filed.state]
  · rfl

theorem FilingLogged.unknown {row : RequestRow} (filed : FilingLogged row db after) :
    requestCorrelation row.id db = none := by
  simp only [requestCorrelation, filed.fresh, Option.map_none]

/-- The story of a new request begins. -/
theorem FilingLogged.begins {row : RequestRow} (filed : FilingLogged row db after)
    (fresh : ∀ event ∈ db.auditEvents.rows, event.correlationId ≠ some row.correlationId) :
    TellsStory row.id row.correlationId (stateChange row.id db after) after := by
  obtain ⟨entry, entered, action, _, _, entryBefore, entryAfter, correlation⟩ := filed.entered
  obtain ⟨auditNow, eventId, story⟩ := entered.story_own correlation
  have none : storyOf row.correlationId db = [] := by
    simpa [storyOf, List.filter_eq_nil_iff] using fresh
  have was : requestState row.id db = Option.none := requestState_eq_none filed.unknown
  have became : requestState row.id after = some .pending := by rw [filed.states, if_pos rfl]
  have created : (auditEvent auditNow entry eventId).stateChange = (Option.none, some .pending) := by
    simp only [AuditEvent.stateChange, auditEvent, entryBefore, entryAfter, Option.bind_some,
      Option.bind_none, AuditRecord.state?, filed.state]
  rw [none, List.nil_append] at story
  simp only [stateChange, was, became, reduceCtorEq, if_false]
  refine ⟨?_, ?_, _, [], story, action, created⟩
  · rw [story, List.map_singleton, created]
  · rw [became]
    exact Path.step rfl

theorem Narrated.filed (narrated : Narrated histories db) {row : RequestRow}
    (filed : FilingLogged row db after)
    (fresh : ∀ event ∈ db.auditEvents.rows, event.correlationId ≠ some row.correlationId) :
    Narrated (fun id => histories id ++ stateChange id db after) after := by
  have others : ∀ id, requestCorrelation id db ≠ some row.correlationId := by
    intro id known
    obtain ⟨event, eventIn, correlation⟩ := (narrated.told id _ known).logged
    exact fresh event eventIn correlation
  refine ⟨?_, ?_, ?_⟩
  · intro first second correlationId
    rw [filed.correlations, filed.correlations]
    split
    next ownFirst =>
      split
      next ownSecond => exact fun _ _ => ownFirst.symm.trans ownSecond
      next =>
        intro same known
        cases same
        exact absurd known (others second)
    next =>
      split
      next ownSecond =>
        intro known same
        cases same
        exact absurd known (others first)
      next => exact narrated.distinct first second correlationId
  · intro id correlationId known
    rw [filed.correlations] at known
    split at known
    next own =>
      subst own
      cases known
      show TellsStory row.id row.correlationId (histories row.id ++ stateChange row.id db after) after
      rw [narrated.unfiled row.id filed.unknown]
      exact filed.begins fresh
    next other =>
      apply (narrated.told id correlationId known).chapter
      obtain ⟨entry, entered, _, _, _, _, _, correlation⟩ := filed.entered
      apply Chapter.nothing
      · rw [filed.states, if_neg other]
      · apply entered.story_other
        rw [correlation]
        intro same
        exact others id (known.trans same.symm)
  · intro id unknown
    rw [filed.correlations] at unknown
    split at unknown
    · cases unknown
    next other =>
      simp [narrated.unfiled id unknown, stateChange, filed.states, other]

theorem Narrated.step (narrated : Narrated histories db) {call : Call} (fresh : FreshCorrelation db call) :
    Narrated (fun id => histories id ++ stateChange id db (call.exec db)) (call.exec db) := by
  obtain ⟨clock, ids, actor, input, row, rfl, _, correlation, filed⟩ | audited := call.audited db
  · apply narrated.filed filed
    rw [correlation]
    exact fresh
  · have apart : ∀ id correlationId, requestCorrelation id db = some correlationId →
        call.snapshotCorrelation ≠ some correlationId := by
      intro id correlationId known
      cases call with
      | applyHcmBalanceSnapshot clock snapshot =>
        obtain ⟨request, found, rfl⟩ := Option.map_eq_some_iff.mp known
        exact fresh request (Table.find?_eq_some.mp found).1
      | _ =>
        intro same
        cases same
    refine ⟨narrated.distinct.congr audited.correlations, ?_, ?_⟩
    · intro id correlationId known
      rw [audited.correlations] at known
      exact (narrated.told id correlationId known).chapter
        (audited.chapter (apart id correlationId known) narrated.distinct known)
    · intro id unknown
      have stillUnknown := unknown
      rw [audited.correlations] at stillUnknown
      simp [narrated.unfiled id stillUnknown, stateChange, requestState_eq_none unknown,
        requestState_eq_none stillUnknown]

theorem Narrated.run (calls : List Call) (narrated : Narrated histories db)
    (fresh : StepsMeet callStep FreshCorrelation db calls) :
    Narrated (fun id => histories id ++ stateChanges id calls db) (execAll calls db) := by
  induction calls generalizing db histories with
  | nil => simpa [stateChanges, execAll] using narrated
  | cons call rest inductionHypothesis =>
    have later := inductionHypothesis (narrated.step fresh.1) (fresh.2 _ rfl)
    simpa [stateChanges, execAll, List.append_assoc] using later

theorem run_callStep (calls : List Call) (db : Db) : run callStep db calls = some (execAll calls db) := by
  induction calls generalizing db with
  | nil => rfl
  | cons call rest inductionHypothesis => exact inductionHypothesis (call.exec db)

theorem execAll_append (earlier later : List Call) (db : Db) :
    execAll (earlier ++ later) db = execAll later (execAll earlier db) := by
  simp only [execAll, List.foldl_append]

/-- Once its story is told, a request in a state without a way out stays there. -/
theorem Narrated.stays (narrated : Narrated histories db) {later : List Call}
    (fresh : StepsMeet callStep FreshCorrelation db later) {state : State}
    (terminal : transitions state = []) (ended : requestState id db = some state) :
    requestState id (execAll later db) = some state := by
  have known : ∃ correlationId, requestCorrelation id db = some correlationId := by
    obtain ⟨request, found, _⟩ := requestState_eq_some.mp ended
    exact ⟨request.correlationId, by simp only [requestCorrelation, found, Option.map_some]⟩
  obtain ⟨correlationId, known⟩ := known
  have path := (narrated.told id correlationId known).path
  have whole := narrated.run later fresh
  cases knownAfter : requestCorrelation id (execAll later db) with
  | none =>
    -- requests are not deleted: the history would be empty
    obtain ⟨empty, _⟩ := List.append_eq_nil_iff.mp (whole.unfiled id knownAfter)
    rw [empty, ended] at path
    cases path
  | some laterId =>
    rw [← ended]
    apply (path.rest (whole.told id laterId knownAfter).path).stays
    intro after along
    rw [ended] at along
    cases after with
    | none => cases along
    | some toState =>
      simp only [Edge, canTransition, terminal, List.contains_nil, Bool.false_eq_true] at along

/-- In every run with fresh correlation ids, the audit rows of each request are its state changes, one
row for each, along the state graph from REQUEST_CREATED to its current state; and a request that is
CONSUMED, REJECTED or CANCELLED stays so. -/
theorem audit_tells_story (calls : List Call)
    (fresh : StepsMeet callStep FreshCorrelation Db.empty calls) :
    (∀ request ∈ (execAll calls Db.empty).requests.rows,
      TellsStory request.id request.correlationId (stateChanges request.id calls Db.empty)
        (execAll calls Db.empty)) ∧
    ∀ earlier later id state, calls = earlier ++ later → transitions state = [] →
      requestState id (execAll earlier Db.empty) = some state →
        requestState id (execAll calls Db.empty) = some state := by
  constructor
  · intro request stored
    have found : (execAll calls Db.empty).requests.find? request.id = some request :=
      Table.find?_eq_some.mpr ⟨stored, rfl⟩
    apply (Narrated.empty.run calls fresh).told request.id request.correlationId
    simp only [requestCorrelation, found, Option.map_some]
  · intro earlier later id state split terminal ended
    subst split
    obtain ⟨freshEarlier, freshLater⟩ := stepsMeet_append.mp fresh
    rw [execAll_append]
    exact (Narrated.empty.run earlier freshEarlier).stays
      (freshLater _ (run_callStep earlier Db.empty)) terminal ended

namespace Office

/-- A request is approved, sent to review by a snapshot of four days, and rejected. -/
def reviewed : List Call :=
  [snapshot 10 0, file "r1", approve "r1" "x1", snapshot 4 1, .reject clock manager "r1" none]

end Office

theorem audit_tells_story_office :
    (∀ request ∈ (execAll Office.reviewed Db.empty).requests.rows,
      TellsStory request.id request.correlationId (stateChanges request.id Office.reviewed Db.empty)
        (execAll Office.reviewed Db.empty)) ∧
    requestState "r1" (execAll Office.reviewed Db.empty) = some .rejected := by
  have fresh : StepsMeet callStep FreshCorrelation Db.empty Office.reviewed := by decide +kernel
  exact ⟨(audit_tells_story Office.reviewed fresh).1, by decide +kernel⟩

end TimeOff
