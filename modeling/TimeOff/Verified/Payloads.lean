import TimeOff.Verified.RequestStates

/-! # Requests and the payloads that speak of them

A request keeps the columns that its payload copies, and once it has an
`external_request_id` it keeps that too.  So every payload that was ever
enqueued for a request says what the request says.
-/

set_option autoImplicit false

namespace TimeOff

open TimeOff.Lib TimeOffRepository

/-- The later row still says what the earlier one said. -/
structure RequestRow.Evolves (before after : RequestRow) : Prop where
  payload : after.payload = before.payload
  externalRequestId : ∀ kept, before.externalRequestId = some kept → after.externalRequestId = some kept

theorem RequestRow.Evolves.refl (row : RequestRow) : row.Evolves row := ⟨rfl, fun _ kept => kept⟩

theorem RequestRow.Evolves.trans {first second third : RequestRow} (left : first.Evolves second)
    (right : second.Evolves third) : first.Evolves third :=
  ⟨right.payload.trans left.payload, fun kept same => right.externalRequestId kept (left.externalRequestId kept same)⟩

/-- No request is lost, and each evolves. -/
def Grows (db after : Db) : Prop :=
  ∀ id before, db.requests.find? id = some before →
    ∃ later, after.requests.find? id = some later ∧ before.Evolves later

theorem Grows.refl (db : Db) : Grows db db := fun _ before found => ⟨before, found, .refl before⟩

theorem Grows.congr {db after : Db} (same : after.requests = db.requests) : Grows db after := by
  intro id before found
  exact ⟨before, by rw [same, found], .refl before⟩

theorem Grows.trans {first second third : Db} (left : Grows first second) (right : Grows second third) :
    Grows first third := by
  intro id before found
  obtain ⟨middle, foundMiddle, evolves⟩ := left id before found
  obtain ⟨later, foundLater, evolvesOn⟩ := right id middle foundMiddle
  exact ⟨later, foundLater, evolves.trans evolvesOn⟩

variable {before : RequestRow} {toState : State} {now : Int} {patch : StatePatch} {db after : Db}

theorem Moved.evolves (moved : Moved before toState now patch db after) :
    before.Evolves (patched toState now patch before) := by
  refine ⟨rfl, ?_⟩
  intro kept has
  by_cases approved : toState = .approved
  · obtain ⟨externalRequestId, given, keeps, _⟩ := moved.enqueued approved
    simp [patched, given, keeps kept has]
  · simp [patched, (moved.unqueued approved).1, has]

theorem Moved.grows (moved : Moved before toState now patch db after) : Grows db after := by
  intro id row found
  by_cases own : id = before.id
  · subst own
    cases moved.found.symm.trans found
    exact ⟨_, moved.find?_self, moved.evolves⟩
  · exact ⟨row, by rw [moved.find?_other own, found], .refl row⟩

theorem Filed.grows {row : RequestRow} (filed : Filed row now db after) : Grows db after := by
  intro id other found
  refine ⟨other, ?_, .refl other⟩
  rw [filed.find? id, if_neg, found]
  rintro rfl
  cases filed.fresh.symm.trans found

theorem Effect.grows {results : List SnapshotResult} (effect : Effect db results after) :
    Grows db after := by
  refine effect.preserves ?_ ?_ ?_ ?_ (.refl db)
  · intro row now middle final grows filed
    exact grows.trans filed.grows
  · intro before toState now patch middle final grows moved
    exact grows.trans moved.grows
  · intro snapshot now result middle final grows applied
    exact grows.trans (.congr applied.requests)
  · intro middle final grows requeued
    exact grows.trans (.congr requeued.requests)

/-! ## The key of a request -/

/-- The request of this id is on one of the keys. -/
def Concerns (keys : Key → Prop) (db : Db) (id : String) : Prop :=
  ∃ request ∈ db.requests.find? id, keys request.key

instance (keys : Key → Prop) [DecidablePred keys] (db : Db) (id : String) :
    Decidable (Concerns keys db id) :=
  inferInstanceAs (Decidable (∃ request ∈ db.requests.find? id, _))

variable {keys : Key → Prop}

theorem RequestRow.Evolves.key {before after : RequestRow} (evolves : before.Evolves after) :
    after.key = before.key :=
  congrArg (fun payload => (payload "").key) evolves.payload

theorem RequestRow.Evolves.days {before after : RequestRow} (evolves : before.Evolves after) :
    after.days = before.days :=
  congrArg (fun payload => (payload "").days) evolves.payload

theorem Concerns.grows {id : String} (concerns : Concerns keys db id) (grows : Grows db after) :
    Concerns keys after id := by
  obtain ⟨request, found, onKeys⟩ := concerns
  obtain ⟨later, foundLater, evolves⟩ := grows id request found
  exact ⟨later, foundLater, evolves.key ▸ onKeys⟩

theorem Concerns.earlier {id : String} (concerns : Concerns keys after id) (grows : Grows db after)
    (exists_before : ∃ request, db.requests.find? id = some request) : Concerns keys db id := by
  obtain ⟨request, found⟩ := exists_before
  obtain ⟨later, foundLater, evolves⟩ := grows id request found
  obtain ⟨other, foundOther, onKeys⟩ := concerns
  cases foundLater.symm.trans foundOther
  exact ⟨request, found, evolves.key ▸ onKeys⟩

/-- The listed requests are on the key. -/
theorem concerns_of_listed {key : Key} (holds : keys key) :
    ∀ id ∈ listApprovedIdsForKey key db, Concerns keys db id := by
  intro id listed
  simp only [listApprovedIdsForKey, List.mem_map, List.mem_filter, decide_eq_true_eq] at listed
  obtain ⟨row, ⟨member, same, _⟩, rfl⟩ := listed
  exact ⟨row, Table.find?_eq_some.mpr ⟨member, rfl⟩, by rw [same]; exact holds⟩

/-! ## Payloads -/

/-- The payload is that of the request, under the request's own `external_request_id`. -/
def SpeaksFor (db : Db) (requestId : String) (payload : ConsumePayload) : Prop :=
  ∃ request externalRequestId, db.requests.find? requestId = some request ∧
    request.externalRequestId = some externalRequestId ∧ payload = request.payload externalRequestId

theorem SpeaksFor.grows {requestId : String} {payload : ConsumePayload}
    (speaks : SpeaksFor db requestId payload) (grows : Grows db after) :
    SpeaksFor after requestId payload := by
  obtain ⟨request, externalRequestId, found, has, rfl⟩ := speaks
  obtain ⟨later, foundLater, evolves⟩ := grows requestId request found
  exact ⟨later, externalRequestId, foundLater, evolves.externalRequestId _ has, by rw [evolves.payload]⟩

/-- Outbox payloads speak for their requests, and no two requests share an `external_request_id`. -/
structure Labelled (db : Db) : Prop where
  outbox : ∀ row ∈ db.hcmOutbox.rows, SpeaksFor db row.requestId row.payload
  distinct : ∀ left ∈ db.requests.rows, ∀ right ∈ db.requests.rows, ∀ externalRequestId,
    left.externalRequestId = some externalRequestId →
    right.externalRequestId = some externalRequestId → left.id = right.id

theorem Labelled.filed {row : RequestRow} (labelled : Labelled db) (filed : Filed row now db after) :
    Labelled after := by
  constructor
  · rw [filed.hcmOutbox]
    intro outboxRow member
    exact (labelled.outbox outboxRow member).grows filed.grows
  · intro left leftIn right rightIn externalRequestId leftHas rightHas
    rw [filed.requests, List.mem_append, List.mem_singleton] at leftIn rightIn
    have unsent := filed.unsent
    -- a new request has no id to share
    obtain leftOld | rfl := leftIn
    · obtain rightOld | rfl := rightIn
      · exact labelled.distinct left leftOld right rightOld externalRequestId leftHas rightHas
      · cases unsent.symm.trans rightHas
    · cases unsent.symm.trans leftHas

theorem Labelled.moved (labelled : Labelled db) (moved : Moved before toState now patch db after) :
    Labelled after := by
  have beforeIn := (Table.find?_eq_some.mp moved.found).1
  constructor
  · have old : ∀ row ∈ db.hcmOutbox.rows, SpeaksFor after row.requestId row.payload :=
      fun row member => (labelled.outbox row member).grows moved.grows
    by_cases approved : toState = .approved
    · obtain ⟨externalRequestId, given, keeps, free, enqueued⟩ := moved.enqueued approved
      rw [enqueued, SerialTable.rows_append]
      intro row member
      cases List.mem_append.mp member with
      | inl oldRow => exact old row oldRow
      -- the new row copies the request, which has the id from now on
      | inr new =>
        rw [List.mem_singleton.mp new]
        exact ⟨_, externalRequestId, moved.find?_self, by simp [patched, given], rfl⟩
    · rw [(moved.unqueued approved).2]
      exact old
  · -- a new id was free, so only the request that moved can have it
    have moverOnly : ∀ row ∈ db.requests.rows, row.id ≠ before.id → ∀ externalRequestId,
        (patched toState now patch before).externalRequestId = some externalRequestId →
        row.externalRequestId ≠ some externalRequestId := by
      intro row member other externalRequestId has rowHas
      by_cases approved : toState = .approved
      · obtain ⟨given, patchGives, keeps, free, _⟩ := moved.enqueued approved
        have same : given = externalRequestId := by simpa [patched, patchGives] using has
        subst same
        simp only [externalIdFree, Option.isNone_some, Bool.false_or, List.all_eq_true,
          decide_eq_true_eq] at free
        cases free row member with
        | inl sameId => exact other sameId
        | inr differs => exact differs rowHas
      · have beforeHas : before.externalRequestId = some externalRequestId := by
          simpa [patched, (moved.unqueued approved).1] using has
        exact other (labelled.distinct row member before beforeIn _ rowHas beforeHas)
    intro left leftIn right rightIn externalRequestId leftHas rightHas
    obtain rfl | ⟨leftOld, leftOther⟩ := moved.mem_after leftIn
    · obtain rfl | ⟨rightOld, rightOther⟩ := moved.mem_after rightIn
      · rfl
      · exact absurd rightHas (moverOnly right rightOld rightOther _ leftHas)
    · obtain rfl | ⟨rightOld, rightOther⟩ := moved.mem_after rightIn
      · exact absurd leftHas (moverOnly left leftOld leftOther _ rightHas)
      · exact labelled.distinct left leftOld right rightOld _ leftHas rightHas

theorem Labelled.requeued (labelled : Labelled db) (requeued : Requeued db after) : Labelled after := by
  obtain ⟨hit, change, keeps, keepsWork, rows⟩ := requeued.hcmOutbox
  constructor
  · intro row member
    rw [rows] at member
    obtain ⟨old, oldIn, changed⟩ := SerialTable.exists_of_mem_update member
    have speaks := (labelled.outbox old oldIn).grows (.congr requeued.requests)
    obtain ⟨_, rfl⟩ | ⟨_, rfl⟩ := changed
    · rw [(keepsWork old).1, (keepsWork old).2]
      exact speaks
    · exact speaks
  · rw [requeued.requests]
    exact labelled.distinct

theorem Labelled.snapshotted {snapshot : HcmSnapshot} {result : SnapshotResult} (labelled : Labelled db)
    (applied : Snapshotted snapshot now result db after) : Labelled after := by
  constructor
  · rw [applied.hcmOutbox]
    intro row member
    exact (labelled.outbox row member).grows (.congr applied.requests)
  · rw [applied.requests]
    exact labelled.distinct

theorem Labelled.effect {results : List SnapshotResult} (labelled : Labelled db)
    (effect : Effect db results after) : Labelled after := by
  refine effect.preserves ?_ ?_ ?_ ?_ labelled
  · intro row now db after holds filed
    exact holds.filed filed
  · intro before toState now patch db after holds moved
    exact holds.moved moved
  · intro snapshot now result db after holds applied
    exact holds.snapshotted applied
  · intro db after holds requeued
    exact holds.requeued requeued

theorem Labelled.empty : Labelled Db.empty := ⟨by simp [Db.empty], by simp [Db.empty, Table.empty]⟩

end TimeOff
