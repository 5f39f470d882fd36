import TimeOff.Verified.RequestStates

/-! # Who decides a request

A request stores the manager that the token of its filer named, and no later
operation changes that column.  Whoever approves or rejects is an admin, or
manages and is that manager; a request whose filer's token named no manager is
open to everyone who manages.
-/

set_option autoImplicit false

namespace TimeOff

open TimeOff.Lib TimeOffRepository TimeOffService

/-- The call filed the request, for the employee and with the manager of the caller's token. -/
def Call.Files : Call → RequestRow → Prop
  | .createRequest _ ids actor _, request =>
    ids.requestId = request.id ∧ actor.sub = some request.key.employeeId ∧
      actor.managerId = request.managerId
  | _, _ => False

/-- The actor's approve or reject of the request goes through. -/
def DecidedBy (actor : Actor) (requestId : String) (db : Db) : Prop :=
  (∃ clock newExternalRequestId after,
    (approve clock newExternalRequestId actor requestId db).1 = .ok after) ∨
  ∃ clock reason after, (reject clock actor requestId reason db).1 = .ok after

theorem DecidedBy.decides {actor : Actor} {requestId : String} {db : Db}
    (decided : DecidedBy actor requestId db) :
    ∃ request, db.requests.find? requestId = some request ∧ Decides actor request := by
  cases decided with
  | inl approved =>
    obtain ⟨clock, newId, after, outcome⟩ := approved
    obtain ⟨request, found, decides, _⟩ := approve_ok (Prod.ext outcome rfl)
    exact ⟨request, found, decides⟩
  | inr rejected =>
    obtain ⟨clock, reason, after, outcome⟩ := rejected
    obtain ⟨request, found, decides, _⟩ := reject_ok (Prod.ext outcome rfl)
    exact ⟨request, found, decides⟩

/-! ## The manager that a request stores -/

theorem Moved.origin {before : RequestRow} {toState : State} {now : Int} {patch : StatePatch}
    {db after : Db} (moved : Moved before toState now patch db after) {request : RequestRow}
    (member : request ∈ after.requests.rows) :
    ∃ earlier ∈ db.requests.rows, earlier.id = request.id ∧ earlier.key = request.key ∧
      earlier.managerId = request.managerId := by
  cases moved.mem_after member with
  | inl changed =>
    subst changed
    exact ⟨before, (Table.find?_eq_some.mp moved.found).1, rfl, rfl, rfl⟩
  | inr kept => exact ⟨request, kept.1, rfl, rfl, rfl⟩

/-- A call that files nothing keeps every request's employee and manager. -/
theorem Change.origin {db after : Db} {results : List SnapshotResult} (change : Change db results after)
    {request : RequestRow} (member : request ∈ after.requests.rows) :
    ∃ earlier ∈ db.requests.rows, earlier.id = request.id ∧ earlier.key = request.key ∧
      earlier.managerId = request.managerId := by
  cases change with
  | moved moved => exact moved.origin member
  | requeued requeued =>
    rw [requeued.requests] at member
    exact ⟨request, member, rfl, rfl, rfl⟩
  | healed healed =>
    induction healed with
    | done db => exact ⟨request, member, rfl, rfl, rfl⟩
    | snapshotted applied rest inductionHypothesis =>
      rw [← applied.requests]
      exact inductionHypothesis member
    | escalated moved rest inductionHypothesis =>
      obtain ⟨middle, middleIn, sameId, sameKey, sameManager⟩ := inductionHypothesis member
      obtain ⟨earlier, earlierIn, id, key, manager⟩ := moved.origin middleIn
      exact ⟨earlier, earlierIn, id.trans sameId, key.trans sameKey, manager.trans sameManager⟩

/-- Every request was filed by one of the calls, or was there before them. -/
theorem execAll_origin (calls : List Call) {db : Db} {request : RequestRow}
    (member : request ∈ (execAll calls db).requests.rows) :
    (∃ call ∈ calls, call.Files request) ∨
    ∃ earlier ∈ db.requests.rows, earlier.id = request.id ∧ earlier.key = request.key ∧
      earlier.managerId = request.managerId := by
  induction calls generalizing db with
  | nil => exact .inr ⟨request, member, rfl, rfl, rfl⟩
  | cons call rest inductionHypothesis =>
    change request ∈ (execAll rest (call.exec db)).requests.rows at member
    cases inductionHypothesis member with
    | inl filedLater =>
      obtain ⟨filing, filingIn, files⟩ := filedLater
      exact .inl ⟨filing, List.mem_cons_of_mem _ filingIn, files⟩
    | inr there =>
      obtain ⟨middle, middleIn, sameId, sameKey, sameManager⟩ := there
      obtain ⟨clock, ids, actor, input, created, rfl, ran⟩ | change := call.change db
      · rw [(createRequest_ok ran).requests, List.mem_append, List.mem_singleton] at middleIn
        cases middleIn with
        | inl old => exact .inr ⟨middle, old, sameId, sameKey, sameManager⟩
        | inr new =>
          subst new
          obtain ⟨id, manager, employeeId, employee, key⟩ := createRequest_row ran
          left
          refine ⟨_, List.mem_cons_self, id.symm.trans sameId, ?_, manager.symm.trans sameManager⟩
          rw [employee, ← sameKey, key]
      · obtain ⟨earlier, earlierIn, id, key, manager⟩ := change.origin middleIn
        exact .inr ⟨earlier, earlierIn, id.trans sameId, key.trans sameKey, manager.trans sameManager⟩

/-! ## Decisions in every run -/

/-- In every run, whoever approves or rejects a request is an admin, or has the manager role and is
the manager that the token of the request's filer named, if it named one. -/
theorem decided_by_manager (earlier : List Call) (actor : Actor) (requestId : String)
    (decided : DecidedBy actor requestId (execAll earlier Db.empty)) :
    ∃ request, (execAll earlier Db.empty).requests.find? requestId = some request ∧
      (∃ call ∈ earlier, call.Files request) ∧
      (actor.roles.contains "admin" = true ∨
        actor.roles.contains "manager" = true ∧
          (request.managerId = actor.sub ∨ request.managerId = none ∨ request.managerId = some "")) := by
  obtain ⟨request, found, decides⟩ := decided.decides
  refine ⟨request, found, ?_, ?_⟩
  · cases execAll_origin earlier (Table.find?_eq_some.mp found).1 with
    | inl filed => exact filed
    | inr there =>
      obtain ⟨_, absurdIn, _⟩ := there
      cases absurdIn
  · cases decides with
    | inl admin => exact .inl admin
    | inr manages =>
      right
      refine ⟨manages.1, ?_⟩
      cases stored : request.managerId with
      | none => exact .inr (.inl rfl)
      | some manager =>
        -- the empty string is no manager either
        by_cases empty : manager = ""
        · exact .inr (.inr (by rw [empty]))
        · have assigned := manages.2
          simp only [stored, Option.getD_some, empty, false_or] at assigned
          exact .inl assigned

namespace Office

/-- An employee who also manages, and whose token names no manager. -/
def selfManaging : Actor := ⟨some "employee-1", ["employee", "manager"], none⟩

/-- The ten days are filed with that token. -/
def fileUnassigned : Call :=
  .createRequest clock ⟨"r1", "trace"⟩ selfManaging ⟨"HQ", "vacation", "2026-05-01", "2026-05-10", none⟩

end Office

/-- The employee approves the request of their own, which is assigned to nobody. -/
theorem unassigned_request_approved_by_its_filer :
    let db := execAll [Office.snapshot 10 0, Office.fileUnassigned] Db.empty
    (∃ request ∈ db.requests.find? "r1", some request.key.employeeId = Office.selfManaging.sub ∧
      request.managerId ≠ Office.selfManaging.sub) ∧
    Office.selfManaging.roles.contains "admin" = false ∧
    ((approve Office.clock "x1" Office.selfManaging "r1" db).1.toOption.map RequestRow.state =
      some .approved) := by
  decide +kernel

/-- The assigned manager approves. -/
theorem decided_by_manager_office :
    ∃ request, (execAll [Office.snapshot 10 0, Office.file "r1"] Db.empty).requests.find? "r1" =
        some request ∧
      (∃ call ∈ [Office.snapshot 10 0, Office.file "r1"], call.Files request) ∧
      (Office.manager.roles.contains "admin" = true ∨
        Office.manager.roles.contains "manager" = true ∧ (request.managerId = Office.manager.sub ∨
          request.managerId = none ∨ request.managerId = some "")) := by
  have approved : (approve Office.clock "x1" Office.manager "r1"
      (execAll [Office.snapshot 10 0, Office.file "r1"] Db.empty)).1.toOption.isSome = true := by
    decide +kernel
  refine decided_by_manager _ _ _ (.inl ⟨Office.clock, "x1", ?_⟩)
  cases outcome : (approve Office.clock "x1" Office.manager "r1"
      (execAll [Office.snapshot 10 0, Office.file "r1"] Db.empty)).1 with
  | ok after => exact ⟨after, rfl⟩
  | error failure =>
    rw [outcome] at approved
    cases approved

end TimeOff
