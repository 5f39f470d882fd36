import TimeOff.Lib.Simulation
import TimeOff.Verified.RetryDiscipline

/-! # How long a due row can wait

A tick takes the due rows with the smallest ids, so a row can be passed over in favour of older
ones, and these come back after each failure.  But each of them is dispatched a bounded number of
times, and a tick that passes a row over dispatches a full batch of them.
-/

set_option autoImplicit false

namespace TimeOff.Lib

theorem countP_or_le {α : Type} (first second : α → Bool) (l : List α) :
    l.countP (fun a => first a || second a) ≤ l.countP first + l.countP second := by
  induction l with
  | nil => simp
  | cons a rest inductionHypothesis =>
    simp only [List.countP_cons]
    cases first a with
    | false =>
      simp only [Bool.false_or, Bool.false_eq_true, if_false]
      omega
    | true =>
      simp only [Bool.true_or, if_true]
      omega

/-- What is of one of the listed kinds is counted kind by kind. -/
theorem countP_mem_le {α ι : Type} [DecidableEq ι] {kind : α → ι} {select : α → Bool} {bound : ℕ} {l : List α}
    (kinds : List ι) (each : ∀ i ∈ kinds, l.countP (fun a => select a && kind a = i) ≤ bound) :
    l.countP (fun a => select a && kind a ∈ kinds) ≤ kinds.length * bound := by
  induction kinds with
  | nil => simp
  | cons i rest inductionHypothesis =>
    obtain ⟨here, later⟩ := List.forall_mem_cons.mp each
    have either : (fun a => select a && kind a ∈ i :: rest) =
        fun a => (select a && kind a = i) || (select a && kind a ∈ rest) := by
      funext a
      simp [← Bool.and_or_distrib_left]
    have counted := countP_or_le (fun a => select a && kind a = i) (fun a => select a && kind a ∈ rest) l
    have bounded := inductionHypothesis later
    rw [either, List.length_cons, Nat.succ_mul]
    omega

end TimeOff.Lib

namespace TimeOff

open TimeOff.Lib HcmOutboxService

variable {config : OutboxConfig}

/-- The tick passes the row over: it is PENDING and due, and the batch is one of other rows. -/
def passesOver (config : OutboxConfig) (id : Nat) (world : World) : Event → Bool
  | .tick now =>
    world.worker = .idle ∧
      (world.db.hcmOutbox.find? id).any (fun row => row.status = .pending ∧ row.nextAttemptAt ≤ now) ∧
      id ∉ (dueRows config now world.db).map OutboxRow.id
  | _ => false

/-- The system, with the count of the ticks that have passed the row over. -/
abbrev waitingStep (config : OutboxConfig) (id : Nat) : World × Nat → Event → Option (World × Nat) :=
  withHistory (World.step config) fun passes world event _ =>
    if passesOver config id world event then passes + 1 else passes

/-- The rows that were enqueued before the one of this id. -/
def olderRows (id : Nat) (db : Db) : List OutboxRow := db.hcmOutbox.rows.filter fun row => row.id < id

/-- The dispatches of rows that were enqueued before. -/
def olderDispatches (id : Nat) (log : List Happening) : Nat :=
  log.countP fun happening => happening.isDispatch && happening.row < id

/-! ## A tick that passes a row over -/

/-- Such a batch is full, and of older rows. -/
theorem dueRows_full {now : Int} {db : Db} {row : OutboxRow} (member : row ∈ db.hcmOutbox.rows)
    (pending : row.status = .pending) (due : row.nextAttemptAt ≤ now)
    (passed : row.id ∉ (dueRows config now db).map OutboxRow.id) :
    (dueRows config now db).length = config.outboxBatchSize.toNat ∧
      ∀ older ∈ dueRows config now db, older.id < row.id := by
  have isDue : row ∈ db.hcmOutbox.rows.filter fun row => row.status = .pending ∧ row.nextAttemptAt ≤ now :=
    List.mem_filter.mpr ⟨member, decide_eq_true ⟨pending, due⟩⟩
  have ascending := db.hcmOutbox.ascending.sublist
    (List.filter_sublist (p := fun row => row.status = .pending ∧ row.nextAttemptAt ≤ now))
  simp only [dueRows] at passed ⊢
  split at passed
  · exact absurd (List.mem_map_of_mem isDue) passed
  next limited =>
    simp only [limited, if_false]
    generalize db.hcmOutbox.rows.filter (fun row => row.status = .pending ∧ row.nextAttemptAt ≤ now) = due at *
    -- the row is among those that the LIMIT cuts off
    rw [← List.take_append_drop config.outboxBatchSize.toNat due] at isDue ascending
    obtain taken | cut := List.mem_append.mp isDue
    · exact absurd (List.mem_map_of_mem taken) passed
    · constructor
      · have longer := List.length_pos_of_mem cut
        rw [List.length_drop] at longer
        rw [List.length_take]
        omega
      · intro older olderIn
        exact (List.pairwise_append.mp ascending).2.2 older olderIn row cut

theorem olderDispatches_append (id : Nat) (log new : List Happening) :
    olderDispatches id (log ++ new) = olderDispatches id log + olderDispatches id new :=
  List.countP_append

/-- A tick that passes the row over dispatches a full batch of older rows. -/
theorem passesOver_dispatches {id : Nat} {world : World} {event : Event}
    (passes : passesOver config id world event = true) :
    olderDispatches id (happenings config world event) = config.outboxBatchSize.toNat := by
  cases event with
  | tick now =>
    simp only [passesOver, decide_eq_true_eq] at passes
    obtain ⟨idle, waits, passed⟩ := passes
    cases found : world.db.hcmOutbox.find? id with
    | none =>
      rw [found] at waits
      cases waits
    | some row =>
      rw [found, Option.any_some, decide_eq_true_eq] at waits
      obtain ⟨member, rfl⟩ := Table.find?_eq_some.mp found
      obtain ⟨full, older⟩ := dueRows_full member waits.1 waits.2 passed
      rw [← full]
      simp only [happenings, idle, olderDispatches, List.countP_map]
      apply List.countP_eq_length.mpr
      intro other otherIn
      simp only [Function.comp, Happening.isDispatch, Happening.row, Bool.true_and]
      exact decide_eq_true (older other otherIn)
  | _ => cases passes

/-- The older rows are dispatched no more often than all of them together may be. -/
theorem olderDispatches_le {state : World × List Happening} (wellLogged : WellLogged config state) (id : Nat) :
    olderDispatches id state.2 ≤ (olderRows id state.1.db).length * (attemptLimit config).toNat := by
  have each : ∀ older ∈ (olderRows id state.1.db).map OutboxRow.id,
      state.2.countP (fun happening => happening.isDispatch && happening.row = older) ≤
        (attemptLimit config).toNat := by
    intro older member
    obtain ⟨row, rowIn, rfl⟩ := List.mem_map.mp member
    have limit := (wellLogged.tally row (List.mem_of_mem_filter rowIn)).disciplined.dispatches_le
    have same : state.2.countP (fun happening => happening.isDispatch && happening.row = row.id) =
        dispatches (rowLog row.id state.2) := by
      rw [dispatches, rowLog, List.filter_filter, List.countP_eq_length_filter]
    omega
  have counted := countP_mem_le _ each
  rw [List.length_map] at counted
  refine le_trans (List.countP_mono_left ?_) counted
  intro happening logged dispatched
  obtain ⟨row, rowIn, own⟩ := wellLogged.stored happening logged
  rw [Bool.and_eq_true, decide_eq_true_eq] at dispatched ⊢
  refine ⟨dispatched.1, List.mem_map.mpr ⟨row, List.mem_filter.mpr ⟨rowIn, ?_⟩, own⟩⟩
  rw [decide_eq_true_eq, own]
  exact dispatched.2

/-- In every run without resets, each row is passed over by no more ticks than it takes to dispatch, a full
batch at a time, the rows enqueued before it as often as each may be.  So no row starves, whatever HCM
answers for the others. -/
theorem passed_over_boundedly (config : OutboxConfig) (id : Nat) (events : List Event)
    (ordinary : ∀ event ∈ events, Ordinary event) :
    Always (waitingStep config id) (fun state => state.2 * config.outboxBatchSize.toNat ≤
      (olderRows id state.1.db).length * (attemptLimit config).toNat) (World.empty, 0) events := by
  have kept : Always (waitingStep config id) (fun state => ∃ log, WellLogged config (state.1, log) ∧
      state.2 * config.outboxBatchSize.toNat ≤ olderDispatches id log) (World.empty, 0) events := by
    refine always_of_stepsMeet _ ?_ ⟨[], .empty, by simp⟩ (stepsMeet_of_events _ ordinary)
    rintro ⟨world, passes⟩ event ⟨next, nextPasses⟩ ⟨log, wellLogged, counted⟩ here stepped
    obtain ⟨ran, recorded⟩ := withHistory_eq_some.mp stepped
    refine ⟨log ++ happenings config world event, ?_, ?_⟩
    · exact (wellLogged.step here (withHistory_eq_some.mpr ⟨ran, rfl⟩)).1
    · rw [olderDispatches_append, recorded]
      simp only at counted ⊢
      split
      next passed =>
        rw [passesOver_dispatches passed, Nat.succ_mul]
        omega
      next => omega
  apply kept.mono
  rintro ⟨world, passes⟩ ⟨log, wellLogged, counted⟩
  exact counted.trans (olderDispatches_le wellLogged id)

namespace Office

/-- A worker that takes one row at a time. -/
def oneByOne : OutboxConfig := ⟨5, 1⟩

/-- Two requests are approved, and HCM is down when the first is delivered. -/
def passedOnce : List Event :=
  [.call (snapshot 20 0), .call (file "r1"), .call (file "r2"), .call (approve "r1" "x1"),
    .call (approve "r2" "x2"), .tick 0, .balanceReply clock (balance 20),
    .consumeReply clock (.networkError "down"), .settle 5 (1 / 2), .tick 10]

end Office

open Office in
/-- The second row is passed over once, and its turn comes while the first waits out its backoff. -/
theorem passed_over_office :
    (run (waitingStep oneByOne 2) (World.empty, 0) passedOnce).map (fun state =>
      (state.2, state.1.worker.held.map ClaimedRow.id)) = some (1, [2]) ∧
    Always (waitingStep oneByOne 2) (fun state => state.2 * oneByOne.outboxBatchSize.toNat ≤
      (olderRows 2 state.1.db).length * (attemptLimit oneByOne).toNat) (World.empty, 0) passedOnce :=
  ⟨by decide +kernel, passed_over_boundedly oneByOne 2 passedOnce (by decide +kernel)⟩

end TimeOff
