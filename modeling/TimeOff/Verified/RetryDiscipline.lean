import TimeOff.System.DispatchLog
import TimeOff.Verified.StandingApproval
import TimeOff.Verified.TickCompletion

/-! # The retries of an outbox row

A row goes from PENDING to INFLIGHT when it is claimed and, after a failure,
back to PENDING with a later due time, or to DEAD.  Its `attempts` count the
failures, so each dispatch but the first comes after the failure before it and
its backoff, and there are at most `outboxMaxAttempts` of them.
-/

set_option autoImplicit false

namespace TimeOff

open TimeOff.Lib HcmOutboxService HcmOutboxWorker

/-- No row is reset, and `random` is in [0, 1). -/
def Ordinary : Event → Prop
  | .call (.resetToPending _) => False
  | .settle _ random => 0 ≤ random ∧ random < 1
  | _ => True

instance : DecidablePred Ordinary := by
  intro event
  unfold Ordinary
  split <;> infer_instance

/-- `min(60000, 500 * 2^k)` milliseconds. -/
def backoffBase (failures : Nat) : ℚ := min 60000 (500 * 2 ^ failures)

/-- The failures after which a row is given up. -/
def attemptLimit (config : OutboxConfig) : Int := max 1 config.outboxMaxAttempts

/-- Each dispatch but the first comes right after a failure of the row, and no earlier than 0.7 of the
backoff after it. -/
def Spaced (log : List Happening) : Prop :=
  ∀ earlier id (now : Int) later, log = earlier ++ .dispatched id now :: later →
    earlier = [] ∨ ∃ before id, ∃ failedAt : Int, earlier = before ++ [.failed id failedAt] ∧
      failedAt + 7 / 10 * backoffBase (failures earlier) ≤ now

/-- The row is PENDING and due between 0.7 and 1.3 of the backoff after its last failure. -/
def Waits (log : List Happening) (row : OutboxRow) (failedAt : Int) : Prop :=
  row.status = .pending ∧ failedAt + 7 / 10 * backoffBase (failures log) ≤ row.nextAttemptAt ∧
    row.nextAttemptAt ≤ failedAt + 13 / 10 * backoffBase (failures log)

/-- The retry discipline of a row with this log. -/
structure Disciplined (config : OutboxConfig) (log : List Happening) (row : OutboxRow) : Prop where
  dispatches_le : (dispatches log : Int) ≤ attemptLimit config
  attempts_eq : row.attempts = failures log
  spaced : Spaced log
  due : ∀ before id failedAt, log = before ++ [.failed id failedAt] →
    (failures log : Int) < attemptLimit config → Waits log row failedAt
  dead_iff : row.status = .dead ↔ (failures log : Int) = attemptLimit config

/-- Every row stays, its attempts do not decrease, and one that is DONE or DEAD is left alone. -/
def Progresses (state next : World × List Happening) : Prop :=
  ∀ row ∈ state.1.db.hcmOutbox.rows, ∃ later ∈ next.1.db.hcmOutbox.rows,
    later.id = row.id ∧ row.attempts ≤ later.attempts ∧
    (row.status = .done ∨ row.status = .dead →
      later = row ∧ rowLog row.id next.2 = rowLog row.id state.2)

variable {config : OutboxConfig} {world next : World} {event : Event} {db after : Db}

/-! ## The backoff -/

theorem backoffBase_ge (failures : Nat) : 500 ≤ backoffBase failures := by
  apply le_min (by norm_num)
  have grows : (1 : ℚ) ≤ 2 ^ failures := one_le_pow₀ (by norm_num)
  linarith

/-- Seven tenths of the base are a whole number of milliseconds. -/
theorem backoffBase_whole (failures : Nat) : ∃ n : ℤ, 7 / 10 * backoffBase failures = n := by
  rw [backoffBase]
  cases min_choice (60000 : ℚ) (500 * 2 ^ failures) with
  | inl capped =>
    rw [capped]
    exact ⟨42000, by norm_num⟩
  | inr doubled =>
    rw [doubled]
    refine ⟨350 * 2 ^ failures, ?_⟩
    push_cast
    ring

/-- The jittered, rounded and floored backoff is within three tenths of its base. -/
theorem computeBackoffMs_window {random : ℚ} (nonneg : 0 ≤ random) (below : random < 1) (failures : Nat) :
    7 / 10 * backoffBase failures ≤ computeBackoffMs failures random ∧
      (computeBackoffMs failures random : ℚ) ≤ 13 / 10 * backoffBase failures := by
  have large := backoffBase_ge failures
  obtain ⟨least, isLeast⟩ := backoffBase_whole failures
  have same : (min 60000 (2 ^ failures * 500) : ℚ) = backoffBase failures := by
    rw [backoffBase, mul_comm]
  simp only [computeBackoffMs, same]
  generalize backoffBase failures = base at large isLeast
  have low : 7 / 10 * base ≤ base + base * (3 / 10) * (random * 2 - 1) := by nlinarith
  have high : base + base * (3 / 10) * (random * 2 - 1) ≤ 13 / 10 * base := by nlinarith
  have floorHigh := Int.floor_le (base + base * (3 / 10) * (random * 2 - 1))
  have floorLow : least ≤ ⌊base + base * (3 / 10) * (random * 2 - 1)⌋ := by
    apply Int.le_floor.mpr
    rw [← isLeast]
    exact low
  have floorLowRat : (least : ℚ) ≤ ⌊base + base * (3 / 10) * (random * 2 - 1)⌋ := by exact_mod_cast floorLow
  -- the base is 500 at least, so the floor of 100 never applies
  have aboveFloor : (100 : ℤ) ≤ ⌊base + base * (3 / 10) * (random * 2 - 1)⌋ := by
    have hundred : (100 : ℚ) ≤ ⌊base + base * (3 / 10) * (random * 2 - 1)⌋ := by linarith
    exact_mod_cast hundred
  rw [max_eq_right aboveFloor]
  constructor
  · linarith
  · linarith

/-! ## The rows at hand -/

/-- Every row that the worker holds is INFLIGHT. -/
def HeldAtWork (world : World) : Prop := ∀ row ∈ world.worker.held, AtWork row world.db

theorem HeldAtWork.kept (atWork : HeldAtWork world) (sameHeld : next.worker.held = world.worker.held)
    (kept : ∀ stored ∈ world.db.hcmOutbox.rows, stored ∈ next.db.hcmOutbox.rows) : HeldAtWork next := by
  intro row member
  rw [sameHeld] at member
  exact (atWork row member).kept fun stored storedIn _ => kept stored storedIn

/-- When the row at hand is settled, the rows behind it are other ones. -/
theorem HeldAtWork.rest (atWork : HeldAtWork world) (distinct : HeldDistinct world) {row : ClaimedRow}
    {rest : List ClaimedRow} (held : world.worker.held = row :: rest)
    (kept : ∀ stored ∈ world.db.hcmOutbox.rows, stored.id ≠ row.id → stored ∈ after.hcmOutbox.rows) :
    ∀ other ∈ rest, AtWork other after := by
  intro other member
  rw [HeldDistinct, held, List.map_cons, List.nodup_cons] at distinct
  have different : other.id ≠ row.id := by
    intro same
    exact distinct.1 (same ▸ List.mem_map_of_mem member)
  apply (atWork other (by rw [held]; exact List.mem_cons_of_mem _ member)).kept
  intro stored storedIn own
  exact kept stored storedIn (own ▸ different)

theorem Ordinary.unreset {call : Call} (ordinary : Ordinary (.call call)) (id : Nat) :
    call ≠ .resetToPending id := by
  rintro rfl
  exact ordinary

theorem HeldAtWork.step (atWork : HeldAtWork world) (distinct : HeldDistinct world)
    (ordinary : Ordinary event) (stepped : Stepped config world event next) : HeldAtWork next := by
  cases stepped with
  | call call yields offered =>
    apply atWork.kept (by rfl)
    intro stored member
    exact (call.offered_exec offered world.db).keeps_row member (ordinary.unreset _)
  | claimed now idle =>
    intro row member
    rw [held_proceed] at member
    obtain ⟨stored, due, rfl⟩ := List.mem_map.mp member
    refine ⟨_, SerialTable.mem_update_of_hit (mem_dueRows due).1 ?_, rfl, rfl, rfl⟩
    exact decide_eq_true (List.mem_map_of_mem due)
  | draining now => exact atWork
  | repeated number call found known => exact atWork
  | debits number call found unknown => exact atWork
  | sends clock reply row rest at_await unknown =>
    exact atWork.kept (by rw [at_await]; rfl) fun _ member => member
  | reviews clock reply row rest balance settlement final at_await insufficient reaction =>
    apply atWork.kept (by rw [at_await]; rfl)
    rw [reaction.hcmOutbox (by simp)]
    exact fun _ member => member
  | accepted clock reply body row rest settlement final at_await answer reaction =>
    apply atWork.kept (by rw [at_await]; rfl)
    rw [reaction.hcmOutbox (by simp)]
    exact fun _ member => member
  | refused clock reply failure row rest settlement final at_await answer permanent reaction =>
    apply atWork.kept (by rw [at_await]; rfl)
    rw [reaction.hcmOutbox (by simp)]
    exact fun _ member => member
  | lost clock reply failure row rest at_await answer transient =>
    exact atWork.kept (by rw [at_await]; rfl) fun _ member => member
  | done now random row rest escaping at_end =>
    have others : ∀ other ∈ rest, AtWork other (markDone now row.id world.db) :=
      atWork.rest distinct (by rw [at_end]; rfl) fun _ => updateRow_other
    intro other member
    exact others other ((afterSettle_held rest _).subset member)
  | retries now random row rest message at_end =>
    have others : ∀ other ∈ rest, AtWork other (scheduleRetry config now random row.id message world.db) :=
      atWork.rest distinct (by rw [at_end]; rfl) fun _ => scheduleRetry_other
    intro other member
    rw [held_proceed] at member
    exact others other member
  | crash => intro row member; cases member
  | crashInBatch clocks batch rows escalations yields => intro row member; cases member

/-! ## What a step does to a row and its log -/

/-- Where a row comes from, and what is logged about it on the way. -/
inductive RowStep (config : OutboxConfig) (world : World) (later : OutboxRow) : List Happening → Prop
  | kept (member : later ∈ world.db.hcmOutbox.rows) : RowStep config world later []
  | enqueued (fresh : ∀ stored ∈ world.db.hcmOutbox.rows, stored.id ≠ later.id)
      (attempts : later.attempts = 0) (pending : later.status = .pending) : RowStep config world later []
  | claimed (before : OutboxRow) (now : Int) (member : before ∈ world.db.hcmOutbox.rows)
      (own : before.id = later.id) (pending : before.status = .pending)
      (due : before.nextAttemptAt ≤ now) (inflight : later.status = .inflight)
      (attempts : later.attempts = before.attempts) : RowStep config world later [.dispatched later.id now]
  | done (before : OutboxRow) (member : before ∈ world.db.hcmOutbox.rows) (own : before.id = later.id)
      (inflight : before.status = .inflight) (done : later.status = .done)
      (attempts : later.attempts = before.attempts) : RowStep config world later []
  | retried (before : OutboxRow) (now : Int) (random : ℚ) (member : before ∈ world.db.hcmOutbox.rows)
      (own : before.id = later.id) (inflight : before.status = .inflight)
      (fair : 0 ≤ random ∧ random < 1) (attempts : later.attempts = before.attempts + 1)
      (outcome : config.outboxMaxAttempts ≤ before.attempts + 1 ∧ later.status = .dead ∨
        before.attempts + 1 < config.outboxMaxAttempts ∧ later.status = .pending ∧
          later.nextAttemptAt = now + computeBackoffMs (before.attempts + 1) random) :
      RowStep config world later [.failed later.id now]

theorem rowLog_append (id : Nat) (first second : List Happening) :
    rowLog id (first ++ second) = rowLog id first ++ rowLog id second :=
  List.filter_append _ _

theorem rowLog_eq_nil {id : Nat} {log : List Happening} (silent : ∀ happening ∈ log, happening.row ≠ id) :
    rowLog id log = [] := by
  rw [rowLog, List.filter_eq_nil_iff]
  intro happening member
  simpa using silent happening member

/-- A row is claimed once at most. -/
theorem rowLog_claims {rows : List OutboxRow} (distinct : (rows.map OutboxRow.id).Nodup) {row : OutboxRow}
    (member : row ∈ rows) (now : Int) :
    rowLog row.id (rows.map fun row => .dispatched row.id now) = [.dispatched row.id now] := by
  obtain ⟨before, after, rfl⟩ := List.append_of_mem member
  rw [List.map_append, List.map_cons, List.nodup_middle, List.nodup_cons] at distinct
  have others : ∀ part : List OutboxRow, (∀ other ∈ part, other ∈ before ++ after) →
      rowLog row.id (part.map fun row => .dispatched row.id now) = [] := by
    intro part within
    apply rowLog_eq_nil
    intro happening logged
    obtain ⟨other, otherIn, rfl⟩ := List.mem_map.mp logged
    intro same
    apply distinct.1
    rw [← List.map_append, ← same]
    exact List.mem_map_of_mem (within other otherIn)
  rw [List.map_append, List.map_cons, rowLog_append,
    others before fun _ inBefore => List.mem_append_left _ inBefore, List.nil_append, rowLog,
    List.filter_cons_of_pos (by simp [Happening.row])]
  congr 1
  exact others after fun _ inAfter => List.mem_append_right _ inAfter

/-- A failure counts one attempt, and the row is DEAD or waits for its next one. -/
theorem scheduleRetry_row {stored later : OutboxRow} {now : Int} {random : ℚ} {message : String}
    (member : stored ∈ db.hcmOutbox.rows)
    (laterIn : later ∈ (scheduleRetry config now random stored.id message db).hcmOutbox.rows) :
    later ∈ db.hcmOutbox.rows ∧ later.id ≠ stored.id ∨
    later.id = stored.id ∧ later.attempts = stored.attempts + 1 ∧
      (config.outboxMaxAttempts ≤ stored.attempts + 1 ∧ later.status = .dead ∨
        stored.attempts + 1 < config.outboxMaxAttempts ∧ later.status = .pending ∧
          later.nextAttemptAt = now + computeBackoffMs (stored.attempts + 1) random) := by
  have found : db.hcmOutbox.find? stored.id = some stored := Table.find?_eq_some.mpr ⟨member, rfl⟩
  simp only [scheduleRetry, found] at laterIn
  split at laterIn
  next last =>
    obtain ⟨before, beforeIn, ⟨selected, rfl⟩ | ⟨missed, rfl⟩⟩ := SerialTable.exists_of_mem_update laterIn
    · exact .inr ⟨of_decide_eq_true selected, rfl, .inl ⟨by exact_mod_cast last, rfl⟩⟩
    · exact .inl ⟨beforeIn, of_decide_eq_false missed⟩
  next again =>
    obtain ⟨before, beforeIn, ⟨selected, rfl⟩ | ⟨missed, rfl⟩⟩ := SerialTable.exists_of_mem_update laterIn
    · exact .inr ⟨of_decide_eq_true selected, rfl, .inr ⟨by exact_mod_cast not_le.mp again, rfl, rfl⟩⟩
    · exact .inl ⟨beforeIn, of_decide_eq_false missed⟩

theorem Offered.rowStep {call : Call} (offered : Offered world.db call after)
    (ordinary : Ordinary (.call call)) {later : OutboxRow} (member : later ∈ after.hcmOutbox.rows) :
    RowStep config world later [] := by
  cases offered with
  | filed clock ids actor input row after filed => exact .kept (filed.hcmOutbox ▸ member)
  | approved clock newId actor requestId before patch after found moved =>
    obtain ⟨_, _, _, _, enqueued⟩ := moved.enqueued rfl
    rw [enqueued, SerialTable.rows_append] at member
    cases List.mem_append.mp member with
    | inl old => exact .kept old
    | inr new =>
      rw [List.mem_singleton.mp new]
      refine .enqueued ?_ rfl rfl
      intro stored storedIn same
      have bound : stored.id ≤ world.db.hcmOutbox.lastId := world.db.hcmOutbox.bounded stored storedIn
      simp only [RequestRow.outboxRow] at same
      omega
  | rejected clock actor requestId reason before patch after found decides moved =>
    exact .kept ((moved.unqueued (by simp)).2 ▸ member)
  | cancelled clock actor requestId before patch after found may moved =>
    exact .kept ((moved.unqueued (by simp)).2 ▸ member)
  | healed call after healed => exact .kept (healed.hcmOutbox ▸ member)
  | reset id => exact absurd rfl (ordinary.unreset id)
  | unchanged call => exact .kept member

/-- A tick that changes nothing claims nothing. -/
theorem happenings_of_same {now : Int} (ran : World.step config world (.tick now) = some world) :
    happenings config world (.tick now) = [] := by
  simp only [happenings]
  split
  next idle =>
    simp only [World.step, idle, tick, claimDue] at ran
    have worker : proceed ((dueRows config now world.db).map OutboxRow.claimed) = .idle :=
      (congrArg World.worker (Option.some.inj ran)).trans idle
    cases due : dueRows config now world.db with
    | nil => rfl
    | cons row rest =>
      rw [due] at worker
      cases worker
  next => rfl

/-- What a step does to a row, with what it logs about it. -/
theorem step_rowStep (ran : World.step config world event = some next) (atWork : HeldAtWork world)
    (ordinary : Ordinary event) {later : OutboxRow} (member : later ∈ next.db.hcmOutbox.rows) :
    RowStep config world later (rowLog later.id (happenings config world event)) := by
  cases step_stepped ran with
  | call call yields offered => exact (call.offered_exec offered world.db).rowStep ordinary member
  | claimed now idle =>
    simp only [happenings, idle]
    obtain ⟨before, beforeIn, ⟨selected, rfl⟩ | ⟨missed, rfl⟩⟩ := SerialTable.exists_of_mem_update member
    · obtain ⟨due, dueIn, same⟩ := List.mem_map.mp (of_decide_eq_true selected)
      obtain ⟨dueStored, pending, dueNow⟩ := mem_dueRows dueIn
      obtain rfl := world.db.hcmOutbox.eq_of_key dueStored beforeIn same
      have distinct : ((dueRows config now world.db).map OutboxRow.id).Nodup :=
        ((dueRows_sublist world.db).map OutboxRow.id).nodup world.db.hcmOutbox.unique
      rw [rowLog_claims distinct dueIn now]
      exact .claimed due now beforeIn rfl pending dueNow rfl rfl
    · have silent : rowLog later.id ((dueRows config now world.db).map fun row => .dispatched row.id now) =
          [] := by
        apply rowLog_eq_nil
        intro happening logged
        obtain ⟨due, dueIn, rfl⟩ := List.mem_map.mp logged
        intro same
        exact of_decide_eq_false missed (List.mem_map.mpr ⟨due, dueIn, same⟩)
      rw [silent]
      exact .kept beforeIn
  | draining now =>
    rw [happenings_of_same ran]
    exact .kept member
  | repeated number call found known => exact .kept member
  | debits number call found unknown => exact .kept member
  | sends clock reply row rest at_await unknown => exact .kept member
  | reviews clock reply row rest balance settlement final at_await insufficient reaction =>
    exact .kept (reaction.hcmOutbox (by simp) ▸ member)
  | accepted clock reply body row rest settlement final at_await answer reaction =>
    exact .kept (reaction.hcmOutbox (by simp) ▸ member)
  | refused clock reply failure row rest settlement final at_await answer permanent reaction =>
    exact .kept (reaction.hcmOutbox (by simp) ▸ member)
  | lost clock reply failure row rest at_await answer transient => exact .kept member
  | done now random row rest escaping at_end =>
    simp only [happenings, at_end]
    obtain ⟨stored, storedIn, own, inflight, _⟩ := atWork row (by rw [at_end]; exact List.mem_cons_self)
    obtain ⟨before, beforeIn, ⟨selected, rfl⟩ | ⟨_, rfl⟩⟩ := SerialTable.exists_of_mem_update member
    · have sameId : stored.id = before.id := own.trans (of_decide_eq_true selected).symm
      obtain rfl := world.db.hcmOutbox.eq_of_key storedIn beforeIn sameId
      exact .done stored storedIn rfl inflight rfl rfl
    · exact .kept beforeIn
  | retries now random row rest message at_end =>
    simp only [happenings, at_end]
    obtain ⟨stored, storedIn, own, inflight, _⟩ := atWork row (by rw [at_end]; exact List.mem_cons_self)
    rw [← own] at member ⊢
    obtain ⟨laterIn, other⟩ | ⟨same, attempts, outcome⟩ := scheduleRetry_row storedIn member
    · have silent : rowLog later.id [.failed stored.id now] = [] := by
        apply rowLog_eq_nil
        intro happening logged
        rw [List.mem_singleton.mp logged]
        exact Ne.symm other
      rw [silent]
      exact .kept laterIn
    · have logged : rowLog later.id [.failed stored.id now] = [.failed later.id now] := by
        rw [same]
        simp [rowLog, Happening.row]
      rw [logged]
      exact .retried stored now random storedIn same.symm inflight ordinary attempts outcome
  | crash => exact .kept member
  | crashInBatch clocks batch rows escalations yields =>
    obtain ⟨_, healed⟩ := interruptedBatch_healed clocks batch rows escalations world.db
    exact .kept (healed.hcmOutbox ▸ member)

/-! ## A row and its log -/

/-- Where the row stands in the alternation of dispatches and failures. -/
inductive Phase (config : OutboxConfig) (log : List Happening) (row : OutboxRow) : Prop
  | waiting (even : dispatches log = failures log) (below : (failures log : Int) < attemptLimit config)
      (pending : row.status = .pending)
      (due : log = [] ∨ ∃ before id failedAt, log = before ++ [.failed id failedAt] ∧ Waits log row failedAt)
  | claimed (odd : dispatches log = failures log + 1) (below : (failures log : Int) < attemptLimit config)
      (status : row.status = .inflight ∨ row.status = .done)
      (last : ∃ before id now, log = before ++ [.dispatched id now])
  | dead (even : dispatches log = failures log) (spent : (failures log : Int) = attemptLimit config)
      (dead : row.status = .dead)

structure Tally (config : OutboxConfig) (log : List Happening) (row : OutboxRow) : Prop where
  attempts : row.attempts = failures log
  spaced : Spaced log
  phase : Phase config log row

variable {log : List Happening} {row later : OutboxRow}

theorem Tally.disciplined (tally : Tally config log row) : Disciplined config log row := by
  obtain ⟨attempts, spaced, phase⟩ := tally
  refine ⟨?_, attempts, spaced, ?_, ?_⟩
  · cases phase with
    | waiting even below pending due => omega
    | claimed odd below status last => omega
    | dead even spent dead => omega
  · intro before id failedAt ends below
    cases phase with
    | waiting even limit pending due =>
      cases due with
      | inl empty =>
        rw [empty] at ends
        simp at ends
      | inr due =>
        obtain ⟨others, other, lastFailed, same, waits⟩ := due
        obtain ⟨_, sameLast⟩ := List.append_inj' (same.symm.trans ends) rfl
        cases sameLast
        exact waits
    | claimed odd limit status last =>
      obtain ⟨others, other, now, same⟩ := last
      obtain ⟨_, sameLast⟩ := List.append_inj' (same.symm.trans ends) rfl
      cases sameLast
    | dead even spent dead => omega
  · cases phase with
    | waiting even below pending due =>
      rw [pending]
      simp [below.ne]
    | claimed odd below status last =>
      cases status with
      | inl inflight => simp [inflight, below.ne]
      | inr done => simp [done, below.ne]
    | dead even spent dead => simp [dead, spent]

theorem failures_concat_dispatched (log : List Happening) (id : Nat) (now : Int) :
    failures (log ++ [.dispatched id now]) = failures log ∧
      dispatches (log ++ [.dispatched id now]) = dispatches log + 1 := by
  simp [failures, dispatches, Happening.isDispatch, List.filter_append]
  rfl

theorem failures_concat_failed (log : List Happening) (id : Nat) (now : Int) :
    failures (log ++ [.failed id now]) = failures log + 1 ∧
      dispatches (log ++ [.failed id now]) = dispatches log := by
  simp [failures, dispatches, Happening.isDispatch]

/-- A list that is longer by one at its end is split inside the old part or before the new element. -/
theorem split_concat {earlier rest : List Happening} {last happening : Happening}
    (split : log ++ [last] = earlier ++ happening :: rest) :
    earlier = log ∧ happening = last ∨ ∃ inner, log = earlier ++ happening :: inner := by
  cases rest.eq_nil_or_concat with
  | inl empty =>
    rw [empty] at split
    obtain ⟨same, sameLast⟩ := List.append_inj' split rfl
    exact .inl ⟨same.symm, (List.singleton_inj.mp sameLast).symm⟩
  | inr concat =>
    obtain ⟨inner, element, same⟩ := concat
    rw [same, List.concat_eq_append, ← List.cons_append, ← List.append_assoc] at split
    exact .inr ⟨inner, (List.append_inj' split rfl).1⟩

theorem Spaced.failed (spaced : Spaced log) (id : Nat) (now : Int) : Spaced (log ++ [.failed id now]) := by
  intro earlier other clock rest split
  obtain ⟨_, same⟩ | ⟨inner, same⟩ := split_concat split
  · cases same
  · exact spaced earlier other clock inner same

theorem Spaced.dispatched (spaced : Spaced log) (id : Nat) {now : Int}
    (waited : log = [] ∨ ∃ before id, ∃ failedAt : Int, log = before ++ [.failed id failedAt] ∧
      failedAt + 7 / 10 * backoffBase (failures log) ≤ now) : Spaced (log ++ [.dispatched id now]) := by
  intro earlier other clock rest split
  obtain ⟨rfl, same⟩ | ⟨inner, same⟩ := split_concat split
  · cases same
    exact waited
  · exact spaced earlier other clock inner same

/-- The log of a row without entries is that of a row just enqueued. -/
theorem Tally.enqueued (attempts : row.attempts = 0) (pending : row.status = .pending) :
    Tally config [] row := by
  refine ⟨attempts, ?_, .waiting rfl ?_ pending (.inl rfl)⟩
  · intro earlier id now rest split
    cases earlier <;> cases split
  · simp only [failures, attemptLimit]
    exact lt_of_lt_of_le Int.one_pos (le_max_left _ _)

theorem Tally.claimed (tally : Tally config log row) {now : Int} (pending : row.status = .pending)
    (due : row.nextAttemptAt ≤ now) (id : Nat) (inflight : later.status = .inflight)
    (attempts : later.attempts = row.attempts) : Tally config (log ++ [.dispatched id now]) later := by
  obtain ⟨sameFailures, oneMore⟩ := failures_concat_dispatched log id now
  obtain ⟨counts, spaced, phase⟩ := tally
  cases phase with
  | waiting even below _ waits =>
    refine ⟨?_, ?_, .claimed ?_ ?_ (.inl inflight) ⟨log, id, now, rfl⟩⟩
    · rw [attempts, counts, sameFailures]
    · apply spaced.dispatched
      cases waits with
      | inl empty => exact .inl empty
      | inr waits =>
        obtain ⟨before, other, failedAt, same, _, early, _⟩ := waits
        have dueRat : (row.nextAttemptAt : ℚ) ≤ now := by exact_mod_cast due
        exact .inr ⟨before, other, failedAt, same, early.trans dueRat⟩
    · rw [sameFailures, oneMore, even]
    · rw [sameFailures]
      exact below
  | claimed odd below status last => cases status <;> simp_all
  | dead even spent dead => simp_all

theorem Tally.done (tally : Tally config log row) (inflight : row.status = .inflight)
    (done : later.status = .done) (attempts : later.attempts = row.attempts) : Tally config log later := by
  obtain ⟨counts, spaced, phase⟩ := tally
  cases phase with
  | waiting even below pending waits => simp_all
  | claimed odd below status last => exact ⟨attempts.trans counts, spaced, .claimed odd below (.inr done) last⟩
  | dead even spent dead => simp_all

theorem Tally.retried (tally : Tally config log row) {now : Int} {random : ℚ} (inflight : row.status = .inflight)
    (fair : 0 ≤ random ∧ random < 1) (id : Nat) (attempts : later.attempts = row.attempts + 1)
    (outcome : config.outboxMaxAttempts ≤ row.attempts + 1 ∧ later.status = .dead ∨
      row.attempts + 1 < config.outboxMaxAttempts ∧ later.status = .pending ∧
        later.nextAttemptAt = now + computeBackoffMs (row.attempts + 1) random) :
    Tally config (log ++ [.failed id now]) later := by
  obtain ⟨oneMore, same⟩ := failures_concat_failed log id now
  obtain ⟨counts, spaced, phase⟩ := tally
  cases phase with
  | waiting even below pending waits => simp_all
  | dead even spent dead => simp_all
  | claimed odd below status last =>
    refine ⟨by rw [attempts, counts, oneMore], spaced.failed id now, ?_⟩
    have evenAgain : dispatches (log ++ [.failed id now]) = failures (log ++ [.failed id now]) := by
      rw [same, oneMore, odd]
    simp only [attemptLimit] at below
    cases outcome with
    | inl spent =>
      refine .dead evenAgain ?_ spent.2
      -- below the limit before, and not below the configured number any more
      rw [oneMore, attemptLimit]
      have reached := spent.1
      push_cast
      omega
    | inr again =>
      obtain ⟨left, pending, nextAttemptAt⟩ := again
      refine .waiting evenAgain ?_ pending (.inr ⟨log, id, now, rfl, pending, ?_⟩)
      · rw [oneMore, attemptLimit]
        push_cast
        omega
      · obtain ⟨early, late⟩ := computeBackoffMs_window fair.1 fair.2 (row.attempts + 1)
        rw [nextAttemptAt, oneMore, ← counts]
        push_cast
        constructor
        · linarith
        · linarith

/-! ## The invariant -/

/-- The worker holds rows at work, the log is about stored rows, and each row has its log. -/
structure WellLogged (config : OutboxConfig) (state : World × List Happening) : Prop where
  atWork : HeldAtWork state.1
  distinct : HeldDistinct state.1
  stored : ∀ happening ∈ state.2, ∃ row ∈ state.1.db.hcmOutbox.rows, row.id = happening.row
  tally : ∀ row ∈ state.1.db.hcmOutbox.rows, Tally config (rowLog row.id state.2) row

theorem WellLogged.empty : WellLogged config (World.empty, []) := by
  refine ⟨?_, List.nodup_nil, ?_, ?_⟩
  · intro row member
    cases member
  · intro happening member
    cases member
  · intro row member
    cases member

/-- What happens, happens to stored rows. -/
theorem happenings_stored (atWork : HeldAtWork world) {happening : Happening}
    (happens : happening ∈ happenings config world event) :
    ∃ row ∈ world.db.hcmOutbox.rows, row.id = happening.row := by
  simp only [happenings] at happens
  split at happens
  next now =>
    split at happens
    · obtain ⟨due, dueIn, rfl⟩ := List.mem_map.mp happens
      exact ⟨due, (mem_dueRows dueIn).1, rfl⟩
    · cases happens
  next now random =>
    split at happens
    next row rest message settling =>
      rw [List.mem_singleton.mp happens]
      obtain ⟨stored, storedIn, own, _⟩ := atWork row (by rw [settling]; exact List.mem_cons_self)
      exact ⟨stored, storedIn, own⟩
    · cases happens
  · cases happens

variable {state nextState : World × List Happening}

theorem WellLogged.step (wellLogged : WellLogged config state) (ordinary : Ordinary event)
    (stepRan : loggedStep config state event = some nextState) :
    WellLogged config nextState ∧ Progresses state nextState := by
  obtain ⟨world, log⟩ := state
  obtain ⟨next, nextLog⟩ := nextState
  obtain ⟨atWork, distinct, stored, tally⟩ := wellLogged
  obtain ⟨ran, recorded⟩ := withHistory_eq_some.mp stepRan
  simp only [recordHappenings] at ran recorded
  subst recorded
  have stepped := step_stepped ran
  refine ⟨⟨atWork.step distinct ordinary stepped, distinct.step stepped, ?_, ?_⟩, ?_⟩
  · intro happening member
    have before : ∃ row ∈ world.db.hcmOutbox.rows, row.id = happening.row := by
      cases List.mem_append.mp member with
      | inl old => exact stored happening old
      | inr new => exact happenings_stored atWork new
    obtain ⟨row, rowIn, own⟩ := before
    obtain ⟨later, laterIn, continues⟩ := stepped.continues rowIn
    exact ⟨later, laterIn, continues.id.trans own⟩
  · intro later member
    have rowStep := step_rowStep ran atWork ordinary member
    rw [rowLog_append]
    generalize rowLog later.id (happenings config world event) = new at rowStep
    cases rowStep with
    | kept old =>
      rw [List.append_nil]
      exact tally later old
    | enqueued fresh attempts pending =>
      have unknown : rowLog later.id log = [] := by
        apply rowLog_eq_nil
        intro happening logged same
        obtain ⟨row, rowIn, own⟩ := stored happening logged
        exact fresh row rowIn (own.trans same)
      rw [unknown]
      exact .enqueued attempts pending
    | claimed before now beforeIn own pending due inflight attempts =>
      rw [← own]
      exact (tally before beforeIn).claimed pending due _ inflight attempts
    | done before beforeIn own inflight done attempts =>
      rw [← own, List.append_nil]
      exact (tally before beforeIn).done inflight done attempts
    | retried before now random beforeIn own inflight fair attempts outcome =>
      rw [← own]
      exact (tally before beforeIn).retried inflight fair _ attempts outcome
  · intro row member
    obtain ⟨later, laterIn, continues⟩ := stepped.continues member
    refine ⟨later, laterIn, continues.id, ?_⟩
    have rowStep := step_rowStep ran atWork ordinary laterIn
    rw [rowLog_append, ← continues.id]
    have itself : ∀ before ∈ world.db.hcmOutbox.rows, before.id = later.id → before = row := by
      intro before beforeIn own
      exact world.db.hcmOutbox.eq_of_key beforeIn member (own.trans continues.id)
    generalize rowLog later.id (happenings config world event) = new at rowStep
    cases rowStep with
    | kept old =>
      obtain rfl := itself later old rfl
      exact ⟨le_refl _, fun _ => ⟨rfl, List.append_nil _⟩⟩
    | enqueued fresh attempts pending => exact absurd continues.id.symm (fresh row member)
    | claimed before now beforeIn own pending due inflight attempts =>
      obtain rfl := itself before beforeIn own
      exact ⟨attempts.ge, fun ended => by simp [pending] at ended⟩
    | done before beforeIn own inflight done attempts =>
      obtain rfl := itself before beforeIn own
      exact ⟨attempts.ge, fun ended => by simp [inflight] at ended⟩
    | retried before now random beforeIn own inflight fair attempts outcome =>
      obtain rfl := itself before beforeIn own
      exact ⟨by omega, fun ended => by simp [inflight] at ended⟩

/-- In every run without resets, whatever the clocks and HCM's answers, each row of the outbox keeps the
retry discipline in every state, and every step leaves attempts from decreasing and finished rows alone. -/
theorem retry_discipline (config : OutboxConfig) (events : List Event)
    (ordinary : ∀ event ∈ events, Ordinary event) :
    Always (loggedStep config)
        (fun state => ∀ row ∈ state.1.db.hcmOutbox.rows, Disciplined config (rowLog row.id state.2) row)
        (World.empty, []) events ∧
      StepsMeet (loggedStep config)
        (fun state event => ∀ next, loggedStep config state event = some next → Progresses state next)
        (World.empty, []) events := by
  have start : WellLogged config (World.empty, []) := .empty
  generalize (World.empty, ([] : List Happening)) = state at start
  induction events generalizing state with
  | nil => exact ⟨fun row member => (start.tally row member).disciplined, trivial⟩
  | cons event rest inductionHypothesis =>
    have ordinaryRest : ∀ other ∈ rest, Ordinary other := fun other member =>
      ordinary other (List.mem_cons_of_mem _ member)
    have here := ordinary event List.mem_cons_self
    constructor
    · refine ⟨fun row member => (start.tally row member).disciplined, ?_⟩
      intro next ran
      exact (inductionHypothesis ordinaryRest next (start.step here ran).1).1
    · refine ⟨fun next ran => (start.step here ran).2, ?_⟩
      intro next ran
      exact (inductionHypothesis ordinaryRest next (start.step here ran).1).2

namespace Office

def twoAttempts : OutboxConfig := ⟨2, 10⟩

/-- HCM is down whenever the row is delivered. -/
def hcmDown : List Event :=
  claimed ++ [.balanceReply clock (balance 10), .consumeReply clock (.networkError "down"),
    .settle 5 (1 / 2), .tick 1005, .balanceReply clock (balance 10),
    .consumeReply clock (.networkError "down"), .settle 2000 (1 / 2), .tick 999999]

end Office

/-- Two attempts, a thousand milliseconds apart, and the row is given up. -/
theorem retry_discipline_office :
    Always (loggedStep Office.twoAttempts)
        (fun state => ∀ row ∈ state.1.db.hcmOutbox.rows,
          Disciplined Office.twoAttempts (rowLog row.id state.2) row)
        (World.empty, []) Office.hcmDown ∧
      ∃ state ∈ run (loggedStep Office.twoAttempts) (World.empty, []) Office.hcmDown,
        state.1.db.hcmOutbox.rows.map OutboxRow.status = [.dead] ∧
        state.2 = [.dispatched 1 0, .failed 1 5, .dispatched 1 1005, .failed 1 2000] :=
  ⟨(retry_discipline Office.twoAttempts Office.hcmDown (by decide +kernel)).1, by decide +kernel⟩

end TimeOff
