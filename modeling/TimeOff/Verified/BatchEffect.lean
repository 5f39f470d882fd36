import TimeOff.Verified.BatchTurns

/-! # The exact effect of a batch

Of everything but the cache and the audit log, a batch changes the approved
requests of the keys that drift, and these go to review.
-/

set_option autoImplicit false

namespace TimeOff

open TimeOff.Lib BalancesRepository BalancesService ReconciliationService

variable {asOf : Option Stamp} {rows : List BatchRow} {clocks : Nat → RowClock} {db after : Db}

theorem mem_readings {reading : Reading} (member : reading ∈ readings asOf clocks rows) :
    ∃ row ∈ rows, reading.key = row.key ∧ reading.balance = row.balance := by
  induction rows generalizing clocks with
  | nil => cases member
  | cons row rest inductionHypothesis =>
    cases List.mem_cons.mp member with
    | inl here => exact ⟨row, List.mem_cons_self, by rw [here]; rfl, by rw [here]; rfl⟩
    | inr later =>
      obtain ⟨other, otherIn, same⟩ := inductionHypothesis later
      exact ⟨other, List.mem_cons_of_mem _ otherIn, same⟩

/-- Balances that are not negative pass at any turn. -/
theorem passing_of_nonneg {taken : List Reading}
    (nonneg : ∀ reading ∈ taken, ∃ balance ∈ reading.balance, 0 ≤ balance) (store : Key → Option Reading) :
    passing store taken = taken := by
  induction taken generalizing store with
  | nil => rfl
  | cons reading rest inductionHypothesis =>
    have passes : reading.Passes store := .inr (nonneg reading List.mem_cons_self)
    rw [passing, if_pos passes,
      inductionHypothesis fun other member => nonneg other (List.mem_cons_of_mem _ member)]

theorem reports_keys (reserved : Key → ℚ) (store : Key → Option Reading) :
    (reports reserved store (readings asOf clocks rows)).map AppliedEntry.key =
      rows.map fun row => row.key.targetId := by
  induction rows generalizing clocks store with
  | nil => rfl
  | cons row rest inductionHypothesis =>
    rw [readings, reports, List.map_cons, List.map_cons, inductionHypothesis]
    rfl

theorem Reviewed.keeps {meant : String → Key → Prop} {before row : RequestRow}
    (reviewed : Reviewed meant before row) :
    row.id = before.id ∧
      (row.state ≠ before.state ↔ before.state = .approved ∧ meant before.id before.key) ∧
      (row.state ≠ before.state → row.state = .reviewRequired ∧
        row.externalRequestId = before.externalRequestId ∧ row.approverId = before.approverId ∧
        row.days = before.days) := by
  cases reviewed with
  | inl went =>
    obtain ⟨met, now, rfl⟩ := went
    refine ⟨rfl, ⟨fun _ => met, ?_⟩, fun _ => ⟨rfl, rfl, rfl, rfl⟩⟩
    intro _ same
    rw [met.1] at same
    cases same
  | inr kept =>
    obtain ⟨unmet, rfl⟩ := kept
    exact ⟨rfl, ⟨fun changed => absurd rfl changed, fun met => absurd met unmet⟩,
      fun changed => absurd rfl changed⟩

theorem Reviews.found {meant : String → Key → Prop} (reviews : Reviews meant db after) {id : String}
    {before : RequestRow} (found : db.requests.find? id = some before) :
    ∃ row, after.requests.find? id = some row ∧ Reviewed meant before row := by
  obtain ⟨change, changed, reviewed⟩ := reviews.requests
  obtain ⟨member, own⟩ := Table.find?_eq_some.mp found
  refine ⟨change before, Table.find?_eq_some.mpr ⟨?_, ?_⟩, reviewed before member⟩
  · rw [changed]
    exact List.mem_map_of_mem member
  · exact (reviewed before member).keeps.1.trans own

theorem Reviews.ids {meant : String → Key → Prop} (reviews : Reviews meant db after) :
    after.requests.rows.map RequestRow.id = db.requests.rows.map RequestRow.id := by
  obtain ⟨change, changed, reviewed⟩ := reviews.requests
  rw [changed, List.map_map]
  apply List.map_congr_left
  intro row member
  exact (reviewed row member).keeps.1

/-- A batch whose balances are not negative is applied to its end: a request changes its state exactly
if it was approved and some row of its key, at its turn, was heeded with less than is reserved. -/
theorem batch_effect (db : Db) (clocks : Nat → RowClock) (batch : Batch)
    (dated : Dated batch.asOf batch.balances)
    (nonneg : ∀ row ∈ batch.balances, ∃ balance ∈ row.balance, 0 ≤ balance) :
    let taken := readings batch.asOf clocks batch.balances
    let reserved := fun key => sumOpenReservations key db
    ∃ reply after, handleBatch clocks batch db = (.ok reply, after) ∧
      (∀ id before, db.requests.find? id = some before →
        ∃ row, after.requests.find? id = some row ∧
          (row.state ≠ before.state ↔
            before.state = .approved ∧ DriftsOn reserved (cells db) taken before.key) ∧
          (row.state ≠ before.state → row.state = .reviewRequired ∧
            row.externalRequestId = before.externalRequestId ∧ row.approverId = before.approverId ∧
            row.days = before.days)) ∧
      after.requests.rows.map RequestRow.id = db.requests.rows.map RequestRow.id ∧
      after.reservations = db.reservations ∧
      after.hcmOutbox = db.hcmOutbox ∧
      (∀ key, (∀ row ∈ batch.balances, row.key ≠ key) → findBalance key after = findBalance key db) ∧
      reply.batchId = batch.batchId ∧
      reply.appliedCount = batch.balances.length ∧
      reply.applied = reports reserved (cells db) taken ∧
      reply.applied.map AppliedEntry.key = batch.balances.map fun row => row.key.targetId := by
  intro taken reserved
  obtain ⟨absorbed, completes⟩ := applyRows_absorbs dated clocks db
  have all : passing (cells db) taken = taken := by
    apply passing_of_nonneg
    intro reading member
    obtain ⟨row, rowIn, _, same⟩ := mem_readings member
    rw [same]
    exact nonneg row rowIn
  rw [all] at absorbed
  have returned := completes.mpr all
  have keys : (reports reserved (cells db) taken).map AppliedEntry.key =
      batch.balances.map fun row => row.key.targetId := reports_keys reserved (cells db)
  have applied : List.zipWith appliedEntry batch.balances
      (applyRows batch.asOf clocks batch.balances db).results = reports reserved (cells db) taken :=
    absorbed.entries
  refine ⟨_, _, by simp only [handleBatch, returned]; rfl, ?_, absorbed.reviews.ids,
    absorbed.reviews.reservations, absorbed.reviews.hcmOutbox, ?_, rfl, ?_, applied, ?_⟩
  · intro id before found
    obtain ⟨row, foundRow, reviewed⟩ := absorbed.reviews.found found
    exact ⟨row, foundRow, reviewed.keeps.2⟩
  · intro key unmentioned
    apply absorbed.others key
    intro reading member
    obtain ⟨row, rowIn, same, _⟩ := mem_readings member
    rw [same]
    exact unmentioned row rowIn
  · dsimp only
    rw [applied, ← List.length_map AppliedEntry.key, keys, List.length_map]
  · dsimp only
    rw [applied]
    exact keys

namespace Office

/-- Ten of ten days filed and approved. -/
def approved : Db := execAll [snapshot 10 0, file "r1", approve "r1" "x1"] Db.empty

/-- The key four times: enough, then too little but stale, then too little, then enough again. -/
def pushed : Batch where
  batchId := none
  asOf := some (.ms 6)
  balances := [⟨key, some 12, some (.ms 7)⟩, ⟨key, some 3, none⟩, ⟨key, some 4, some (.ms 8)⟩,
    ⟨key, some 20, some (.ms 9)⟩]

end Office

/-- The request goes to review for the third row, although the last one would cover it. -/
theorem batch_effect_office :
    ∃ reply after, handleBatch (fun _ => ⟨0, Office.clock, fun _ => Office.clock⟩) Office.pushed
        Office.approved = (.ok reply, after) ∧
      requestState "r1" after = some .reviewRequired ∧
      reply.applied.map AppliedEntry.negativeDrift = [false, false, true, false] := by
  obtain ⟨reply, after, ran, requests, _, _, _, _, _, _, applied, _⟩ :=
    batch_effect Office.approved (fun _ => ⟨0, Office.clock, fun _ => Office.clock⟩) Office.pushed
      (by simp [Dated, Office.pushed]) (by simp [Office.pushed])
  refine ⟨reply, after, ran, ?_, ?_⟩
  · have stored : (Office.approved.requests.find? "r1").any (fun row =>
        row.state = .approved ∧ row.key = Office.key) = true := by decide +kernel
    obtain ⟨before, found, isApproved⟩ := (Option.any_eq_true _ _).mp stored
    rw [decide_eq_true_eq] at isApproved
    obtain ⟨row, foundRow, changed, went⟩ := requests "r1" before found
    rw [isApproved.2] at changed
    have moved := changed.mpr ⟨isApproved.1, [_, _], _, [_], rfl, rfl, by decide +kernel⟩
    exact requestState_eq_some.mpr ⟨row, foundRow, (went moved).1⟩
  · rw [applied]
    decide +kernel

end TimeOff
