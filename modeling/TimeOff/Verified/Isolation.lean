import TimeOff.Hcm.Webhook
import TimeOff.Verified.BalanceLedger

/-! # Bad rows and bad answers

Each row of a batch has a transaction of its own, and each key of
`reconcileActive` an answer of its own; but the loops around them do not catch
what is thrown, so the first row or answer that cannot be applied ends its loop.
-/

set_option autoImplicit false

namespace TimeOff

open TimeOff.Lib BalancesRepository BalancesService ReconciliationService

/-- The snapshot is applied or ignored, and does not throw. -/
def GoesThrough (snapshot : HcmSnapshot) (db : Db) : Prop := Heeded snapshot db ∨ Stale snapshot db

instance (snapshot : HcmSnapshot) (db : Db) : Decidable (GoesThrough snapshot db) :=
  inferInstanceAs (Decidable (_ ∨ _))

/-! ## The rows of a batch -/

/-- The rows of a batch as the snapshots they make, each with its clock. -/
def timed (asOf : Option Stamp) : (Nat → RowClock) → List BatchRow → List (RowClock × HcmSnapshot)
  | _, [] => []
  | clocks, row :: rest =>
    (clocks 0, rowSnapshot asOf (clocks 0) row) :: timed asOf (fun n => clocks (n + 1)) rest

/-- The loop as the comment over `handleBatch` has it: a row that throws is left out. -/
def applyOthers : List (RowClock × HcmSnapshot) → Db → List SnapshotResult × Db
  | [], db => ([], db)
  | (clock, snapshot) :: rest, db =>
    match applyAndEscalate clock snapshot db with
    | (.error _, db) => applyOthers rest db
    | (.ok result, db) =>
      let others := applyOthers rest db
      (result :: others.1, others.2)

/-- Every row that does not throw is applied and escalated as if those that throw were absent. -/
def RowsIsolated (clocks : Nat → RowClock) (batch : Batch) (db : Db) : Prop :=
  let others := applyOthers (timed batch.asOf clocks batch.balances) db
  (applyRows batch.asOf clocks batch.balances db).results = others.1 ∧
    (handleBatch clocks batch db).2 = others.2

/-- Behind the first snapshot that does not go through there is none that would. -/
def FailsLast : List (RowClock × HcmSnapshot) → Db → Prop
  | [], _ => True
  | (clock, snapshot) :: rest, db =>
    if GoesThrough snapshot db then FailsLast rest (applyAndEscalate clock snapshot db).2
    else ∀ later ∈ rest, ¬ GoesThrough later.2 db

variable {snapshot : HcmSnapshot} {db : Db}

theorem applyAndEscalate_goesThrough (clock : RowClock) (snapshot : HcmSnapshot) (db : Db) :
    GoesThrough snapshot db ∧ (∃ result after, applyAndEscalate clock snapshot db = (.ok result, after)) ∨
    ¬ GoesThrough snapshot db ∧ ∃ failure, applyAndEscalate clock snapshot db = (.error failure, db) := by
  have admitted := applyHcmBalanceSnapshot_ok_iff clock.snapshot snapshot db
  obtain ⟨result, middle, went, _⟩ | ⟨failure, went⟩ :=
    applyHcmBalanceSnapshot_cases clock.snapshot snapshot db
  · obtain ⟨after, ran⟩ := applyAndEscalate_of_applied went
    exact .inl ⟨admitted.mp ⟨result, middle, went⟩, result, after, ran⟩
  · right
    constructor
    · intro goes
      obtain ⟨result, after, ran⟩ := admitted.mpr goes
      cases ran.symm.trans went
    · exact ⟨failure, by simp only [applyAndEscalate, went]⟩

/-- The others are none exactly if no snapshot goes through, and then nothing has changed. -/
theorem applyOthers_none (snapshots : List (RowClock × HcmSnapshot)) (db : Db) :
    ((applyOthers snapshots db).1 = [] ↔ ∀ later ∈ snapshots, ¬ GoesThrough later.2 db) ∧
      ((applyOthers snapshots db).1 = [] → (applyOthers snapshots db).2 = db) := by
  induction snapshots with
  | nil => simp [applyOthers]
  | cons first rest inductionHypothesis =>
    obtain ⟨clock, snapshot⟩ := first
    obtain ⟨goes, result, after, ran⟩ | ⟨fails, failure, ran⟩ :=
      applyAndEscalate_goesThrough clock snapshot db
    · simp [applyOthers, ran, goes]
    · simpa [applyOthers, ran, fails] using inductionHypothesis

/-- The loop as it is does what the comment says exactly if nothing is lost behind a row that throws. -/
theorem applyRows_isolated_iff (asOf : Option Stamp) (clocks : Nat → RowClock) (rows : List BatchRow)
    (db : Db) :
    ((applyRows asOf clocks rows db).results = (applyOthers (timed asOf clocks rows) db).1 ∧
      (applyRows asOf clocks rows db).db = (applyOthers (timed asOf clocks rows) db).2) ↔
      FailsLast (timed asOf clocks rows) db := by
  induction rows generalizing clocks db with
  | nil => simp [applyRows, timed, applyOthers, FailsLast]
  | cons row rest inductionHypothesis =>
    obtain ⟨goes, result, after, ran⟩ | ⟨fails, failure, ran⟩ :=
      applyAndEscalate_goesThrough (clocks 0) (rowSnapshot asOf (clocks 0) row) db
    · simp only [applyRows, timed, applyOthers, FailsLast, ran, goes, if_true, List.cons.injEq, true_and]
      exact inductionHypothesis (fun n => clocks (n + 1)) after
    · simp only [applyRows, timed, applyOthers, FailsLast, ran, fails, if_false]
      obtain ⟨none_iff, unchanged⟩ := applyOthers_none (timed asOf (fun n => clocks (n + 1)) rest) db
      rw [← none_iff]
      constructor
      · intro same
        exact same.1.symm
      · intro none
        exact ⟨none.symm, (unchanged none).symm⟩

/-! ## The answers of HCM -/

/-- HCM's answer to one key of `reconcileActive`, and the calls that ran while it was awaited. -/
structure PullAnswer where
  key : Key
  meanwhile : List Call
  clock : RowClock
  reply : Reply BalanceView

/-- The loop of `reconcileActive` over its keys. -/
def reconcileAll : List PullAnswer → Db → Except Failure (List ReconcileOutcome) × Db
  | [], db => (.ok [], db)
  | answer :: rest, db =>
    match reconcileKey answer.clock answer.key answer.reply (execAll answer.meanwhile db) with
    | (.error failure, db) => (.error failure, db)
    | (.ok outcome, db) =>
      match reconcileAll rest db with
      | (.error failure, db) => (.error failure, db)
      | (.ok outcomes, db) => (.ok (outcome :: outcomes), db)

/-- What the answer makes of the key's cached balance, if it can be read. -/
def PullAnswer.brings (answer : PullAnswer) (view : BalanceView) : HcmSnapshot where
  key := answer.key
  balance := view.balance
  asOf := view.asOf.getD (.ms answer.clock.fallback)
  source := .hcmPull

/-- HCM answers with a balance that the cache admits. -/
def PullAnswer.Valid (answer : PullAnswer) : Prop :=
  ∃ view, HcmClient.getBalance answer.key answer.reply = .ok (some view) ∧
    (∃ balance ∈ view.balance, 0 ≤ balance) ∧ (answer.brings view).asOf.stored ≠ none

def ReconcileOutcome.isApplied : ReconcileOutcome → Bool
  | .applied _ => true
  | .skipped _ => false

/-- The loop returns, and every key with a valid answer has its snapshot applied. -/
def KeysIsolated (answers : List PullAnswer) (db : Db) : Prop :=
  ∃ outcomes after, reconcileAll answers db = (.ok outcomes, after) ∧
    List.Forall₂ (fun answer outcome => answer.Valid → outcome.isApplied = true) answers outcomes

/-- The fetch failed, or the balance that was read goes through. -/
def Endures (db : Db) (answer : PullAnswer) : Prop :=
  match HcmClient.getBalance answer.key answer.reply with
  | .error _ => True
  | .ok none => False
  | .ok (some view) => GoesThrough (answer.brings view) (execAll answer.meanwhile db)

instance (db : Db) (answer : PullAnswer) : Decidable (Endures db answer) := by
  unfold Endures
  split <;> infer_instance

/-- One round of the loop. -/
def pullStep (db : Db) (answer : PullAnswer) : Option Db :=
  match reconcileKey answer.clock answer.key answer.reply (execAll answer.meanwhile db) with
  | (.ok _, after) => some after
  | (.error _, _) => none

/-- A key is reconciled exactly if its answer can be endured, and is applied if the answer is valid. -/
theorem reconcileKey_endures (answer : PullAnswer) (db : Db) :
    Endures db answer ∧ (∃ outcome after,
        reconcileKey answer.clock answer.key answer.reply (execAll answer.meanwhile db) =
          (.ok outcome, after) ∧ (answer.Valid → outcome.isApplied = true)) ∨
    ¬ Endures db answer ∧ ∃ failure after,
      reconcileKey answer.clock answer.key answer.reply (execAll answer.meanwhile db) =
        (.error failure, after) := by
  simp only [Endures, reconcileKey, PullAnswer.Valid]
  cases answered : HcmClient.getBalance answer.key answer.reply with
  | error failure => simp
  | ok value =>
    cases value with
    | none => simp
    | some view =>
      have cases := applyAndEscalate_goesThrough answer.clock (answer.brings view)
        (execAll answer.meanwhile db)
      simp only [PullAnswer.brings] at cases ⊢
      obtain ⟨goes, result, after, ran⟩ | ⟨fails, failure, ran⟩ := cases
      · simp [ran, goes, ReconcileOutcome.isApplied]
      · simp [ran, fails]

theorem keysIsolated_iff (answers : List PullAnswer) (db : Db) :
    KeysIsolated answers db ↔ StepsMeet pullStep Endures db answers := by
  induction answers generalizing db with
  | nil => exact iff_of_true ⟨[], db, rfl, .nil⟩ trivial
  | cons answer rest inductionHypothesis =>
    simp only [KeysIsolated, reconcileAll, StepsMeet, pullStep]
    obtain ⟨endures, outcome, after, ran, applied⟩ | ⟨breaks, failure, after, ran⟩ :=
      reconcileKey_endures answer db
    · simp only [ran, endures, true_and, Option.some.injEq, forall_eq']
      rw [← inductionHypothesis]
      constructor
      · rintro ⟨outcomes, final, returned, all⟩
        split at returned
        · cases returned
        next later _ returnedLater =>
          cases returned
          cases all with
          | cons _ allLater => exact ⟨later, _, returnedLater, allLater⟩
      · rintro ⟨later, final, returned, all⟩
        exact ⟨outcome :: later, final, by rw [returned], .cons applied all⟩
    · simp [ran, breaks]

/-- From any state: a batch is applied but for the rows that throw exactly if no row behind the first of
these would go through, and `reconcileActive` returns with every valid answer applied exactly if each
answer at its turn is an error of the fetch or a balance that goes through. -/
theorem failures_isolated_iff (db : Db) :
    (∀ clocks batch, RowsIsolated clocks batch db ↔
      FailsLast (timed batch.asOf clocks batch.balances) db) ∧
    ∀ answers, KeysIsolated answers db ↔ StepsMeet pullStep Endures db answers := by
  constructor
  · intro clocks batch
    simp only [RowsIsolated, handleBatch_db]
    exact applyRows_isolated_iff _ _ _ _
  · intro answers
    exact keysIsolated_iff answers db

namespace Office

def rowClock : RowClock := ⟨0, clock, fun _ => clock⟩

def colleagueKey : Key := ⟨"employee-2", "HQ", "vacation"⟩

/-- The date of the batch names a week, which `Date.parse` cannot read; its second row has a date. -/
def weekBatch : HcmBatchDto where
  batchId := none
  asOf := some "2026-W17"
  balances := [⟨"employee-1", "HQ", "vacation", 10, none⟩,
    ⟨"employee-2", "HQ", "vacation", 7, some "2026-04-24T00:00:00Z"⟩]

/-- HCM answers this for the key. -/
def answer (key : Key) (days : ℚ) : PullAnswer := ⟨key, [], rowClock, balance days⟩

end Office

/-- The row that is not dated throws, and the dated one behind it, which would go through, is lost; a
negative balance of one key ends the loop before the other key is asked for. -/
theorem failures_poison_others :
    findBalance Office.colleagueKey (HcmWebhookController.handleBatch dateParse (fun _ => Office.rowClock)
      Office.weekBatch Db.empty).2 = none ∧
    (findBalance Office.colleagueKey (HcmWebhookController.handleBatch dateParse (fun _ => Office.rowClock)
      { Office.weekBatch with balances := Office.weekBatch.balances.drop 1 } Db.empty).2).isSome = true ∧
    ¬ KeysIsolated [Office.answer Office.key (-1), Office.answer Office.colleagueKey 7] Db.empty ∧
    KeysIsolated [Office.answer Office.colleagueKey 7] Db.empty := by
  refine ⟨by decide +kernel, by decide +kernel, ?_, ?_⟩
  · rw [keysIsolated_iff]
    decide +kernel
  · rw [keysIsolated_iff]
    decide +kernel

end TimeOff
