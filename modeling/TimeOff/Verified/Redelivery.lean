import TimeOff.Verified.BatchEffect

/-! # A batch delivered twice

The registers of the cache end a second round of the same dated rows where they
ended the first.  A row that is ignored in the first round is ignored in the
second, so the second finds drift on no key that the first had not found it on,
and the approved requests of these are in review already.
-/

set_option autoImplicit false

namespace TimeOff

open TimeOff.Lib BalancesRepository BalancesService ReconciliationService

variable {store : Key → Option Reading} {taken all : List Reading}

/-! ## The rows that pass -/

/-- Each of the readings passes at its turn, and none follows or the next one does not pass. -/
structure Passed (store : Key → Option Reading) (taken all : List Reading) : Prop where
  passes : ∀ earlier reading later, taken = earlier ++ reading :: later →
    reading.Passes (Registers.putAll Reading.key Reading.rank store earlier)
  stops : ∃ rest, all = taken ++ rest ∧ ∀ reading later, rest = reading :: later →
    ¬ reading.Passes (Registers.putAll Reading.key Reading.rank store taken)

theorem passing_passed (store : Key → Option Reading) (all : List Reading) :
    Passed store (passing store all) all := by
  induction all generalizing store with
  | nil =>
    refine ⟨?_, [], rfl, ?_⟩
    · intro earlier reading later split
      cases earlier <;> cases split
    · intro reading later split
      cases split
  | cons reading rest inductionHypothesis =>
    by_cases passes : reading.Passes store
    · rw [passing, if_pos passes]
      obtain ⟨passesRest, left, same, stops⟩ :=
        inductionHypothesis (Registers.put Reading.key Reading.rank store reading)
      refine ⟨?_, left, congrArg (List.cons reading) same, stops⟩
      intro earlier other later split
      cases earlier with
      | nil =>
        cases split
        exact passes
      | cons first earlier =>
        obtain ⟨rfl, splitRest⟩ := List.cons.inj split
        exact passesRest earlier other later splitRest
    · rw [passing, if_neg passes]
      refine ⟨?_, reading :: rest, rfl, ?_⟩
      · intro earlier other later split
        cases earlier <;> cases split
      · intro other later split
        cases split
        exact passes

/-- Nothing else passes. -/
theorem Passed.eq (passed : Passed store taken all) : passing store all = taken := by
  induction taken generalizing store all with
  | nil =>
    obtain ⟨_, rest, same, stops⟩ := passed
    rw [List.nil_append] at same
    subst same
    cases all with
    | nil => rfl
    | cons reading later => exact if_neg (stops reading later rfl)
  | cons reading taken inductionHypothesis =>
    obtain ⟨passes, rest, rfl, stops⟩ := passed
    have here : reading.Passes store := passes [] reading taken rfl
    rw [List.cons_append, passing, if_pos here]
    congr 1
    apply inductionHypothesis
    refine ⟨?_, rest, rfl, stops⟩
    intro earlier other later split
    exact passes (reading :: earlier) other later (congrArg (List.cons reading) split)

/-! ## The second round -/

/-- What is ignored in the first round is ignored in the second. -/
theorem ignored_replay {earlier later : List Reading} {reading : Reading}
    (split : taken = earlier ++ reading :: later)
    (ignored : reading.ignored (Registers.putAll Reading.key Reading.rank store earlier) = some true) :
    reading.ignored (Registers.putAll Reading.key Reading.rank
      (Registers.putAll Reading.key Reading.rank store taken) earlier) = some true := by
  rw [← outranks_reading] at ignored ⊢
  rw [split]
  exact Registers.outranks_replay store ignored

theorem passing_replay (store : Key → Option Reading) (all : List Reading) :
    passing (Registers.putAll Reading.key Reading.rank store (passing store all)) all =
      passing store all := by
  obtain ⟨passes, rest, same, stops⟩ := passing_passed store all
  apply Passed.eq
  refine ⟨?_, rest, same, ?_⟩
  · intro earlier reading later split
    cases passes earlier reading later split with
    | inl ignored => exact .inl (ignored_replay split ignored)
    | inr nonneg => exact .inr nonneg
  · intro reading later split
    rw [Registers.putAll_replay]
    exact stops reading later split

theorem driftsOn_replay {reserved : Key → ℚ} {key : Key}
    (drifts : DriftsOn reserved (Registers.putAll Reading.key Reading.rank store taken) taken key) :
    DriftsOn reserved store taken key := by
  obtain ⟨earlier, reading, later, split, own, heeded, short⟩ := drifts
  exact ⟨earlier, reading, later, split, own, mt (ignored_replay split) heeded, short⟩

variable {db after final : Db} {meant anew : String → Key → Prop}

/-- A second review of requests that were meant before finds none approved. -/
theorem Reviews.repeated (first : Reviews meant db after) (second : Reviews anew after final)
    (fewer : ∀ id key, anew id key → meant id key) : final.requests.rows = after.requests.rows := by
  obtain ⟨change, rows, reviewed⟩ := first.requests
  obtain ⟨changeAgain, rowsAgain, reviewedAgain⟩ := second.requests
  rw [rowsAgain]
  apply (List.map_congr_left _).trans (List.map_id _)
  intro row member
  cases reviewedAgain row member with
  | inr kept => exact kept.2
  | inl went =>
    obtain ⟨⟨approved, met⟩, _⟩ := went
    rw [rows] at member
    obtain ⟨before, beforeIn, rfl⟩ := List.mem_map.mp member
    cases reviewed before beforeIn with
    | inl wentBefore =>
      obtain ⟨_, now, same⟩ := wentBefore
      rw [same] at approved
      cases approved
    | inr kept =>
      rw [kept.2] at approved met
      exact absurd ⟨approved, fewer _ _ met⟩ kept.1

/-- Every row has an `asOf` of its own or of the batch, a number of milliseconds. -/
def ExplicitlyDated (asOf : Option Stamp) (rows : List BatchRow) : Prop :=
  ∀ row ∈ rows, ∃ time, row.asOf.or asOf = some (.ms time)

theorem ExplicitlyDated.dated {asOf : Option Stamp} {rows : List BatchRow}
    (explicit : ExplicitlyDated asOf rows) : Dated asOf rows := by
  intro row member stamp given
  obtain ⟨time, same⟩ := explicit row member
  exact ⟨time, Option.some.inj (given.symm.trans same)⟩

/-- The clock has no say in what the rows of the batch read. -/
theorem ExplicitlyDated.readings_eq {asOf : Option Stamp} {rows : List BatchRow}
    (explicit : ExplicitlyDated asOf rows) (first second : Nat → RowClock) :
    readings asOf first rows = readings asOf second rows := by
  induction rows generalizing first second with
  | nil => rfl
  | cons row rest inductionHypothesis =>
    obtain ⟨time, given⟩ := explicit row List.mem_cons_self
    have explicitRest : ExplicitlyDated asOf rest := fun other member => explicit other (List.mem_cons_of_mem _ member)
    rw [readings, readings, inductionHypothesis explicitRest _ fun n => second (n + 1)]
    simp only [rowSnapshot, HcmSnapshot.reading, given, Option.getD_some]

/-- The two columns of the cache that a snapshot brings. -/
def cachedBalance (key : Key) (db : Db) : Option (ℚ × Stamp) :=
  (findBalance key db).map fun row => (row.hcmBalance, row.hcmSnapshotAt)

theorem cachedBalance_congr (same : cells after = cells db) (key : Key) :
    cachedBalance key after = cachedBalance key db := by
  have read : ∀ db, cachedBalance key db =
      (cells db key).bind fun held => held.balance.map fun balance => (balance, held.asOf) := by
    intro db
    simp only [cachedBalance, cells]
    cases findBalance key db <;> rfl
  rw [read, read, same]

/-- A batch whose rows are dated explicitly can be delivered again: the cached balances with their dates,
the requests, the reservations and the outbox are as after the first time. -/
theorem redelivery_harmless (db : Db) (first second : Nat → RowClock) (batch : Batch)
    (explicit : ExplicitlyDated batch.asOf batch.balances) :
    let once := (handleBatch first batch db).2
    let twice := (handleBatch second batch once).2
    (∀ key, cachedBalance key twice = cachedBalance key once) ∧
      twice.requests.rows = once.requests.rows ∧
      twice.reservations = once.reservations ∧
      twice.hcmOutbox = once.hcmOutbox := by
  intro once twice
  have taken := (applyRows_absorbs explicit.dated first db).1
  have takenAgain := (applyRows_absorbs explicit.dated second once).1
  rw [← handleBatch_db] at taken takenAgain
  rw [explicit.readings_eq second first] at takenAgain
  have cellsOnce : cells once = cellsAfter db
    (passing (cells db) (readings batch.asOf first batch.balances)) := taken.cells
  rw [cellsOnce, passing_replay] at takenAgain
  have reserved : (fun key => sumOpenReservations key once) = fun key => sumOpenReservations key db := by
    funext key
    exact sumOpenReservations_congr taken.reviews.reservations key
  refine ⟨?_, ?_, takenAgain.reviews.reservations, takenAgain.reviews.hcmOutbox⟩
  · apply cachedBalance_congr
    rw [cellsOnce]
    apply takenAgain.cells.trans
    rw [cellsAfter, cellsOnce]
    exact Registers.putAll_replay _ _
  · apply taken.reviews.repeated takenAgain.reviews
    intro _ key drifts
    rw [reserved, cellsOnce] at drifts
    exact driftsOn_replay drifts

/-- The four rows of one key, delivered twice. -/
theorem redelivery_harmless_office :
    let clocks : Nat → RowClock := fun _ => ⟨0, Office.clock, fun _ => Office.clock⟩
    let once := (handleBatch clocks Office.pushed Office.approved).2
    let twice := (handleBatch clocks Office.pushed once).2
    requestState "r1" once = some .reviewRequired ∧ requestState "r1" twice = some .reviewRequired ∧
      cachedBalance Office.key twice = cachedBalance Office.key once := by
  intro clocks once twice
  obtain ⟨cached, requests, _⟩ := redelivery_harmless Office.approved clocks clocks Office.pushed
    (by simp [ExplicitlyDated, Office.pushed])
  have reviewed : requestState "r1" once = some .reviewRequired := by decide +kernel
  have same : requestState "r1" twice = requestState "r1" once := by
    simp only [requestState, Table.find?]
    rw [requests]
  exact ⟨reviewed, same.trans reviewed, cached Office.key⟩

end TimeOff
