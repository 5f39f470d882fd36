import TimeOff.Verified.Coherence

/-! # The exposed balance

The admission test of a filing compares a whole number of days with a rounded
balance, and rounding commutes with whole numbers; so what is admitted leaves
the rounded remainder at zero or above.  Releases only raise it, and a snapshot
lowers it below zero exactly when it reports drift.
-/

set_option autoImplicit false

namespace TimeOff

open TimeOff.Lib BalancesRepository BalancesService TimeOffService

/-- The balance that `getEffectiveBalance` exposes for the key, if any, is not negative. -/
def ExposedNonneg (key : Key) (db : Db) : Prop :=
  ∀ exposed ∈ (getEffectiveBalance key db).toOption, 0 ≤ exposed.effectiveBalance

instance (key : Key) (db : Db) : Decidable (ExposedNonneg key db) :=
  inferInstanceAs (Decidable (∀ exposed ∈ (getEffectiveBalance key db).toOption, _))

/-- A snapshot of the key was heeded and reported as drift. -/
def DriftReported (key : Key) (results : List SnapshotResult) : Prop :=
  ∃ result ∈ results, result.balance.key = key ∧ result.ignored ≠ some true ∧
    result.negativeDrift = true

instance (key : Key) (results : List SnapshotResult) : Decidable (DriftReported key results) :=
  inferInstanceAs (Decidable (∃ result ∈ results, _))

theorem exposedNonneg_iff {key : Key} {db : Db} :
    ExposedNonneg key db ↔ ∀ bal, findBalance key db = some bal →
      0 ≤ round (bal.hcmBalance - sumOpenReservations key db) := by
  simp only [ExposedNonneg, getEffectiveBalance]
  cases found : findBalance key db with
  | none => simp [Except.toOption]
  | some bal => simp [Except.toOption]

/-! ## What every reservation satisfies -/

/-- Reservations are of a positive number of whole days. -/
def WholeDays (db : Db) : Prop := ∀ row ∈ db.reservations.rows, ∃ n : ℕ, 0 < n ∧ row.days = n

/-- Settling touches the state and the time of the update only. -/
theorem settledReservation_column {α : Type} (column : ReservationRow → α)
    (keeps : ∀ row state now, column { row with state := state, updatedAt := now } = column row)
    (id : String) (closes : Option ReservationState) (now : Int) (reservation : ReservationRow) :
    column (settledReservation id closes now reservation) = column reservation := by
  cases closes with
  | none => rfl
  | some closed =>
    simp only [settledReservation, patchRow]
    split
    · exact keeps reservation closed now
    · rfl

theorem settledReservation_days (id : String) (closes : Option ReservationState) (now : Int)
    (reservation : ReservationRow) :
    (settledReservation id closes now reservation).days = reservation.days :=
  settledReservation_column ReservationRow.days (fun _ _ _ => rfl) id closes now reservation

theorem settledReservation_key (id : String) (closes : Option ReservationState) (now : Int)
    (reservation : ReservationRow) :
    (settledReservation id closes now reservation).key = reservation.key :=
  settledReservation_column ReservationRow.key (fun _ _ _ => rfl) id closes now reservation

/-- Settling opens nothing: the rows it changes were open. -/
theorem settledReservation_open {id : String} {closes : Option ReservationState} {now : Int}
    {reservation : ReservationRow} (isOpen : (settledReservation id closes now reservation).state = .open) :
    reservation.state = .open := by
  simp only [settledReservation, patchRow] at isOpen
  cases closes with
  | none => exact isOpen
  | some closed =>
    dsimp only at isOpen
    split at isOpen
    next hit => exact (of_decide_eq_true hit).2
    next miss => exact isOpen

theorem WholeDays.filed {row : RequestRow} {now : Int} {db after : Db} (whole : WholeDays db)
    (filed : Filed row now db after) : WholeDays after := by
  intro reservation member
  rw [filed.reservations, SerialTable.rows_append, List.mem_append, List.mem_singleton] at member
  obtain old | rfl := member
  · exact whole reservation old
  · exact filed.whole

theorem WholeDays.moved {before : RequestRow} {toState : State} {now : Int} {patch : StatePatch}
    {db after : Db} (whole : WholeDays db) (moved : Moved before toState now patch db after) :
    WholeDays after := by
  intro reservation member
  rw [moved.reservations_rows] at member
  obtain ⟨old, oldIn, rfl⟩ := List.mem_map.mp member
  rw [settledReservation_days]
  exact whole old oldIn

theorem WholeDays.congr {db after : Db} (whole : WholeDays db)
    (same : after.reservations = db.reservations) : WholeDays after := by
  rw [WholeDays, same]
  exact whole

theorem WholeDays.effect {db after : Db} {results : List SnapshotResult} (whole : WholeDays db)
    (effect : Effect db results after) : WholeDays after := by
  refine effect.preserves ?_ ?_ ?_ ?_ whole
  · intro row now db after holds filed
    exact holds.filed filed
  · intro before toState now patch db after holds moved
    exact holds.moved moved
  · intro snapshot now result db after holds applied
    exact holds.congr applied.reservations
  · intro db after holds requeued
    exact holds.congr requeued.reservations

theorem WholeDays.empty : WholeDays Db.empty := by simp [WholeDays, Db.empty]

theorem WholeDays.nonneg {db : Db} (whole : WholeDays db) :
    ∀ row ∈ db.reservations.rows, 0 ≤ row.days := by
  intro row member
  obtain ⟨n, _, days⟩ := whole row member
  rw [days]
  exact Nat.cast_nonneg n

/-! ## The open days of a key -/

theorem sumOpenReservations_filed {row : RequestRow} {now : Int} {db after : Db}
    (filed : Filed row now db after) (key : Key) :
    sumOpenReservations key after =
      sumOpenReservations key db + if row.key = key then row.days else 0 := by
  simp only [sumOpenReservations]
  rw [filed.reservations, SerialTable.rows_append, List.filter_append, List.map_append,
    List.sum_append]
  split
  next own => simp [List.filter, openFor, own]
  next other => simp [List.filter, openFor, other]

/-- Rows that are settled leave the sum, and no row enters it. -/
theorem sum_settled_le (id : String) (closes : Option ReservationState) (now : Int) (key : Key)
    {rows : List ReservationRow} (nonneg : ∀ row ∈ rows, 0 ≤ row.days) :
    (((rows.map (settledReservation id closes now)).filter (openFor key)).map ReservationRow.days).sum ≤
      ((rows.filter (openFor key)).map ReservationRow.days).sum := by
  induction rows with
  | nil => exact le_refl _
  | cons row rest inductionHypothesis =>
    have smaller := inductionHypothesis fun other member => nonneg other (List.mem_cons_of_mem _ member)
    have headNonneg := nonneg row List.mem_cons_self
    rw [List.map_cons, List.filter_cons, List.filter_cons]
    split
    next counted =>
      -- counted after settling, hence open and counted before
      have stillCounted : openFor key row = true := by
        simp only [openFor] at counted ⊢
        rw [settledReservation_key, decide_eq_true_eq] at counted
        simpa using ⟨counted.1, settledReservation_open counted.2⟩
      rw [if_pos stillCounted, List.map_cons, List.map_cons, List.sum_cons, List.sum_cons,
        settledReservation_days]
      linarith
    next =>
      split
      -- a row that leaves the sum takes its days with it
      · rw [List.map_cons, List.sum_cons]
        linarith
      · exact smaller

theorem sumOpenReservations_moved {before : RequestRow} {toState : State} {now : Int}
    {patch : StatePatch} {db after : Db} (whole : WholeDays db)
    (moved : Moved before toState now patch db after) (key : Key) :
    sumOpenReservations key after ≤ sumOpenReservations key db := by
  simp only [sumOpenReservations]
  rw [moved.reservations_rows]
  exact sum_settled_le _ _ _ _ whole.nonneg

/-! ## What each step does to the exposed balance -/

theorem round_mono {p q : ℚ} (le : p ≤ q) : round p ≤ round q := roundAt_mono (by norm_num) le

theorem round_nonneg {q : ℚ} (nonneg : 0 ≤ q) : 0 ≤ round q := roundAt_nonneg (by norm_num) nonneg

/-- Whole days are admitted exactly when the rounded remainder is not negative. -/
theorem admits_iff {q days : ℚ} (whole : ∃ n : ℕ, 0 < n ∧ days = n) :
    days ≤ round q ↔ 0 ≤ round (q - days) := by
  obtain ⟨n, _, rfl⟩ := whole
  exact int_le_roundAt_iff (by norm_num) q n

/-- A filing on the key leaves it with a balance that is not negative, whatever it was before. -/
theorem ExposedNonneg.of_filed {row : RequestRow} {now : Int} {db after : Db}
    (filed : Filed row now db after) : ExposedNonneg row.key after := by
  rw [exposedNonneg_iff]
  intro bal found
  obtain ⟨cached, foundBefore, admitted⟩ := filed.balance
  rw [findBalance_congr filed.balances, foundBefore] at found
  cases found
  rw [sumOpenReservations_filed filed, if_pos rfl, ← sub_sub]
  exact (admits_iff filed.whole).mp admitted

variable {key : Key} {db after : Db}

/-- What the cached balance of the key, if any, leaves beside the open days passes the test. -/
def MarginMeets (admits : ℚ → Prop) (key : Key) (db : Db) : Prop :=
  ∀ bal, findBalance key db = some bal → admits (bal.hcmBalance - sumOpenReservations key db)

theorem exposedNonneg_iff_margin :
    ExposedNonneg key db ↔ MarginMeets (fun margin => 0 ≤ round margin) key db := exposedNonneg_iff

theorem driftReported_append {first second : List SnapshotResult} :
    DriftReported key (first ++ second) ↔ DriftReported key first ∨ DriftReported key second := by
  simp [DriftReported, List.mem_append, or_and_right, exists_or]

section Margin

variable {admits : ℚ → Prop} (upward : ∀ p q, p ≤ q → admits p → admits q)
  (spare : ∀ q, 0 ≤ q → admits q)

theorem MarginMeets.filed_other {row : RequestRow} {now : Int} (meets : MarginMeets admits key db)
    (filed : Filed row now db after) (other : row.key ≠ key) : MarginMeets admits key after := by
  intro bal found
  rw [findBalance_congr filed.balances] at found
  rw [sumOpenReservations_filed filed, if_neg other, add_zero]
  exact meets bal found

theorem MarginMeets.requeued (meets : MarginMeets admits key db) (requeued : Requeued db after) :
    MarginMeets admits key after := by
  intro bal found
  rw [findBalance_congr requeued.balances] at found
  rw [sumOpenReservations_congr requeued.reservations]
  exact meets bal found

include upward in
theorem MarginMeets.moved {before : RequestRow} {toState : State} {now : Int} {patch : StatePatch}
    (meets : MarginMeets admits key db) (whole : WholeDays db)
    (moved : Moved before toState now patch db after) : MarginMeets admits key after := by
  intro bal found
  rw [findBalance_congr moved.balances] at found
  have released := sumOpenReservations_moved whole moved key
  exact upward _ _ (by linarith) (meets bal found)

include spare in
/-- A heeded snapshot without drift covers what is open. -/
theorem MarginMeets.snapshotted {snapshot : HcmSnapshot} {now : Int} {result : SnapshotResult}
    (meets : MarginMeets admits key db) (applied : Snapshotted snapshot now result db after)
    (unflagged : ¬ DriftReported key [result]) : MarginMeets admits key after := by
  intro bal found
  rw [sumOpenReservations_congr applied.reservations]
  by_cases own : key = snapshot.key
  · by_cases stale : result.ignored = some true
    · have cached := applied.cached
      rw [stale] at cached
      rw [cached.findBalance_stale] at found
      exact meets bal found
    · obtain ⟨row, balance, _, foundRow, given, _, rfl, _, _⟩ := applied.cached.findBalance_self stale
      rw [own, foundRow] at found
      cases found
      -- a balance below the open days would have been reported as drift
      have covered : sumOpenReservations key db ≤ bal.hcmBalance := by
        by_contra below
        refine unflagged ⟨result, List.mem_singleton_self _, applied.key.trans own.symm, stale, ?_⟩
        rw [applied.drift, given, ← own]
        exact ⟨stale, by simpa using below⟩
      exact spare _ (by linarith)
  · rw [applied.cached.findBalance_other own] at found
    exact meets bal found

include upward spare in
theorem MarginMeets.healed {results : List SnapshotResult} (meets : MarginMeets admits key db)
    (whole : WholeDays db) (healed : Healed db results after)
    (unflagged : ¬ DriftReported key results) : MarginMeets admits key after := by
  induction healed with
  | done db => exact meets
  | @snapshotted snapshot now result results db middle after applied rest inductionHypothesis =>
    rw [← List.singleton_append, driftReported_append, not_or] at unflagged
    exact inductionHypothesis (meets.snapshotted spare applied unflagged.1)
      (whole.congr applied.reservations) unflagged.2
  | escalated escalation rest inductionHypothesis =>
    exact inductionHypothesis (meets.moved upward whole escalation) (whole.moved escalation) unflagged

include upward spare in
/-- Whatever files nothing keeps the margin, unless it reports drift. -/
theorem MarginMeets.change {results : List SnapshotResult} (meets : MarginMeets admits key db)
    (whole : WholeDays db) (change : Change db results after)
    (unflagged : ¬ DriftReported key results) : MarginMeets admits key after := by
  cases change with
  | moved moved => exact meets.moved upward whole moved
  | healed healed => exact meets.healed upward spare whole healed unflagged
  | requeued requeued => exact meets.requeued requeued

end Margin

theorem ExposedNonneg.filed {row : RequestRow} {now : Int} (nonneg : ExposedNonneg key db)
    (filed : Filed row now db after) : ExposedNonneg key after := by
  by_cases own : row.key = key
  · subst own
    exact .of_filed filed
  · rw [exposedNonneg_iff_margin] at nonneg ⊢
    exact nonneg.filed_other filed own

theorem ExposedNonneg.exec (nonneg : ExposedNonneg key db) (whole : WholeDays db) (call : Call)
    (unflagged : ¬ DriftReported key (call.reports db)) : ExposedNonneg key (call.exec db) := by
  obtain ⟨clock, ids, actor, input, created, rfl, ran⟩ | change := call.change db
  · exact nonneg.filed (createRequest_ok ran)
  · rw [exposedNonneg_iff_margin] at nonneg ⊢
    exact nonneg.change (fun _ _ le held => held.trans (round_mono le)) (fun _ => round_nonneg) whole
      change unflagged

theorem ExposedNonneg.execAll (nonneg : ExposedNonneg key db) (whole : WholeDays db)
    (calls : List Call) (unflagged : ¬ DriftReported key (reportsAll calls db)) :
    ExposedNonneg key (execAll calls db) := by
  induction calls generalizing db with
  | nil => exact nonneg
  | cons call rest inductionHypothesis =>
    rw [reportsAll, driftReported_append, not_or] at unflagged
    exact inductionHypothesis (nonneg.exec whole call unflagged.1) (whole.effect (call.effect db)) unflagged.2

/-- In every reachable state, a call keeps the exposed balance of a key from falling below zero
unless it reports drift of that key, so does any run of calls, and a filing leaves the balance of
its key at zero or above whatever it was. -/
theorem exposed_balance_integrity (earlier : List Call) (key : Key) :
    let db := TimeOff.execAll earlier Db.empty
    (∀ call : Call, ExposedNonneg key db → ¬ DriftReported key (call.reports db) →
      ExposedNonneg key (call.exec db)) ∧
    (∀ clock ids actor input created after,
      createRequest clock ids actor input db = (.ok created, after) → created.row.key = key →
      ∃ exposed, getEffectiveBalance key after = .ok exposed ∧ 0 ≤ exposed.effectiveBalance) ∧
    ∀ later : List Call, ExposedNonneg key db → ¬ DriftReported key (reportsAll later db) →
      ExposedNonneg key (TimeOff.execAll later db) := by
  intro db
  have whole : WholeDays db :=
    execAll_invariant (fun call db holds => holds.effect (call.effect db)) earlier .empty
  refine ⟨?_, ?_, ?_⟩
  · intro call nonneg unflagged
    exact nonneg.exec whole call unflagged
  · intro clock ids actor input created after ran own
    have filed := createRequest_ok ran
    obtain ⟨bal, found, _⟩ := filed.balance
    have nonneg := exposedNonneg_iff.mp (.of_filed filed)
    rw [own] at found nonneg
    rw [← findBalance_congr filed.balances] at found
    exact ⟨_, by rw [getEffectiveBalance, found], nonneg bal found⟩
  · intro later nonneg unflagged
    exact nonneg.execAll whole later unflagged

end TimeOff
