import TimeOff.Verified.BalanceIntegrity
import TimeOff.Verified.Payloads

/-! # Snapshots that cover what is open

A snapshot escalates requests of its own key only, and only when it falls below
the open days of that key.  So a batch whose snapshots of a key cover its open
days leaves the requests of the key in their states.
-/

set_option autoImplicit false

namespace TimeOff

open TimeOff.Lib BalancesRepository BalancesService ReconciliationService TimeOffRepository TimeOffService

/-- The requests of the key keep their states. -/
def Spares (key : Key) (db after : Db) : Prop :=
  ∀ id, Concerns (· = key) db id → requestState id after = requestState id db

variable {key : Key} {db middle after : Db}

theorem Spares.refl (key : Key) (db : Db) : Spares key db db := fun _ _ => rfl

theorem Spares.trans (first : Spares key db middle) (grows : Grows db middle)
    (second : Spares key middle after) : Spares key db after := by
  intro id concerns
  exact (second id (concerns.grows grows)).trans (first id concerns)

theorem Healed.grows {results : List SnapshotResult} (healed : Healed db results after) :
    Grows db after :=
  (Effect.healed healed).grows

theorem Healed.sumOpenReservations_le {results : List SnapshotResult} (healed : Healed db results after)
    (whole : WholeDays db) (key : Key) : sumOpenReservations key after ≤ sumOpenReservations key db := by
  induction healed with
  | done db => exact le_refl _
  | snapshotted applied rest inductionHypothesis =>
    rw [← sumOpenReservations_congr applied.reservations]
    exact inductionHypothesis (whole.congr applied.reservations)
  | escalated moved rest inductionHypothesis =>
    exact (inductionHypothesis (whole.moved moved)).trans (sumOpenReservations_moved whole moved key)

/-! ## Escalations -/

theorem markReviewRequired_other {clock : Clock} {id other reason : String} (different : other ≠ id)
    (db : Db) : requestState other (markReviewRequired clock id reason db).2 = requestState other db := by
  have outcome := markReviewRequired_outcome clock id reason db
  generalize markReviewRequired clock id reason db = result at outcome ⊢
  cases outcome with
  | already row found state => rfl
  | moved before after final found state moved =>
    have beforeId : before.id = id := (Table.find?_eq_some.mp found).2
    rw [moved.requestState_after, if_neg (beforeId ▸ different)]
  | threw failure refused elsewhere unapproved => rfl

theorem escalations_other {clock : String → Clock} {ids : List String} {other : String}
    (absent : other ∉ ids) (db : Db) :
    requestState other
      (ids.foldl (fun db id => (markReviewRequired (clock id) id escalationReason db).2) db) =
      requestState other db := by
  induction ids generalizing db with
  | nil => rfl
  | cons id rest inductionHypothesis =>
    obtain ⟨different, absentRest⟩ := List.ne_and_not_mem_of_not_mem_cons absent
    exact (inductionHypothesis absentRest _).trans (markReviewRequired_other different db)

/-- Another key's escalations are of other requests. -/
theorem not_mem_listApprovedIdsForKey {other : Key} {id : String} (different : other ≠ key)
    (concerns : Concerns (· = key) db id) : id ∉ listApprovedIdsForKey other db := by
  intro listed
  obtain ⟨row, selected, rfl⟩ := List.mem_map.mp listed
  obtain ⟨member, chosen⟩ := List.mem_filter.mp selected
  obtain ⟨request, found, onKey⟩ := concerns
  have foundRow : db.requests.find? row.id = some row := Table.find?_eq_some.mpr ⟨member, rfl⟩
  cases foundRow.symm.trans found
  exact different ((of_decide_eq_true chosen).1.symm.trans onKey)

/-! ## Snapshots with their escalations -/

theorem applyAndEscalate_spares (clock : RowClock) (snapshot : HcmSnapshot)
    (covers : snapshot.key = key → ∀ balance ∈ snapshot.balance, sumOpenReservations key db ≤ balance) :
    Spares key db (applyAndEscalate clock snapshot db).2 := by
  simp only [applyAndEscalate]
  obtain ⟨result, after, ran, applied⟩ | ⟨failure, ran⟩ :=
    applyHcmBalanceSnapshot_cases clock.snapshot snapshot db
  · rw [ran]
    by_cases drift : result.negativeDrift = true
    · simp only [drift, if_true]
      intro id concerns
      -- drift means that the snapshot does not cover the open days, so it is of another key
      have different : snapshot.key ≠ key := by
        intro own
        obtain ⟨_, below⟩ := applied.drift.mp drift
        obtain ⟨balance, given, short⟩ := (Option.any_eq_true _ _).mp below
        have enough := covers own balance given
        rw [own, decide_eq_true_eq] at short
        linarith
      have concernsAfter : Concerns (· = key) after id := by
        obtain ⟨request, found, onKey⟩ := concerns
        exact ⟨request, by rw [applied.requests]; exact found, onKey⟩
      have absent : id ∉ listApprovedIdsForKey result.balance.key after :=
        not_mem_listApprovedIdsForKey (applied.key ▸ different) concernsAfter
      exact (escalations_other absent after).trans (requestState_congr applied.requests id)
    · simp only [drift]
      exact fun id _ => requestState_congr applied.requests id
  · rw [ran]
    exact .refl key db

theorem applyRows_spares {asOf : Option Stamp} {clocks : Nat → RowClock} {rows : List BatchRow}
    (whole : WholeDays db) (covers : ∀ row ∈ rows, row.key = key → ∀ balance ∈ row.balance,
      sumOpenReservations key db ≤ balance) : Spares key db (applyRows asOf clocks rows db).db := by
  induction rows generalizing clocks db with
  | nil => exact .refl key db
  | cons row rest inductionHypothesis =>
    have first : Spares key db
        (applyAndEscalate (clocks 0) (rowSnapshot asOf (clocks 0) row) db).2 :=
      applyAndEscalate_spares (clocks 0) _ (covers row List.mem_cons_self)
    simp only [applyRows]
    obtain ⟨result, after, ran, healed⟩ | ⟨failure, ran⟩ :=
      applyAndEscalate_healed (clocks 0) (rowSnapshot asOf (clocks 0) row) db
    · rw [ran] at first ⊢
      refine first.trans healed.grows (inductionHypothesis (whole.effect (.healed healed)) ?_)
      intro other member own balance given
      exact (healed.sumOpenReservations_le whole key).trans
        (covers other (List.mem_cons_of_mem _ member) own balance given)
    · rw [ran]
      exact .refl key db

theorem handleBatch_spares {clocks : Nat → RowClock} {batch : Batch} (whole : WholeDays db)
    (covers : ∀ row ∈ batch.balances, row.key = key → ∀ balance ∈ row.balance,
      sumOpenReservations key db ≤ balance) :
    Spares key db ((Call.handleBatch clocks batch).exec db) := by
  rw [Call.exec, handleBatch_db]
  exact applyRows_spares whole covers

theorem reconcileKey_spares {clock : RowClock} {other : Key} {reply : Reply BalanceView}
    (covers : other = key → ∀ balance ∈ readable other reply,
      sumOpenReservations key db ≤ balance) :
    Spares key db ((Call.reconcileKey clock other reply).exec db) := by
  simp only [Call.exec, reconcileKey]
  simp only [readable] at covers
  cases answered : HcmClient.getBalance other reply with
  | error failure => exact .refl key db
  | ok value =>
    cases value with
    | none => exact .refl key db
    | some view =>
      rw [answered] at covers
      have spares := applyAndEscalate_spares clock
        { key := other, balance := view.balance, asOf := view.asOf.getD (.ms clock.fallback)
          source := .hcmPull } covers
      dsimp only
      split
      next failure final ran =>
        rw [ran] at spares
        exact spares
      next result final ran =>
        rw [ran] at spares
        exact spares

end TimeOff
