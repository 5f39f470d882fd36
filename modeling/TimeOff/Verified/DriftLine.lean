import TimeOff.Verified.DoubleCountedDrift
import TimeOff.Verified.FilingReply

/-! # Where drift begins

The read paths and the admission of a filing round what a balance leaves to
cents; `applyHcmBalanceSnapshot` compares the balance itself.  The two differ on
a balance that is short by half a cent or less.
-/

set_option autoImplicit false

namespace TimeOff

open TimeOff.Lib BalancesRepository BalancesService ReconciliationService TimeOffService

/-- `getEffectiveBalance` shows a negative balance of the key. -/
def ShownNegative (key : Key) (db : Db) : Prop :=
  ∃ exposed ∈ (getEffectiveBalance key db).toOption, exposed.effectiveBalance < 0

instance (key : Key) (db : Db) : Decidable (ShownNegative key db) :=
  inferInstanceAs (Decidable (∃ exposed ∈ (getEffectiveBalance key db).toOption, _))

/-- What is left is negative, and rounds to zero. -/
def LostInRounding (rest : ℚ) : Prop := -(1 / 200) ≤ rest ∧ rest < 0

instance (rest : ℚ) : Decidable (LostInRounding rest) := inferInstanceAs (Decidable (_ ∧ _))

variable {db after : Db} {snapshot : HcmSnapshot} {result : SnapshotResult}

theorem round_neg_iff (q : ℚ) : round q < 0 ↔ q < -(1 / 200) := by
  have line := @roundAt_neg_iff 100 (by norm_num) q
  norm_num at line ⊢
  exact line

theorem shownNegative_iff {key : Key} {bal : BalanceRow} (found : findBalance key db = some bal) :
    ShownNegative key db ↔ bal.hcmBalance - sumOpenReservations key db < -(1 / 200) := by
  rw [← round_neg_iff]
  simp [ShownNegative, getEffectiveBalance, found, Except.toOption]

/-- A heeded snapshot flags drift when what it leaves is negative, and afterwards that is shown rounded. -/
theorem Snapshotted.agrees_iff {now : Int} {balance : ℚ} (applied : Snapshotted snapshot now result db after)
    (unignored : result.ignored ≠ some true) (given : snapshot.balance = some balance) :
    (result.negativeDrift = true ↔ ShownNegative snapshot.key after) ↔
      ¬ LostInRounding (balance - sumOpenReservations snapshot.key db) := by
  obtain ⟨row, _, _, found, sameGiven, _, rfl, _⟩ := applied.cached.findBalance_self unignored
  obtain rfl : row.hcmBalance = balance := Option.some.inj (sameGiven.symm.trans given)
  rw [shownNegative_iff found, sumOpenReservations_congr applied.reservations, applied.drift, given,
    LostInRounding]
  simp only [ne_eq, unignored, not_false_eq_true, Option.any_some, decide_eq_true_eq, true_and]
  have short : row.hcmBalance < sumOpenReservations snapshot.key db ↔
    row.hcmBalance - sumOpenReservations snapshot.key db < 0 := sub_neg.symm
  rw [short]
  generalize row.hcmBalance - sumOpenReservations snapshot.key db = rest
  constructor
  · intro same ⟨above, negative⟩
    have below := same.mp negative
    linarith
  · intro clear
    constructor
    · intro negative
      by_contra above
      exact clear ⟨not_lt.mp above, negative⟩
    · intro below
      linarith

/-- An escalation leaves a trace only if the drift was reported. -/
theorem calm_iff {clock : RowClock} (ran : applyAndEscalate clock snapshot db = (.ok result, after)) :
    result.negativeDrift = false ∧ after.requests = db.requests ↔ result.negativeDrift = false :=
  and_iff_left_of_imp (applyAndEscalate_calm ran)

/-- Delivering the cached balance again right after a filing is calm exactly if the balance covers
the days that are open then. -/
theorem Filed.redelivery_calm_iff {row : RequestRow} {now : Int} {bal : BalanceRow} {clock : RowClock}
    {final : Db} (filed : Filed row now db after) (found : findBalance row.key db = some bal)
    (own : snapshot.key = row.key) (given : snapshot.balance = some bal.hcmBalance)
    (unignored : result.ignored ≠ some true)
    (ran : applyAndEscalate clock snapshot after = (.ok result, final)) :
    (result.negativeDrift = false ∧ final.requests = after.requests) ↔
      ¬ LostInRounding (bal.hcmBalance - (sumOpenReservations row.key db + row.days)) := by
  obtain ⟨middle, went, _⟩ := applyAndEscalate_result ran
  have applied := applyHcmBalanceSnapshot_ok went
  have reserved : sumOpenReservations row.key after = sumOpenReservations row.key db + row.days := by
    rw [sumOpenReservations_filed filed, if_pos rfl]
  -- what was admitted is not shown as negative
  have shown : ¬ ShownNegative row.key after := by
    intro negative
    obtain ⟨exposed, exposes, below⟩ := negative
    exact absurd below (not_lt.mpr (ExposedNonneg.of_filed filed exposed exposes))
  rw [shownNegative_iff ((findBalance_congr filed.balances row.key).trans found), reserved] at shown
  rw [calm_iff ran, ← Bool.not_eq_true, not_iff_not, applied.drift, given, own, reserved, LostInRounding]
  simp only [ne_eq, unignored, not_false_eq_true, Option.any_some, decide_eq_true_eq, true_and]
  constructor
  · intro short
    exact ⟨not_lt.mp shown, sub_neg.mpr short⟩
  · intro lost
    exact sub_neg.mp lost.2

/-- In every reachable state a heeded snapshot reports drift exactly when the balance shown
afterwards is negative, except if what it leaves is lost in rounding; and the cached balance
delivered again after an accepted filing is calm with the same exception. -/
theorem drift_agrees_with_reads_iff (earlier : List Call) :
    let db := execAll earlier Db.empty
    (∀ clock snapshot, ∀ balance ∈ snapshot.balance, Heeded snapshot db →
      ∃ result after, applyHcmBalanceSnapshot clock snapshot db = (.ok result, after) ∧
        result.ignored ≠ some true ∧
        ((result.negativeDrift = true ↔ ShownNegative snapshot.key after) ↔
          ¬ LostInRounding (balance - sumOpenReservations snapshot.key db))) ∧
    ∀ clock ids actor input created after, createRequest clock ids actor input db = (.ok created, after) →
      ∃ bal ∈ findBalance created.row.key db, ∀ (rowClock : RowClock) (snapshot : HcmSnapshot),
        snapshot.key = created.row.key → snapshot.balance = some bal.hcmBalance → Heeded snapshot after →
        ∃ result final, applyAndEscalate rowClock snapshot after = (.ok result, final) ∧
          (result.negativeDrift = false ∧ final.requests = after.requests ↔
            ¬ LostInRounding
              (bal.hcmBalance - (sumOpenReservations created.row.key db + created.row.days))) := by
  intro db
  constructor
  · intro clock snapshot balance given heeded
    obtain ⟨result, after, ran, applied, unignored⟩ := heeded.applied clock
    exact ⟨result, after, ran, unignored, applied.agrees_iff unignored given⟩
  · intro clock ids actor input created after ran
    have filed := createRequest_ok ran
    obtain ⟨bal, found, _⟩ := filed.balance
    refine ⟨bal, found, ?_⟩
    intro rowClock snapshot own given heeded
    obtain ⟨result, middle, went, applied, unignored⟩ := heeded.applied rowClock.snapshot
    obtain ⟨final, ranAll⟩ := applyAndEscalate_of_applied went
    exact ⟨result, final, ranAll, filed.redelivery_calm_iff found own given unignored ranAll⟩

namespace Office

/-- The balance that HCM reports after an accrual. -/
def accrued : ℚ := 99998 / 10000

/-- Five days filed under this id. -/
def fileWeek (id : String) : Call :=
  .createRequest clock ⟨id, "trace"⟩ employee ⟨"HQ", "vacation", "2026-05-04", "2026-05-08", none⟩

end Office

/-- Ten days are admitted against 9.9998, and the same snapshot delivered again reports drift and sends
the approved half to review, while the balance shown is zero. -/
theorem redelivery_flags_admitted :
    let db := execAll [Office.snapshot Office.accrued 0, Office.fileWeek "r1", Office.approve "r1" "x1",
      Office.fileWeek "r2"] Db.empty
    let redelivered := applyAndEscalate ⟨0, Office.clock, fun _ => Office.clock⟩
      { key := Office.key, balance := some Office.accrued, asOf := .ms 0 } db
    requestState "r1" db = some .approved ∧ requestState "r2" db = some .pending ∧
    (∃ result ∈ redelivered.1.toOption, result.ignored = some false ∧ result.negativeDrift = true) ∧
    (∃ exposed ∈ (getEffectiveBalance Office.key redelivered.2).toOption, exposed.effectiveBalance = 0) ∧
    requestState "r1" redelivered.2 = some .reviewRequired := by
  decide +kernel

end TimeOff
