import TimeOff.Verified.BalanceIntegrity
import TimeOff.System.World

/-! # The reply to a filing

`createRequest` computes the balance it returns from the sum of the open days
before the insert, rounding twice; the read paths sum the reservations again and
round once.  The days are whole, so the two agree.
-/

set_option autoImplicit false

namespace TimeOff

open TimeOff.Lib BalancesRepository BalancesService TimeOffService

variable {key : Key} {db after : Db}

/-! ## One balance row for each key -/

/-- UNIQUE (employee_id, location_id, leave_type), which only inserts could break. -/
def UniqueKeys (db : Db) : Prop := (db.balances.rows.map BalanceRow.key).Nodup

theorem UniqueKeys.empty : UniqueKeys Db.empty := by simp [UniqueKeys, Db.empty]

theorem UniqueKeys.congr (unique : UniqueKeys db) (same : after.balances = db.balances) :
    UniqueKeys after := by
  rw [UniqueKeys, same]
  exact unique

theorem UniqueKeys.snapshotted {snapshot : HcmSnapshot} {now : Int} {result : SnapshotResult}
    (unique : UniqueKeys db) (applied : Snapshotted snapshot now result db after) : UniqueKeys after := by
  have cached := applied.cached
  generalize result.ignored = ignored at cached
  cases cached with
  | first balance stamp absent given nonneg stored cached =>
    -- a row is inserted only when its key has none
    have fresh : snapshot.key ∉ db.balances.rows.map BalanceRow.key := by
      intro taken
      obtain ⟨row, member, own⟩ := List.mem_map.mp taken
      have missed := List.find?_eq_none.mp absent row member
      simp [own] at missed
    rw [UniqueKeys, cached, SerialTable.rows_append, List.map_append]
    apply List.Nodup.append unique (List.nodup_singleton _)
    simpa using fresh
  | stale row found older cached => exact unique.congr cached
  | newer row balance stamp found current given nonneg stored cached =>
    have keys : after.balances.rows.map BalanceRow.key = db.balances.rows.map BalanceRow.key := by
      rw [cached, SerialTable.rows_update, List.map_map]
      apply List.map_congr_left
      intro other _
      simp only [Function.comp, patchRow]
      split <;> rfl
    rw [UniqueKeys, keys]
    exact unique

theorem UniqueKeys.effect {results : List SnapshotResult} (unique : UniqueKeys db)
    (effect : Effect db results after) : UniqueKeys after := by
  refine effect.preserves ?_ ?_ ?_ ?_ unique
  · intro row now db after holds filed
    exact holds.congr filed.balances
  · intro before toState now patch db after holds moved
    exact holds.congr moved.balances
  · intro snapshot now result db after holds applied
    exact holds.snapshotted applied
  · intro db after holds requeued
    exact holds.congr requeued.balances

theorem UniqueKeys.execAll (calls : List Call) : UniqueKeys (execAll calls Db.empty) :=
  execAll_invariant (fun call db holds => holds.effect (call.effect db)) calls .empty

theorem UniqueKeys.filter_key (unique : UniqueKeys db) {row : BalanceRow}
    (member : row ∈ db.balances.rows) :
    db.balances.rows.filter (fun other => other.key = row.key) = [row] := by
  have paired : List.Forall₂ Eq db.balances.rows db.balances.rows := List.forall₂_same.mpr fun _ _ => rfl
  have agree : ∀ first second : BalanceRow, first = second → second.key = first.key := by
    rintro _ _ rfl
    rfl
  obtain ⟨_, only, rfl⟩ := lockstep_unique paired agree unique member
  exact only

/-! ## The list of an employee -/

/-- What the read paths say of a balance row. -/
def BalanceRow.shown (db : Db) (bal : BalanceRow) : EffectiveBalance :=
  ⟨bal, sumOpenReservations bal.key db, round (bal.hcmBalance - sumOpenReservations bal.key db)⟩

theorem getEffectiveBalance_ok {exposed : EffectiveBalance} :
    getEffectiveBalance key db = .ok exposed ↔
      ∃ bal, findBalance key db = some bal ∧ exposed = bal.shown db := by
  simp only [getEffectiveBalance]
  cases found : findBalance key db with
  | none => simp
  | some bal => simp [BalanceRow.shown, findBalance_key found, eq_comm]

/-- The list of an employee holds one entry of a key of his with a balance. -/
theorem UniqueKeys.entry (unique : UniqueKeys db) {bal : BalanceRow}
    (found : findBalance key db = some bal) :
    (getEffectiveBalancesForEmployee (some key.employeeId) db).filter
      (fun entry => entry.balance.key = key) = [bal.shown db] := by
  have own : bal.key = key := findBalance_key found
  have rows := unique.filter_key (List.mem_of_find?_eq_some found)
  have listed : (listBalancesForEmployee (some key.employeeId) db).filter (fun row => row.key = key) =
      [bal] := by
    apply List.perm_singleton.mp
    apply ((List.perm_insertionSort _ _).filter _).trans
    rw [List.filter_filter, ← rows]
    apply List.Perm.of_eq
    apply List.filter_congr
    intro row _
    by_cases same : row.key = key
    · simp [same, own]
    · simp [same, own]
  simp only [getEffectiveBalancesForEmployee, List.filter_map]
  exact congrArg (List.map (BalanceRow.shown db)) listed

/-! ## The reply -/

theorem createRequest_reply {clock : Clock} {ids : NewIds} {actor : Actor} {input : CreateInput}
    {created : CreatedRequest}
    (ran : createRequest clock ids actor input db = (.ok created, after)) :
    countDaysInclusive input.startDate input.endDate = .ok created.row.days ∧
      ∃ bal, findBalance created.row.key db = some bal ∧
        created.effectiveBalanceAfter = round ((bal.shown db).effectiveBalance - created.row.days) := by
  obtain ⟨days, employeeId, bal, requests, counted, -, row, found, -, reply, -⟩ := createRequest_inv ran
  have daysIs : created.row.days = days := congrArg RequestRow.days row
  refine ⟨by rw [daysIs]; exact counted, bal, found, ?_⟩
  rw [reply, daysIs, BalanceRow.shown, findBalance_key found]

/-- Rounding the rounded balance less whole days is rounding once. -/
theorem round_round_sub (q : ℚ) (n : ℕ) :
    round (round q - n) = round (q - n) ∧ round (q - n) = round q - n := by
  have positive : 0 < 100 := by norm_num
  have once : round (q - n) = round q - n := by exact_mod_cast roundAt_sub_int positive q n
  have again : round (round q - n) = round (round q) - n := by
    exact_mod_cast roundAt_sub_int positive (round q) n
  rw [again, once, show round (round q) = round q from roundAt_idem positive q]
  exact ⟨rfl, rfl⟩

/-- In every reachable state the balance that a filing returns is the one that both read paths show
afterwards for its key and the one shown before less the days; what they show of other keys stays. -/
theorem reply_agrees_with_reads (earlier : List Call) (clock : Clock) (ids : NewIds) (actor : Actor)
    (input : CreateInput) (created : CreatedRequest) (after : Db)
    (ran : createRequest clock ids actor input (execAll earlier Db.empty) = (.ok created, after)) :
    let db := execAll earlier Db.empty
    let key := created.row.key
    ∃ before exposed,
      getEffectiveBalance key db = .ok before ∧
      getEffectiveBalance key after = .ok exposed ∧
      countDaysInclusive input.startDate input.endDate = .ok created.row.days ∧
      created.effectiveBalanceAfter = exposed.effectiveBalance ∧
      created.effectiveBalanceAfter = before.effectiveBalance - created.row.days ∧
      (getEffectiveBalancesForEmployee (some key.employeeId) after).filter
        (fun entry => entry.balance.key = key) = [exposed] ∧
      (∀ employeeId, getEffectiveBalancesForEmployee employeeId after =
        (getEffectiveBalancesForEmployee employeeId db).map fun entry =>
          if entry.balance.key = key then exposed else entry) ∧
      ∀ other, other ≠ key → getEffectiveBalance other after = getEffectiveBalance other db := by
  intro db key
  have filed := createRequest_ok ran
  obtain ⟨counted, bal, found, reply⟩ := createRequest_reply ran
  obtain ⟨n, _, isDays⟩ := filed.whole
  have own : bal.key = key := findBalance_key found
  have unique : UniqueKeys db := .execAll earlier
  have foundAfter : findBalance key after = some bal := (findBalance_congr filed.balances key).trans found
  have others : ∀ other, other ≠ key → sumOpenReservations other after = sumOpenReservations other db := by
    intro other different
    rw [sumOpenReservations_filed filed, if_neg (Ne.symm different), add_zero]
  have reserved : sumOpenReservations key after = sumOpenReservations key db + created.row.days := by
    rw [sumOpenReservations_filed filed, if_pos rfl]
  have exposedAfter : (bal.shown after).effectiveBalance =
      round (bal.hcmBalance - sumOpenReservations key db - n) := by
    simp only [BalanceRow.shown]
    rw [own, reserved, isDays, ← sub_sub]
  have exposedBefore : (bal.shown db).effectiveBalance =
      round (bal.hcmBalance - sumOpenReservations key db) := by rw [BalanceRow.shown, own]
  obtain ⟨once, whole⟩ := round_round_sub (bal.hcmBalance - sumOpenReservations key db) n
  rw [exposedBefore, isDays, once] at reply
  refine ⟨bal.shown db, bal.shown after, getEffectiveBalance_ok.mpr ⟨bal, found, rfl⟩,
    getEffectiveBalance_ok.mpr ⟨bal, foundAfter, rfl⟩, counted, ?_, ?_, ?_, ?_, ?_⟩
  · rw [reply, exposedAfter]
  · rw [reply, exposedBefore, isDays, whole]
  · exact (unique.congr filed.balances).entry foundAfter
  · intro employeeId
    simp only [getEffectiveBalancesForEmployee, listBalancesForEmployee, filed.balances, List.map_map]
    apply List.map_congr_left
    intro row listed
    have member := List.mem_of_mem_filter ((List.perm_insertionSort _ _).mem_iff.mp listed)
    by_cases same : row.key = key
    -- the key has one row, so this is the one that was read
    · have sameRow : row = bal :=
        List.inj_on_of_nodup_map unique member (List.mem_of_find?_eq_some found) (same.trans own.symm)
      simp only [Function.comp, same, if_true]
      rw [sameRow, BalanceRow.shown, own]
    · simp only [Function.comp, same, if_false, others row.key same]
  · intro other different
    rw [getEffectiveBalance, getEffectiveBalance, findBalance_congr filed.balances, others other different]

/-- Ten days filed against ten and a sixth. -/
theorem reply_agrees_office :
    ∃ created after exposed,
      createRequest Office.clock ⟨"r1", "trace"⟩ Office.employee
        ⟨"HQ", "vacation", "2026-05-01", "2026-05-10", none⟩
        (execAll [Office.snapshot (61 / 6) 0] Db.empty) = (.ok created, after) ∧
      getEffectiveBalance created.row.key after = .ok exposed ∧
      created.effectiveBalanceAfter = exposed.effectiveBalance := by
  have accepted : (createRequest Office.clock ⟨"r1", "trace"⟩ Office.employee
      ⟨"HQ", "vacation", "2026-05-01", "2026-05-10", none⟩
      (execAll [Office.snapshot (61 / 6) 0] Db.empty)).1.toOption.isSome = true := by decide +kernel
  cases ran : createRequest Office.clock ⟨"r1", "trace"⟩ Office.employee
      ⟨"HQ", "vacation", "2026-05-01", "2026-05-10", none⟩
      (execAll [Office.snapshot (61 / 6) 0] Db.empty) with
  | mk outcome after =>
    rw [ran] at accepted
    cases outcome with
    | error failure => cases accepted
    | ok created =>
      obtain ⟨_, exposed, _, shown, _, agrees, _⟩ :=
        reply_agrees_with_reads [Office.snapshot (61 / 6) 0] _ _ _ _ created after ran
      exact ⟨created, after, exposed, rfl, shown, agrees⟩

end TimeOff
