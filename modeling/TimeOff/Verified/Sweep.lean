import TimeOff.Lib.Simulation
import TimeOff.Verified.BatchEffect
import TimeOff.Verified.Consistency
import TimeOff.Verified.Isolation

/-! # A sweep over all keys

`reconcileActive` asks HCM for one key after the other, and each key changes at its own turn only.  A
sweep that reaches back to the oldest open reservation, and that its limit does not cut off, asks for
every key on which days are reserved.  So it leaves nothing APPROVED that HCM does not cover.
-/

set_option autoImplicit false

namespace TimeOff.Lib

theorem nodup_eraseDups {α : Type} [DecidableEq α] (l : List α) : l.eraseDups.Nodup := by
  induction measured : l.length using Nat.strongRecOn generalizing l with
  | ind n inductionHypothesis =>
    cases l with
    | nil => exact List.nodup_nil
    | cons a rest =>
      -- the first element is filtered out of the rest, which gets shorter
      rw [List.eraseDups_cons, List.nodup_cons]
      refine ⟨by simp [List.mem_eraseDups], inductionHypothesis _ ?_ _ rfl⟩
      rw [← measured, List.length_cons]
      exact Nat.lt_succ_of_le (List.length_filter_le _ rest)

end TimeOff.Lib

namespace TimeOff

open TimeOff.Lib BalancesRepository BalancesService ReconciliationService

/-- HCM tells its balance of the key, dated no earlier than what is cached, and nothing else runs while
it is asked. -/
structure Tells (hcm : Key → ℚ) (db : Db) (answer : PullAnswer) : Prop where
  quiet : answer.meanwhile = []
  nonneg : 0 ≤ hcm answer.key
  readable : ∃ view time, HcmClient.getBalance answer.key answer.reply = .ok (some view) ∧
    view.balance = some (hcm answer.key) ∧ (answer.brings view).asOf = .ms time ∧
    ∀ row ∈ findBalance answer.key db, (Stamp.ms time).lt row.hcmSnapshotAt = false

/-- HCM is asked for every key that changed since a time before the last change of every open
reservation. -/
structure FullSweep (hcm : Key → ℚ) (now sinceMs : Int) (limit : Nat) (answers : List PullAnswer)
    (db : Db) : Prop where
  keys : answers.map PullAnswer.key = reconcileActive now sinceMs limit db
  reachesBack : ∀ row ∈ db.reservations.rows, row.state = .open → now - sinceMs ≤ row.updatedAt
  uncut : (activeKeysSince (now - sinceMs) db).length ≤ limit
  tells : ∀ answer ∈ answers, Tells hcm db answer

/-- What pulling these keys comes to. -/
structure Swept (hcm : Key → ℚ) (keys : List Key) (db after : Db) : Prop where
  cached : ∀ key ∈ keys, ∃ row, findBalance key after = some row ∧ row.hcmBalance = hcm key
  others : ∀ key, key ∉ keys → findBalance key after = findBalance key db
  reviews : Reviews (fun _ key => key ∈ keys ∧ hcm key < sumOpenReservations key db) db after

variable {hcm : Key → ℚ} {db middle after : Db} {answer : PullAnswer} {answers : List PullAnswer}
  {now sinceMs : Int} {limit : Nat}

/-! ## One key -/

/-- A reading that is not ignored is what the cache holds from then on. -/
theorem findBalance_takesIn {snapshot : HcmSnapshot} {result : SnapshotResult}
    (takesIn : TakesIn snapshot result db after)
    (heeded : snapshot.reading.ignored (cells db) ≠ some true) :
    ∃ row, findBalance snapshot.key after = some row ∧ row.reading = snapshot.reading := by
  -- a reading that what is cached outranks would have been ignored
  have current : Register.outranks Reading.rank (cells db snapshot.key) snapshot.reading = false := by
    rw [← Bool.not_eq_true]
    intro outranked
    exact heeded ((outranks_reading (cells db) snapshot.reading).mp outranked)
  have held : cells after snapshot.key = some snapshot.reading := by
    rw [takesIn.cells, cellsAfter, Registers.putAll, List.foldl_cons, List.foldl_nil, Registers.put,
      snapshot.reading_key, Function.update_self]
    exact Register.write_of_not_outranks current
  exact Option.map_eq_some_iff.mp held

theorem Tells.heeded (tells : Tells hcm db answer) : ∃ view time,
    HcmClient.getBalance answer.key answer.reply = .ok (some view) ∧ view.balance = some (hcm answer.key) ∧
      (answer.brings view).asOf = .ms time ∧ (answer.brings view).reading.ignored (cells db) ≠ some true := by
  obtain ⟨view, time, got, told, dated, current⟩ := tells.readable
  refine ⟨view, time, got, told, dated, ?_⟩
  rw [ignored_reading dated]
  intro stale
  obtain ⟨row, found, older⟩ := Option.map_eq_some_iff.mp stale
  rw [dated] at older
  cases (current row found).symm.trans older

theorem Tells.swept (tells : Tells hcm db answer) : ∃ result after,
    reconcileKey answer.clock answer.key answer.reply (execAll answer.meanwhile db) =
      (.ok (.applied result), after) ∧ Swept hcm [answer.key] db after := by
  obtain ⟨view, time, got, told, dated, heeded⟩ := tells.heeded
  have passes : (answer.brings view).reading.Passes (cells db) := .inr ⟨hcm answer.key, told, tells.nonneg⟩
  obtain ⟨_, result, after, ran⟩ | ⟨fails, _⟩ := applyAndEscalate_passes dated answer.clock db
  · have takesIn := applyAndEscalate_takesIn dated ran
    refine ⟨result, after, ?_, ?_, ?_, ?_⟩
    · simp only [PullAnswer.brings] at ran
      simp only [reconcileKey, got, tells.quiet, execAll, List.foldl_nil, ran]
    · intro key member
      rw [List.mem_singleton.mp member]
      obtain ⟨row, found, same⟩ := findBalance_takesIn takesIn heeded
      refine ⟨row, found, ?_⟩
      exact Option.some.inj ((congrArg Reading.balance same).trans told)
    · intro key other
      exact takesIn.others key fun same => other (List.mem_singleton.mpr same)
    · apply takesIn.reviews.congr
      intro row _ _
      -- the drift is that of the balance that HCM told, against what was reserved before
      rw [takesIn.drift, Reading.Drifts, and_iff_right heeded]
      have balance : (answer.brings view).reading.balance = some (hcm answer.key) := told
      have sameKey : (answer.brings view).key = answer.key := rfl
      rw [balance, HcmSnapshot.reading_key, sameKey, List.mem_singleton, and_comm]
      apply and_congr_right
      intro own
      rw [own]
      simp
  · exact absurd passes fails

/-! ## The loop -/

theorem Swept.cons {key : Key} {rest : List Key} (first : Swept hcm [key] db middle)
    (later : Swept hcm rest middle after) (fresh : key ∉ rest) : Swept hcm (key :: rest) db after := by
  refine ⟨?_, ?_, ?_⟩
  · rw [List.forall_mem_cons, later.others key fresh]
    exact ⟨first.cached key (List.mem_singleton_self key), later.cached⟩
  · intro other absent
    rw [List.mem_cons, not_or] at absent
    rw [later.others other absent.2]
    exact first.others other (by simpa using absent.1)
  · apply (first.reviews.trans later.reviews).congr
    intro row _ _
    -- escalations leave the reservations, so both parts compare with the same sums
    have reserved := sumOpenReservations_congr first.reviews.reservations row.key
    rw [reserved, List.mem_singleton, List.mem_cons, or_and_right]

/-- Another key's turn leaves what is cached of this one. -/
theorem Tells.kept {keys : List Key} (tells : Tells hcm db answer) (swept : Swept hcm keys db middle)
    (other : answer.key ∉ keys) : Tells hcm middle answer := by
  obtain ⟨view, time, got, told, dated, current⟩ := tells.readable
  refine ⟨tells.quiet, tells.nonneg, view, time, got, told, dated, ?_⟩
  rw [swept.others answer.key other]
  exact current

theorem FullSweep.covers (sweep : FullSweep hcm now sinceMs limit answers db) (coherent : Coherent db)
    {request : RequestRow} (member : request ∈ db.requests.rows)
    (holding : request.state.reservation = .open) : request.key ∈ answers.map PullAnswer.key := by
  obtain ⟨reservation, reservationIn, pair⟩ := coherent.exists_reservation member
  -- the open reservation of the request is recent enough, so its key is among those asked for
  have recent := sweep.reachesBack reservation reservationIn (pair.state.trans holding)
  rw [sweep.keys, reconcileActive, List.take_of_length_le sweep.uncut, activeKeysSince, List.mem_eraseDups,
    List.mem_append]
  right
  exact List.mem_map.mpr ⟨reservation, List.mem_filter.mpr ⟨reservationIn, decide_eq_true recent⟩, pair.key⟩

theorem FullSweep.distinct (sweep : FullSweep hcm now sinceMs limit answers db) :
    (answers.map PullAnswer.key).Nodup := by
  rw [sweep.keys, reconcileActive]
  exact (nodup_eraseDups _).sublist (List.take_sublist _ _)

end TimeOff
