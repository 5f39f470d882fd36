import TimeOff.System.Pulls
import TimeOff.Verified.DoubleCountedDrift

/-! # Pulls and newer news

`reconcileKey` dates an answer without `asOf` by the local clock at the moment
it is applied, which is after every push that landed during the call.  So the
stale check lets a balance that HCM held earlier overwrite a newer one.
-/

set_option autoImplicit false

namespace TimeOff

open TimeOff.Lib BalancesRepository BalancesService ReconciliationService

/-- Every report that the event applies passes the test in the state it meets. -/
def ReportsMeet (test : Cache → Report → Prop) (cache : Cache) (event : CacheEvent) : Prop :=
  StepsMeet Cache.take test cache (cache.reports event)

instance (test : Cache → Report → Prop) [∀ cache report, Decidable (test cache report)] (cache : Cache)
    (event : CacheEvent) : Decidable (ReportsMeet test cache event) :=
  inferInstanceAs (Decidable (StepsMeet _ _ _ _))

/-- The report overwrites a cached balance that HCM held at a later instant. -/
def SetsBack (cache : Cache) (report : Report) : Prop :=
  match applyAndEscalate report.clock report.snapshot cache.db with
  | (.ok result, _) => result.ignored ≠ some true ∧
      ∃ cached ∈ cache.taken report.snapshot.key, report.heldAt < cached.heldAt
  | (.error _, _) => False

instance (cache : Cache) (report : Report) : Decidable (SetsBack cache report) := by
  unfold SetsBack
  split <;> infer_instance

/-- The report or the cached balance is dated by the local clock, the report is not the older of the
two by their dates, and yet HCM held its balance earlier. -/
def Misdated (cache : Cache) (report : Report) : Prop :=
  Heeded report.snapshot cache.db ∧ ∃ cached ∈ cache.taken report.snapshot.key,
    ¬ (cached.Dated ∧ report.Dated) ∧ report.heldAt < cached.heldAt

instance (cache : Cache) (report : Report) : Decidable (Misdated cache report) :=
  inferInstanceAs (Decidable (_ ∧ ∃ cached ∈ cache.taken report.snapshot.key, _))

/-- Each cached balance is the one that the report in `taken` brought, under the date it brought. -/
def Traced (cache : Cache) : Prop :=
  ∀ key, (cache.taken key).map (fun report => (report.snapshot.balance, report.snapshot.asOf.stored)) =
    (findBalance key cache.db).map fun row => (some row.hcmBalance, some row.hcmSnapshotAt)

variable {cache next : Cache} {report : Report}

theorem Traced.congr (traced : Traced cache) (balances : next.db.balances = cache.db.balances)
    (taken : next.taken = cache.taken) : Traced next := by
  intro key
  rw [taken, findBalance_congr balances]
  exact traced key

theorem Traced.taken_eq (traced : Traced cache) {key : Key} {cached : Report}
    (taken : cache.taken key = some cached) :
    ∃ row, findBalance key cache.db = some row ∧ cached.snapshot.asOf.stored = some row.hcmSnapshotAt := by
  have columns := traced key
  rw [taken, Option.map_some] at columns
  obtain ⟨row, found, same⟩ := Option.map_eq_some_iff.mp columns.symm
  exact ⟨row, found, (congrArg Prod.snd same).symm⟩

/-! ## One report -/

theorem Traced.take (traced : Traced cache) (took : cache.take report = some next) : Traced next := by
  simp only [Cache.take] at took
  split at took
  next result db ran =>
    cases took
    have cached := applyAndEscalate_cached ran
    intro key
    by_cases ignored : result.ignored = some true
    -- ignored: neither the row nor its report changes
    · rw [ignored] at cached
      simp only [ignored, if_true]
      rw [cached.findBalance_stale]
      exact traced key
    · simp only [ignored, if_false]
      by_cases own : key = report.snapshot.key
      · subst own
        obtain ⟨row, balance, stamp, found, given, stored, rfl, rfl, _⟩ := cached.findBalance_self ignored
        rw [found, Function.update_self, Option.map_some, Option.map_some, given, stored]
      · rw [Function.update_of_ne own, cached.findBalance_other own]
        exact traced key
  next => cases took

theorem Traced.takeAll (reports : List Report) (traced : Traced cache) :
    Traced (cache.takeAll reports) := by
  induction reports generalizing cache with
  | nil => exact traced
  | cons report rest inductionHypothesis =>
    simp only [Cache.takeAll]
    cases took : cache.take report with
    | none => exact traced
    | some next => exact inductionHypothesis (traced.take took)

/-- Two balances dated by HCM compare as they should. -/
theorem Heeded.dated_le (heeded : Heeded report.snapshot cache.db) (traced : Traced cache)
    {cached : Report} (taken : cache.taken report.snapshot.key = some cached) (cachedDated : cached.Dated)
    (dated : report.Dated) : cached.heldAt ≤ report.heldAt := by
  obtain ⟨row, found, stored⟩ := traced.taken_eq taken
  have current := heeded.2.2 row found
  rw [Report.Dated] at cachedDated dated
  rw [cachedDated, Stamp.stored, Option.some.injEq] at stored
  rw [dated, ← stored] at current
  simpa [Stamp.lt, Stamp.toNumber] using current

/-- A report sets the cache back exactly when it is misdated. -/
theorem setsBack_iff (traced : Traced cache) : SetsBack cache report ↔ Misdated cache report := by
  constructor
  · intro setsBack
    simp only [SetsBack] at setsBack
    split at setsBack
    next result db ran =>
      obtain ⟨unignored, cached, taken, earlier⟩ := setsBack
      have heeded := (applyAndEscalate_cached ran).heeded unignored
      refine ⟨heeded, cached, taken, ?_, earlier⟩
      intro bothDated
      exact absurd (heeded.dated_le traced taken bothDated.1 bothDated.2) (not_le.mpr earlier)
    next => cases setsBack
  · intro misdated
    obtain ⟨heeded, cached, taken, _, earlier⟩ := misdated
    obtain ⟨result, middle, went, _, unignored⟩ := heeded.applied report.clock.snapshot
    obtain ⟨after, ran⟩ := applyAndEscalate_of_applied went
    simp only [SetsBack, ran]
    exact ⟨unignored, cached, taken, earlier⟩

/-! ## One step -/

/-- What the reports of a batch do to the database is what the code does with the batch. -/
theorem takeAll_pushed (asOf : Option Stamp) (clocks : Nat → RowClock) (rows : List BatchRow)
    (cache : Cache) :
    (cache.takeAll (pushed asOf clocks rows)).db = (applyRows asOf clocks rows cache.db).db := by
  induction rows generalizing clocks cache with
  | nil => rfl
  | cons row rest inductionHypothesis =>
    obtain ⟨result, after, ran, _⟩ | ⟨failure, ran⟩ :=
      applyAndEscalate_healed (clocks 0) (rowSnapshot asOf (clocks 0) row) cache.db
    · simp only [pushed, Cache.takeAll, Cache.take, applyRows, ran]
      exact inductionHypothesis _ _
    -- the row that throws ends both loops
    · simp only [pushed, Cache.takeAll, Cache.take, applyRows, ran]

theorem takeAll_pulled (clock : RowClock) (key : Key) (heldAt : Int) (reply : Reply BalanceView)
    (cache : Cache) :
    (cache.takeAll (pulled clock key heldAt reply)).db = (reconcileKey clock key reply cache.db).2 := by
  cases answered : HcmClient.getBalance key reply with
  | error failure => simp only [pulled, reconcileKey, answered, Cache.takeAll]
  | ok value =>
    cases value with
    | none => simp only [pulled, reconcileKey, answered, Cache.takeAll]
    | some view =>
      obtain ⟨result, after, ran, _⟩ | ⟨failure, ran⟩ := applyAndEscalate_healed clock
        { key := key, balance := view.balance, asOf := view.asOf.getD (.ms clock.fallback)
          source := .hcmPull } cache.db
      · simp only [pulled, reconcileKey, answered, Cache.takeAll, Cache.take, ran]
      · simp only [pulled, reconcileKey, answered, Cache.takeAll, Cache.take, ran]

theorem Traced.step {event : CacheEvent} (traced : Traced cache)
    (stepped : cache.step event = some next) : Traced next := by
  have reported := traced.takeAll (cache.reports event)
  cases event with
  | call call =>
    simp only [Cache.step] at stepped
    split at stepped
    · cases stepped
    next silent =>
      cases stepped
      exact traced.congr (Call.balances (by simpa using silent) cache.db) rfl
  | handleBatch clocks batch =>
    simp only [Cache.step] at stepped
    split at stepped
    next dated =>
      cases stepped
      simp only [Cache.reports, dated, if_true] at reported ⊢
      refine reported.congr ?_ rfl
      rw [takeAll_pushed, handleBatch_db]
    next => cases stepped
  | reconcileKey key =>
    cases stepped
    exact traced
  | reconcileActive now sinceMs limit =>
    simp only [Cache.step] at stepped
    split at stepped
    · cases stepped
      exact traced
    · cases stepped
      exact traced
  | hcmReads number heldAt reply =>
    simp only [Cache.step] at stepped
    split at stepped
    · split at stepped
      · cases stepped
        exact traced
      · cases stepped
    · cases stepped
  | resume number clock =>
    simp only [Cache.step] at stepped
    split at stepped
    next key rest heldAt reply waiting =>
      cases stepped
      simp only [Cache.reports, waiting] at reported ⊢
      refine reported.congr ?_ rfl
      rw [takeAll_pulled]
    next => cases stepped
  | crash =>
    cases stepped
    exact traced

theorem Traced.empty : Traced Cache.empty := fun _ => rfl

/-! ## Runs -/

/-- In every run each cached balance is the one that the report kept for it brought, and none is
replaced by a balance that HCM held earlier exactly if no report is misdated. -/
theorem pulls_keep_newest_iff (events : List CacheEvent) :
    Always Cache.step Traced Cache.empty events ∧
    (StepsMeet Cache.step (ReportsMeet fun cache report => ¬ SetsBack cache report) Cache.empty events ↔
      StepsMeet Cache.step (ReportsMeet fun cache report => ¬ Misdated cache report) Cache.empty events) := by
  constructor
  · apply always_of_invariant Traced
    · intro cache event next traced stepped
      exact traced.step stepped
    · exact .empty
  · apply stepsMeet_congr_of_invariant Traced
    · intro cache event next traced stepped
      exact traced.step stepped
    · intro cache event traced
      apply stepsMeet_congr_of_invariant Traced
      · intro cache report next traced took
        exact traced.take took
      · intro cache report traced
        exact not_congr (setsBack_iff traced)
      · exact traced
    · exact .empty

namespace Office

/-- HCM held ten days at the first instant and answers the pull without `asOf`; it held five at the
second, and pushes them before the answer is applied at the third. -/
def overtakenPull : List CacheEvent :=
  [.reconcileKey key, .hcmReads 0 1 (balance 10),
    .handleBatch (fun _ => ⟨2, clock, fun _ => clock⟩) ⟨none, none, [⟨key, some 5, some (.ms 2)⟩]⟩]

end Office

theorem pull_overwrites_newer_push :
    ∃ cache ∈ run Cache.step Cache.empty Office.overtakenPull,
      (findBalance Office.key cache.db).map BalanceRow.hcmBalance = some 5 ∧
      ¬ ReportsMeet (fun cache report => ¬ SetsBack cache report) cache
        (.resume 0 ⟨3, Office.clock, fun _ => Office.clock⟩) ∧
      ∃ after ∈ cache.step (.resume 0 ⟨3, Office.clock, fun _ => Office.clock⟩),
        (findBalance Office.key after.db).map BalanceRow.hcmBalance = some 10 := by
  decide +kernel

end TimeOff
