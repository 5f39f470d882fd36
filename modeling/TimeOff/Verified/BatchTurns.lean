import TimeOff.Lib.Register
import TimeOff.Verified.BalanceLedger

/-! # The rows of a batch, each at its turn

The cached balances are last-writer-wins registers: a row dated in milliseconds
is ignored exactly if the register of its key outranks it, and is written to it
otherwise.  Beside the cache, a batch only sends requests to review: the
approved ones of each key that a row was found to drift on at its turn.
-/

set_option autoImplicit false

namespace TimeOff

open TimeOff.Lib BalancesRepository BalancesService ReconciliationService TimeOffRepository TimeOffService

/-- What a snapshot says of a key, or the cache holds of it. -/
structure Reading where
  key : Key
  asOf : Stamp
  balance : Option ℚ

/-- Numbers by size, and below them what is no number. -/
def Rank : Type := WithBot (WithBot (WithTop ℚ))

instance : LinearOrder Rank := inferInstanceAs (LinearOrder (WithBot (WithBot (WithTop ℚ))))

def Stamp.rank (stamp : Stamp) : Rank :=
  match stamp.toNumber with
  | none => (⊥ : WithBot (WithBot (WithTop ℚ)))
  | some value => (value : WithBot (WithBot (WithTop ℚ)))

def Reading.rank (reading : Reading) : Rank := reading.asOf.rank

def HcmSnapshot.reading (snapshot : HcmSnapshot) : Reading :=
  ⟨snapshot.key, snapshot.asOf, snapshot.balance⟩

@[simp] theorem HcmSnapshot.reading_key (snapshot : HcmSnapshot) : snapshot.reading.key = snapshot.key := rfl

def BalanceRow.reading (row : BalanceRow) : Reading := ⟨row.key, row.hcmSnapshotAt, some row.hcmBalance⟩

/-- The registers that the cache is. -/
def cells (db : Db) (key : Key) : Option Reading := (findBalance key db).map BalanceRow.reading

/-- The cache after these readings. -/
abbrev cellsAfter (db : Db) (readings : List Reading) : Key → Option Reading :=
  Registers.putAll Reading.key Reading.rank (cells db) readings

/-- The `ignored` of a reading that meets these registers. -/
def Reading.ignored (store : Key → Option Reading) (reading : Reading) : Option Bool :=
  (store reading.key).map fun held => reading.rank < held.rank

/-- The reading is heeded, and does not cover what is reserved. -/
def Reading.Drifts (reserved : Key → ℚ) (store : Key → Option Reading) (reading : Reading) : Prop :=
  reading.ignored store ≠ some true ∧ ∃ balance ∈ reading.balance, balance < reserved reading.key

instance (reserved : Key → ℚ) (store : Key → Option Reading) (reading : Reading) :
    Decidable (reading.Drifts reserved store) :=
  inferInstanceAs (Decidable (_ ∧ ∃ balance ∈ reading.balance, _))

/-- An ignored reading is not looked at, any other has to bring a balance that is not negative. -/
def Reading.Passes (store : Key → Option Reading) (reading : Reading) : Prop :=
  reading.ignored store = some true ∨ ∃ balance ∈ reading.balance, 0 ≤ balance

instance (store : Key → Option Reading) (reading : Reading) : Decidable (reading.Passes store) :=
  inferInstanceAs (Decidable (_ ∨ ∃ balance ∈ reading.balance, _))

/-- The rows of a batch with the `asOf` that each resolves to. -/
def readings (asOf : Option Stamp) : (Nat → RowClock) → List BatchRow → List Reading
  | _, [] => []
  | clocks, row :: rest =>
    (rowSnapshot asOf (clocks 0) row).reading :: readings asOf (fun n => clocks (n + 1)) rest

/-- The readings before the first that does not pass at its turn. -/
def passing (store : Key → Option Reading) : List Reading → List Reading
  | [] => []
  | reading :: rest =>
    if reading.Passes store then
      reading :: passing (Registers.put Reading.key Reading.rank store reading) rest
    else []

/-- What is reported for each reading at its turn. -/
def reports (reserved : Key → ℚ) (store : Key → Option Reading) : List Reading → List AppliedEntry
  | [] => []
  | reading :: rest =>
    ⟨reading.key.targetId, reading.ignored store, reading.Drifts reserved store⟩ ::
      reports reserved (Registers.put Reading.key Reading.rank store reading) rest

/-- Some reading of the key drifts at its turn. -/
def DriftsOn (reserved : Key → ℚ) (store : Key → Option Reading) (readings : List Reading) (key : Key) :
    Prop :=
  ∃ earlier reading later, readings = earlier ++ reading :: later ∧ reading.key = key ∧
    reading.Drifts reserved (Registers.putAll Reading.key Reading.rank store earlier)

/-- Every `asOf` that is given is a number of milliseconds. -/
def Dated (asOf : Option Stamp) (rows : List BatchRow) : Prop :=
  ∀ row ∈ rows, ∀ stamp ∈ row.asOf.or asOf, ∃ time, stamp = .ms time

/-- The request goes to review if it is approved and meant, and stays as it is otherwise. -/
def Reviewed (meant : String → Key → Prop) (before after : RequestRow) : Prop :=
  (before.state = .approved ∧ meant before.id before.key) ∧
      (∃ now, after = patched .reviewRequired now { hcmError := some escalationReason } before) ∨
    ¬ (before.state = .approved ∧ meant before.id before.key) ∧ after = before

/-- Nothing but requests changed outside the cache, and these went to review as meant. -/
structure Reviews (meant : String → Key → Prop) (db after : Db) : Prop where
  requests : ∃ change, after.requests.rows = db.requests.rows.map change ∧
    ∀ row ∈ db.requests.rows, Reviewed meant row (change row)
  reservations : after.reservations = db.reservations
  hcmOutbox : after.hcmOutbox = db.hcmOutbox

variable {db middle after : Db} {snapshot : HcmSnapshot} {result : SnapshotResult}
  {meant first second : String → Key → Prop}

/-! ## Requests that go to review -/

theorem Reviews.refl (none : ∀ id key, ¬ meant id key) (same : after.requests = db.requests)
    (reservations : after.reservations = db.reservations) (hcmOutbox : after.hcmOutbox = db.hcmOutbox) :
    Reviews meant db after := by
  refine ⟨⟨id, by rw [same, List.map_id], ?_⟩, reservations, hcmOutbox⟩
  intro row _
  exact .inr ⟨fun met => none _ _ met.2, rfl⟩

theorem Reviewed.trans {before between later : RequestRow} (left : Reviewed first before between)
    (right : Reviewed second between later) :
    Reviewed (fun id key => first id key ∨ second id key) before later := by
  cases left with
  | inl went =>
    obtain ⟨⟨approved, met⟩, now, rfl⟩ := went
    cases right with
    -- in review it is not approved any more
    | inl again => cases again.1.1
    | inr kept =>
      rw [kept.2]
      exact .inl ⟨⟨approved, .inl met⟩, now, rfl⟩
  | inr kept =>
    obtain ⟨unmet, rfl⟩ := kept
    cases right with
    | inl went =>
      obtain ⟨⟨approved, met⟩, now, rfl⟩ := went
      exact .inl ⟨⟨approved, .inr met⟩, now, rfl⟩
    | inr kept =>
      refine .inr ⟨?_, kept.2⟩
      rintro ⟨approved, met⟩
      cases met with
      | inl met => exact unmet ⟨approved, met⟩
      | inr met => exact kept.1 ⟨approved, met⟩

theorem Reviews.trans (left : Reviews first db middle) (right : Reviews second middle after) :
    Reviews (fun id key => first id key ∨ second id key) db after := by
  obtain ⟨earlier, middleRows, reviewed⟩ := left.requests
  obtain ⟨later, afterRows, reviewedAgain⟩ := right.requests
  refine ⟨⟨later ∘ earlier, by rw [afterRows, middleRows, List.map_map], ?_⟩,
    right.reservations.trans left.reservations, right.hcmOutbox.trans left.hcmOutbox⟩
  intro row member
  apply (reviewed row member).trans
  apply reviewedAgain
  rw [middleRows]
  exact List.mem_map_of_mem member

/-- Only what is meant of approved requests matters. -/
theorem Reviews.congr (reviews : Reviews first db after)
    (same : ∀ row ∈ db.requests.rows, row.state = .approved → (first row.id row.key ↔ second row.id row.key)) :
    Reviews second db after := by
  obtain ⟨change, rows, reviewed⟩ := reviews.requests
  refine ⟨⟨change, rows, ?_⟩, reviews.reservations, reviews.hcmOutbox⟩
  intro row member
  have agree : row.state = .approved ∧ first row.id row.key ↔ row.state = .approved ∧ second row.id row.key :=
    and_congr_right (same row member)
  have step := reviewed row member
  simp only [Reviewed, agree] at step
  exact step

theorem markReviewRequired_reviews (clock : Clock) (requestId : String) (db : Db) :
    Reviews (fun id _ => id = requestId) db (markReviewRequired clock requestId escalationReason db).2 ∧
      (markReviewRequired clock requestId escalationReason db).2.balances = db.balances := by
  have outcome := markReviewRequired_outcome clock requestId escalationReason db
  generalize markReviewRequired clock requestId escalationReason db = marked at outcome ⊢
  have untouched (other : requestState requestId db ≠ some .approved) :
      Reviews (fun id _ => id = requestId) db db := by
    refine ⟨⟨id, by rw [List.map_id], ?_⟩, rfl, rfl⟩
    rintro row member
    right
    refine ⟨?_, rfl⟩
    rintro ⟨approved, own⟩
    exact other (requestState_eq_some.mpr ⟨row, Table.find?_eq_some.mpr ⟨member, own⟩, approved⟩)
  cases outcome with
  | already row found state =>
    refine ⟨untouched ?_, rfl⟩
    rw [requestState, found, Option.map_some, state]
    simp
  | threw failure refused elsewhere unapproved => exact ⟨untouched unapproved, rfl⟩
  | moved before row final found state moved =>
    obtain rfl : before.id = requestId := (Table.find?_eq_some.mp found).2
    refine ⟨⟨⟨_, moved.requests, ?_⟩, moved.reservations, (moved.unqueued (by simp)).2⟩, moved.balances⟩
    intro other _
    cases hit : inState before.id before.state other with
    | true =>
      rw [patchRow_of_hit hit]
      simp only [inState, decide_eq_true_eq, state] at hit
      exact .inl ⟨⟨hit.2, hit.1⟩, clock.now, rfl⟩
    | false =>
      rw [patchRow_of_miss hit]
      simp only [inState, decide_eq_false_iff_not, state] at hit
      exact .inr ⟨fun met => hit ⟨met.2, met.1⟩, rfl⟩

theorem escalations_reviews (clock : String → Clock) (ids : List String) (db : Db) :
    Reviews (fun id _ => id ∈ ids) db
      (ids.foldl (fun db id => (markReviewRequired (clock id) id escalationReason db).2) db) := by
  induction ids generalizing db with
  | nil => exact .refl (by simp) rfl rfl rfl
  | cons requestId rest inductionHypothesis =>
    rw [List.foldl_cons]
    have both := (markReviewRequired_reviews (clock requestId) requestId db).1.trans (inductionHypothesis _)
    apply both.congr
    intro row _ _
    simp

theorem escalateAffectedRequests_reviews (clock : String → Clock) (balance : BalanceRecord) (db : Db) :
    Reviews (fun _ key => key = balance.key) db (escalateAffectedRequests clock balance db) := by
  apply (escalations_reviews clock (listApprovedIdsForKey balance.key db) db).congr
  intro row member approved
  rw [listApprovedIdsForKey, List.mem_map]
  constructor
  · rintro ⟨other, selected, sameId⟩
    obtain ⟨otherIn, chosen⟩ := List.mem_filter.mp selected
    rw [← db.requests.eq_of_key otherIn member sameId]
    exact (of_decide_eq_true chosen).1
  · intro own
    exact ⟨row, List.mem_filter.mpr ⟨member, by simp [own, approved]⟩, rfl⟩

/-! ## One reading -/

/-- Unless both are strings, stamps compare as numbers. -/
theorem Stamp.ms_lt_eq (time : Int) (held : Stamp) : (Stamp.ms time).lt held =
    match (Stamp.ms time).toNumber, held.toNumber with
    | some left, some right => decide (left < right)
    | _, _ => false := by
  cases held <;> rfl

/-- A number is compared with any stamp by rank. -/
theorem Stamp.ms_lt (time : Int) (held : Stamp) :
    (Stamp.ms time).lt held = decide ((Stamp.ms time).rank < held.rank) := by
  obtain ⟨left, number⟩ : ∃ left, (Stamp.ms time).toNumber = some left := ⟨_, rfl⟩
  have ranked : (Stamp.ms time).rank = (left : WithBot (WithBot (WithTop ℚ))) := by
    simp only [Stamp.rank, number]
    rfl
  rw [Stamp.ms_lt_eq, number, ranked]
  cases heldNumber : held.toNumber with
  | none =>
    have below : held.rank = (⊥ : WithBot (WithBot (WithTop ℚ))) := by
      simp only [Stamp.rank, heldNumber]
      rfl
    rw [below, eq_comm, decide_eq_false_iff_not]
    exact @not_lt_bot (WithBot (WithBot (WithTop ℚ))) _ _ _
  | some right =>
    have heldRank : held.rank = (right : WithBot (WithBot (WithTop ℚ))) := by
      simp only [Stamp.rank, heldNumber]
      rfl
    rw [heldRank, decide_eq_decide]
    exact (@WithBot.coe_lt_coe (WithBot (WithTop ℚ)) _ _ _).symm

/-- A date in milliseconds is compared with the cached one by rank. -/
theorem ignored_reading {time : Int} (dated : snapshot.asOf = .ms time) (db : Db) :
    snapshot.reading.ignored (cells db) =
      (findBalance snapshot.key db).map fun row => snapshot.asOf.lt row.hcmSnapshotAt := by
  simp only [Reading.ignored, cells, HcmSnapshot.reading, Option.map_map]
  apply Option.map_congr
  intro row _
  simp only [Function.comp, dated, Stamp.ms_lt, BalanceRow.reading, Reading.rank]

theorem outranks_reading (store : Key → Option Reading) (reading : Reading) :
    Register.outranks Reading.rank (store reading.key) reading = true ↔
      reading.ignored store = some true := by
  cases held : store reading.key with
  | none => simp [Register.outranks, Reading.ignored, held]
  | some kept => simp [Register.outranks, Reading.ignored, held]

theorem stale_iff_ignored {time : Int} (dated : snapshot.asOf = .ms time) :
    Stale snapshot db ↔ snapshot.reading.ignored (cells db) = some true := by
  rw [ignored_reading dated, Option.map_eq_some_iff]
  rfl

/-- A row dated in milliseconds is stale, or its balance decides. -/
theorem passes_iff {time : Int} (dated : snapshot.asOf = .ms time) :
    snapshot.reading.Passes (cells db) ↔ Heeded snapshot db ∨ Stale snapshot db := by
  rw [Reading.Passes, ← stale_iff_ignored dated]
  constructor
  · intro passes
    by_cases stale : Stale snapshot db
    · exact .inr stale
    · refine .inl ⟨passes.resolve_left stale, by simp [dated, Stamp.stored], ?_⟩
      intro row found
      rw [← Bool.not_eq_true]
      exact fun older => stale ⟨row, found, older⟩
  · intro admitted
    cases admitted with
    | inl heeded => exact .inr heeded.1
    | inr stale => exact .inl stale

theorem Cached.ignored_eq {now : Int} {ignored : Option Bool} {balances : SerialTable BalanceRow}
    (cached : Cached snapshot now db balances ignored) :
    ignored = (findBalance snapshot.key db).map fun row => snapshot.asOf.lt row.hcmSnapshotAt := by
  cases cached with
  | first balance stamp absent given nonneg stored cached => rw [absent]; rfl
  | stale row found older cached => rw [found, Option.map_some, older]
  | newer row balance stamp found current given nonneg stored cached => rw [found, Option.map_some, current]

/-- A reading dated in milliseconds is put into its register. -/
theorem Snapshotted.cells_after {now : Int} {time : Int} (applied : Snapshotted snapshot now result db after)
    (dated : snapshot.asOf = .ms time) : cells after = cellsAfter db [snapshot.reading] := by
  have ignoredHere : result.ignored = snapshot.reading.ignored (cells db) :=
    applied.cached.ignored_eq.trans (ignored_reading dated db).symm
  have cached := applied.cached
  funext key
  rw [cellsAfter, Registers.putAll, List.foldl_cons, List.foldl_nil, Registers.put]
  by_cases own : key = snapshot.key
  · subst own
    rw [snapshot.reading_key, Function.update_self]
    cases outranked : Register.outranks Reading.rank (cells db snapshot.reading.key) snapshot.reading with
    | true =>
      apply Eq.trans _ (Register.write_of_outranks outranked).symm
      have stale := (outranks_reading (cells db) snapshot.reading).mp outranked
      rw [ignoredHere, stale] at cached
      simp only [cells, cached.findBalance_stale, snapshot.reading_key]
    | false =>
      apply Eq.trans _ (Register.write_of_not_outranks outranked).symm
      have unignored : result.ignored ≠ some true := by
        rw [ignoredHere]
        intro stale
        rw [(outranks_reading (cells db) snapshot.reading).mpr stale] at outranked
        cases outranked
      obtain ⟨row, balance, stamp, found, given, stored, rfl, rfl, _⟩ := cached.findBalance_self unignored
      rw [dated] at stored
      have sameStamp : row.hcmSnapshotAt = snapshot.asOf := by
        rw [dated]
        exact (Option.some.inj stored).symm
      simp only [cells, found, Option.map_some, BalanceRow.reading, HcmSnapshot.reading, given,
        findBalance_key found, sameStamp]
  · rw [snapshot.reading_key, Function.update_of_ne own]
    simp only [cells, cached.findBalance_other own]

theorem cells_congr (same : after.balances = db.balances) : cells after = cells db := by
  funext key
  simp only [cells, findBalance_congr same]

/-- What a reading does that passes. -/
structure TakesIn (snapshot : HcmSnapshot) (result : SnapshotResult) (db after : Db) : Prop where
  ignored : result.ignored = snapshot.reading.ignored (cells db)
  drift : result.negativeDrift = true ↔
    snapshot.reading.Drifts (fun key => sumOpenReservations key db) (cells db)
  cells : cells after = cellsAfter db [snapshot.reading]
  others : ∀ key, key ≠ snapshot.key → findBalance key after = findBalance key db
  reviews : Reviews (fun _ key => result.negativeDrift = true ∧ key = snapshot.key) db after

theorem applyAndEscalate_takesIn {clock : RowClock} {time : Int} (dated : snapshot.asOf = .ms time)
    (ran : applyAndEscalate clock snapshot db = (.ok result, after)) : TakesIn snapshot result db after := by
  obtain ⟨middle, went, balances⟩ := applyAndEscalate_result ran
  have applied := applyHcmBalanceSnapshot_ok went
  have ignoredHere : result.ignored = snapshot.reading.ignored (TimeOff.cells db) :=
    applied.cached.ignored_eq.trans (ignored_reading dated db).symm
  refine ⟨ignoredHere, ?_, (cells_congr balances).trans (applied.cells_after dated), ?_, ?_⟩
  · rw [applied.drift, Reading.Drifts, ← ignoredHere]
    cases given : snapshot.balance <;> simp [HcmSnapshot.reading, given]
  · intro key other
    exact (findBalance_congr balances key).trans (applied.cached.findBalance_other other)
  · have calm : Reviews (fun _ _ => False) db middle :=
      .refl (by simp) applied.requests applied.reservations applied.hcmOutbox
    simp only [applyAndEscalate, went] at ran
    split at ran
    next drift =>
      cases ran
      apply (calm.trans (escalateAffectedRequests_reviews clock.escalation result.balance middle)).congr
      intro row _ _
      simp [drift, applied.key]
    next noDrift =>
      cases ran
      apply calm.congr
      intro row _ _
      simp [noDrift]

/-- A reading dated in milliseconds passes, or throws and leaves no trace. -/
theorem applyAndEscalate_passes {time : Int} (dated : snapshot.asOf = .ms time) (clock : RowClock) (db : Db) :
    snapshot.reading.Passes (cells db) ∧
      (∃ result after, applyAndEscalate clock snapshot db = (.ok result, after)) ∨
    ¬ snapshot.reading.Passes (cells db) ∧
      ∃ failure, applyAndEscalate clock snapshot db = (.error failure, db) := by
  have admitted := applyHcmBalanceSnapshot_ok_iff clock.snapshot snapshot db
  obtain ⟨result, middle, went, _⟩ | ⟨failure, went⟩ :=
    applyHcmBalanceSnapshot_cases clock.snapshot snapshot db
  · obtain ⟨after, ran⟩ := applyAndEscalate_of_applied went
    exact .inl ⟨(passes_iff dated).mpr (admitted.mp ⟨result, middle, went⟩), result, after, ran⟩
  · right
    constructor
    · intro passes
      obtain ⟨result, after, ran⟩ := admitted.mpr ((passes_iff dated).mp passes)
      cases ran.symm.trans went
    · exact ⟨failure, by simp only [applyAndEscalate, went]⟩

/-! ## The loop over a batch -/

theorem driftsOn_cons {reserved : Key → ℚ} {store : Key → Option Reading} {reading : Reading}
    {rest : List Reading} {key : Key} :
    DriftsOn reserved store (reading :: rest) key ↔
      reading.key = key ∧ reading.Drifts reserved store ∨
        DriftsOn reserved (Registers.put Reading.key Reading.rank store reading) rest key := by
  constructor
  · rintro ⟨earlier, drifting, later, split, own, drifts⟩
    cases earlier with
    | nil =>
      cases split
      exact .inl ⟨own, drifts⟩
    | cons first earlier =>
      cases split
      exact .inr ⟨earlier, drifting, later, rfl, own, drifts⟩
  · intro either
    cases either with
    | inl here => exact ⟨[], reading, rest, rfl, here.1, here.2⟩
    | inr later =>
      obtain ⟨earlier, drifting, later, rfl, own, drifts⟩ := later
      exact ⟨reading :: earlier, drifting, later, rfl, own, drifts⟩

theorem Dated.rowSnapshot {asOf : Option Stamp} {row : BatchRow} {rest : List BatchRow}
    (dated : Dated asOf (row :: rest)) (clock : RowClock) :
    ∃ time, (rowSnapshot asOf clock row).asOf = .ms time := by
  simp only [ReconciliationService.rowSnapshot]
  cases given : row.asOf.or asOf with
  | none => exact ⟨clock.fallback, rfl⟩
  | some stamp => exact dated row List.mem_cons_self stamp given

/-- What the loop does that takes in these readings and reports these entries. -/
structure Absorbs (taken : List Reading) (entries : List AppliedEntry) (db after : Db) : Prop where
  cells : cells after = cellsAfter db taken
  entries : entries = reports (fun key => sumOpenReservations key db) (TimeOff.cells db) taken
  others : ∀ key, (∀ reading ∈ taken, reading.key ≠ key) → findBalance key after = findBalance key db
  reviews : Reviews (fun _ => DriftsOn (fun key => sumOpenReservations key db) (TimeOff.cells db) taken)
    db after

theorem Absorbs.refl (db : Db) : Absorbs [] [] db db := by
  refine ⟨rfl, rfl, fun _ _ => rfl, .refl ?_ rfl rfl rfl⟩
  rintro id key ⟨earlier, reading, later, split, _⟩
  cases earlier <;> cases split

theorem TakesIn.absorbs {taken : List Reading} {entries : List AppliedEntry}
    (takesIn : TakesIn snapshot result db middle) (rest : Absorbs taken entries middle after) :
    Absorbs (snapshot.reading :: taken)
      (⟨snapshot.key.targetId, result.ignored, result.negativeDrift⟩ :: entries) db after := by
  have cellsMiddle : TimeOff.cells middle =
      Registers.put Reading.key Reading.rank (TimeOff.cells db) snapshot.reading := takesIn.cells
  have reserved : (fun key => sumOpenReservations key middle) = fun key => sumOpenReservations key db := by
    funext key
    exact sumOpenReservations_congr takesIn.reviews.reservations key
  have drift : result.negativeDrift =
      decide (snapshot.reading.Drifts (fun key => sumOpenReservations key db) (TimeOff.cells db)) := by
    rw [Bool.eq_iff_iff, takesIn.drift, decide_eq_true_iff]
  refine ⟨?_, ?_, ?_, ?_⟩
  · rw [rest.cells, cellsAfter, cellsMiddle]
    rfl
  · rw [rest.entries, reports, takesIn.ignored, drift, cellsMiddle, reserved]
    rfl
  · intro key unmentioned
    rw [rest.others key fun reading member => unmentioned reading (List.mem_cons_of_mem _ member)]
    exact takesIn.others key (Ne.symm (unmentioned _ List.mem_cons_self))
  · apply (takesIn.reviews.trans rest.reviews).congr
    intro row _ _
    rw [driftsOn_cons, cellsMiddle, reserved, takesIn.drift, snapshot.reading_key]
    constructor
    · intro either
      cases either with
      | inl here => exact .inl ⟨here.2.symm, here.1⟩
      | inr later => exact .inr later
    · intro either
      cases either with
      | inl here => exact .inl ⟨here.2, here.1.symm⟩
      | inr later => exact .inr later

/-- The loop takes in the readings that pass, up to the first that does not, which throws. -/
theorem applyRows_absorbs {asOf : Option Stamp} {rows : List BatchRow} (dated : Dated asOf rows)
    (clocks : Nat → RowClock) (db : Db) :
    let run := applyRows asOf clocks rows db
    let taken := passing (cells db) (readings asOf clocks rows)
    Absorbs taken (List.zipWith appliedEntry rows run.results) db run.db ∧
      (run.failure = none ↔ taken = readings asOf clocks rows) := by
  induction rows generalizing clocks db with
  | nil => exact ⟨.refl db, by simp [applyRows, passing, readings]⟩
  | cons row rest inductionHypothesis =>
    obtain ⟨time, isDated⟩ := dated.rowSnapshot (clocks 0)
    have datedRest : Dated asOf rest := fun other member => dated other (List.mem_cons_of_mem _ member)
    obtain ⟨passes, result, middle, ran⟩ | ⟨fails, failure, ran⟩ :=
      applyAndEscalate_passes isDated (clocks 0) db
    · have takesIn := applyAndEscalate_takesIn isDated ran
      have cellsMiddle : cells middle = Registers.put Reading.key Reading.rank (cells db)
        (rowSnapshot asOf (clocks 0) row).reading := takesIn.cells
      obtain ⟨absorbed, completes⟩ := inductionHypothesis datedRest (fun n => clocks (n + 1)) middle
      simp only [applyRows, ran, readings, passing, passes, if_true]
      rw [cellsMiddle] at absorbed completes
      refine ⟨takesIn.absorbs absorbed, completes.trans ?_⟩
      simp
    · simp only [applyRows, ran, readings, passing, fails, if_false]
      exact ⟨.refl db, by simp⟩

end TimeOff
