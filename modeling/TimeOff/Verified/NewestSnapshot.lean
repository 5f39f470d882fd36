import TimeOff.Hcm.Webhook
import TimeOff.Lib.Newest
import TimeOff.Verified.Changes

/-! # The newest snapshot of a key

A snapshot overwrites the cached balance unless its `asOf` compares below the
cached one.  The batch route passes a row's own `asOf` on as the string it is,
all other routes pass the milliseconds that `Date.parse` reads.  These compare
as the instants do up to the millisecond; two strings compare as strings; a
date-time and a number do not compare at all, so that the later one to arrive
wins; and what `Date.parse` does not read, the column does not take.
-/

set_option autoImplicit false

namespace TimeOff

open TimeOff.Lib BalancesRepository BalancesService ReconciliationService TimeOffService

/-- A webhook delivery, with the clock readings of its rows. -/
inductive Delivery where
  | batch (clocks : Nat → RowClock) (body : HcmBatchDto)
  | single (clocks : Nat → RowClock) (body : HcmBalanceEntryDto)

/-- A delivered row under the `asOf` that counts for it; `own` when the row of a batch carried it
itself. -/
structure Arrival where
  key : Key
  balance : ℚ
  spelling : String
  own : Bool
deriving DecidableEq

/-- The delivered rows; a row's own `asOf` takes precedence over that of the batch. -/
def Delivery.arrivals : Delivery → List Arrival
  | batch _ body => body.balances.map fun entry =>
    ⟨entry.key, entry.balance, (entry.asOf.or body.asOf).getD "", entry.asOf.isSome⟩
  | single _ body => [⟨body.key, body.balance, body.asOf.getD "", false⟩]

/-- Was the row of this entry reported as ignored? -/
def AppliedEntry.isIgnored (entry : AppliedEntry) : Bool := entry.ignored = some true

/-- Which rows of a delivery were reported as ignored, in the order of the rows. -/
def reportedIgnored : Except Failure BatchResult → List Bool
  | .ok result => result.applied.map AppliedEntry.isIgnored
  | .error _ => []

section Webhooks

variable (dateParse : String → Option Int) (instantOf : String → Option ℚ)

/-- The row passes validation and its `asOf` denotes an instant. -/
structure Arrival.Valid (arrival : Arrival) : Prop where
  nonneg : 0 ≤ arrival.balance
  nonempty : arrival.spelling ≠ ""
  instant : (instantOf arrival.spelling).isSome

/-- The instant that the `asOf` denotes, in milliseconds and parts of them. -/
def Arrival.instant (arrival : Arrival) : ℚ := (instantOf arrival.spelling).getD 0

/-- The newest of the rows that arrived for the key. -/
def newestOf (key : Key) (arrivals : List Arrival) : Option Arrival :=
  newest (Arrival.instant instantOf) (arrivals.filter fun arrival => arrival.key = key)

def Delivery.deliver : Delivery → Db → Except Failure BatchResult × Db
  | batch clocks body, db => HcmWebhookController.handleBatch dateParse clocks body db
  | single clocks body, db => HcmWebhookController.handleSingle dateParse clocks body db

/-- The answers to the deliveries one after the other, and the database after the last. -/
def deliverAll : List Delivery → Db → List (Except Failure BatchResult) × Db
  | [], db => ([], db)
  | delivery :: rest, db =>
    let (answer, after) := delivery.deliver dateParse db
    let (answers, final) := deliverAll rest after
    (answer :: answers, final)

/-- Which rows are older than the newest row that arrived for their key before them. -/
def staleRows (earlier : List Arrival) : List Arrival → List Bool
  | [] => []
  | next :: rest =>
    ((newestOf instantOf next.key earlier).any fun held => next.instant instantOf < held.instant instantOf) ::
      staleRows (earlier ++ [next]) rest

/-- The rows reported as ignored are the stale ones, and each key shows the balance of its newest row. -/
structure NewestWins (arrivals : List Arrival) (outcome : List (Except Failure BatchResult) × Db) :
    Prop where
  reported : outcome.1.flatMap reportedIgnored = staleRows instantOf [] arrivals
  cached : ∀ key, (findBalance key outcome.2).map BalanceRow.hcmBalance =
    (newestOf instantOf key arrivals).map Arrival.balance

/-- The value of `asOf` that is compared: a row's own string, or what `Date.parse` makes of it. -/
def Arrival.stamp (arrival : Arrival) : Stamp :=
  if arrival.own then .text arrival.spelling
  else match dateParse arrival.spelling with
    | some time => .ms time
    | none => .nan

/-- The `asOf` is a row's own, or `Date.parse` reads it. -/
def Arrival.Readable (arrival : Arrival) : Prop := arrival.own = true ∨ (dateParse arrival.spelling).isSome

/-- The later row compares below what the column keeps of the earlier exactly if its instant is before. -/
def ComparesAsInstants (next held : Arrival) : Prop :=
  ∀ kept ∈ (held.stamp dateParse).stored,
    ((next.stamp dateParse).lt kept = true ↔ next.instant instantOf < held.instant instantOf)

/-- The row is readable, and compares as its instant does with the newest row of its key before it. -/
def ArrivesComparably (earlier : List Arrival) (next : Arrival) : Prop :=
  next.Readable dateParse ∧
    ∀ held ∈ newestOf instantOf next.key earlier, ComparesAsInstants dateParse instantOf next held

/-- Each row does so in its turn. -/
def ArriveComparably (earlier : List Arrival) : List Arrival → Prop
  | [] => True
  | next :: rest =>
    ArrivesComparably dateParse instantOf earlier next ∧ ArriveComparably (earlier ++ [next]) rest

end Webhooks

variable {dateParse : String → Option Int} {instantOf : String → Option ℚ} {db after : Db} {key : Key}
  {arrivals earlier : List Arrival}

/-! ## The newest row of a key -/

theorem newestOf_concat (key : Key) (earlier : List Arrival) (next : Arrival) :
    newestOf instantOf key (earlier ++ [next]) =
      if next.key = key then
        match newestOf instantOf key earlier with
        | none => some next
        | some held =>
          if next.instant instantOf < held.instant instantOf then some held else some next
      else newestOf instantOf key earlier := by
  simp only [newestOf]
  rw [List.filter_append]
  split
  next own =>
    rw [List.filter_cons_of_pos (by simpa using own), List.filter_nil, newest_concat]
    cases newest (Arrival.instant instantOf) (earlier.filter fun arrival => arrival.key = key) with
    | none => rfl
    | some held => rfl
  next other => rw [List.filter_cons_of_neg (by simpa using other), List.filter_nil, List.append_nil]

theorem newestOf_mem {held : Arrival} (isNewest : newestOf instantOf key earlier = some held) :
    held ∈ earlier ∧ held.key = key := by
  obtain ⟨member, own⟩ := List.mem_filter.mp (newest_mem isNewest)
  exact ⟨member, of_decide_eq_true own⟩

/-! ## Stamps -/

theorem Stamp.text_stored (spelling : String) : ∃ kept, (Stamp.text spelling).stored = some kept := by
  simp only [stored]
  split
  next => exact ⟨_, rfl⟩
  next => exact ⟨_, rfl⟩

theorem Arrival.Readable.stored {arrival : Arrival} (readable : arrival.Readable dateParse) :
    ∃ kept, (arrival.stamp dateParse).stored = some kept := by
  unfold stamp
  split
  next own => exact Stamp.text_stored _
  next parsed =>
    obtain ⟨time, parses⟩ := Option.isSome_iff_exists.mp (readable.resolve_left parsed)
    rw [parses]
    exact ⟨_, rfl⟩

theorem Arrival.stamp_of_unreadable {arrival : Arrival} (unreadable : ¬ arrival.Readable dateParse) :
    arrival.stamp dateParse = .nan := by
  rw [Readable, not_or, Bool.not_eq_true, Option.not_isSome_iff_eq_none] at unreadable
  simp [stamp, unreadable]

/-- The string is a number neither to JavaScript nor to the column, as no date with a time is. -/
structure Unnumeric (spelling : String) : Prop where
  compared : stringToNumber spelling = .nan
  kept : columnNumber? spelling = none

/-- Numbers compare up to the millisecond, strings as strings, and a string with a number not at all. -/
theorem comparesAsInstants_iff {next held : Arrival} (nextReadable : next.Readable dateParse)
    (heldReadable : held.Readable dateParse) (nextUnnumeric : Unnumeric next.spelling)
    (heldUnnumeric : Unnumeric held.spelling) :
    ComparesAsInstants dateParse instantOf next held ↔
      match next.own, held.own with
      | false, false => (dateParse next.spelling).getD 0 < (dateParse held.spelling).getD 0 ↔
          next.instant instantOf < held.instant instantOf
      | true, true => next.spelling < held.spelling ↔ next.instant instantOf < held.instant instantOf
      | _, _ => held.instant instantOf ≤ next.instant instantOf := by
  obtain ⟨nextCompared, _⟩ := nextUnnumeric
  obtain ⟨heldCompared, heldKept⟩ := heldUnnumeric
  simp only [ComparesAsInstants, Arrival.stamp]
  cases nextOwn : next.own with
  | false =>
    obtain ⟨later, nextParses⟩ := Option.isSome_iff_exists.mp (nextReadable.resolve_left (by simp [nextOwn]))
    cases heldOwn : held.own with
    | false =>
      obtain ⟨earlier, heldParses⟩ :=
        Option.isSome_iff_exists.mp (heldReadable.resolve_left (by simp [heldOwn]))
      simp [nextParses, heldParses, Stamp.stored, Stamp.lt, Stamp.toNumber]
    | true => simp [nextParses, Stamp.stored, heldKept, Stamp.lt, Stamp.toNumber, heldCompared, Number.extended?]
  | true =>
    cases heldOwn : held.own with
    | false =>
      obtain ⟨earlier, heldParses⟩ :=
        Option.isSome_iff_exists.mp (heldReadable.resolve_left (by simp [heldOwn]))
      simp [heldParses, Stamp.stored, Stamp.lt, Stamp.toNumber, nextCompared, Number.extended?]
    | true => simp [Stamp.stored, heldKept, Stamp.lt]

/-! ## One row -/

/-- The cache holds the newest row of each key, under what the column keeps of its `asOf`. -/
def Shows (dateParse : String → Option Int) (instantOf : String → Option ℚ) (earlier : List Arrival)
    (db : Db) : Prop :=
  ∀ key, (findBalance key db).map (fun row => (row.hcmBalance, some row.hcmSnapshotAt)) =
    (newestOf instantOf key earlier).map fun held => (held.balance, (held.stamp dateParse).stored)

/-- The snapshot is the one that the row carries. -/
structure Carries (dateParse : String → Option Int) (arrival : Arrival) (snapshot : HcmSnapshot) :
    Prop where
  key : snapshot.key = arrival.key
  balance : snapshot.balance = some arrival.balance
  asOf : snapshot.asOf = arrival.stamp dateParse

theorem Shows.find {held : Arrival} (shows : Shows dateParse instantOf earlier db)
    (isNewest : newestOf instantOf key earlier = some held) :
    ∃ row, findBalance key db = some row ∧ (held.stamp dateParse).stored = some row.hcmSnapshotAt := by
  have cached := shows key
  rw [isNewest, Option.map_some, Option.map_eq_some_iff] at cached
  obtain ⟨row, found, same⟩ := cached
  exact ⟨row, found, (congrArg Prod.snd same).symm⟩

/-- A row is reported as ignored when its stamp compares below what is kept of the newest row so far. -/
theorem Shows.ignored_iff (shows : Shows dateParse instantOf earlier db) {next : Arrival}
    {snapshot : HcmSnapshot} (carries : Carries dateParse next snapshot) {now : Int}
    {ignored : Option Bool} (cached : Cached snapshot now db after.balances ignored) :
    ignored = some true ↔ ∃ held, newestOf instantOf next.key earlier = some held ∧
      ∃ kept, (held.stamp dateParse).stored = some kept ∧ (next.stamp dateParse).lt kept = true := by
  have cachedBefore := shows next.key
  rw [← carries.key] at cachedBefore ⊢
  rw [← carries.asOf]
  cases isNewest : newestOf instantOf snapshot.key earlier with
  | none =>
    rw [isNewest, Option.map_none, Option.map_eq_none_iff] at cachedBefore
    cases cached with
    | first => simp
    | stale row found => cases cachedBefore.symm.trans found
    | newer row balance stamp found => cases cachedBefore.symm.trans found
  | some held =>
    obtain ⟨other, foundOther, stamped⟩ := shows.find isNewest
    cases cached with
    | first balance stamp absent => cases absent.symm.trans foundOther
    | stale row found older =>
      cases found.symm.trans foundOther
      simpa [stamped] using older
    | newer row balance stamp found current =>
      cases found.symm.trans foundOther
      simpa [stamped] using current

/-- A row is reported rightly exactly when it compares as its instant does. -/
theorem Shows.reported_iff (shows : Shows dateParse instantOf earlier db) {next : Arrival}
    {snapshot : HcmSnapshot} (carries : Carries dateParse next snapshot) {now : Int}
    {ignored : Option Bool} (cached : Cached snapshot now db after.balances ignored) :
    (ignored = some true ↔ ∃ held, newestOf instantOf next.key earlier = some held ∧
        next.instant instantOf < held.instant instantOf) ↔
      ∀ held ∈ newestOf instantOf next.key earlier, ComparesAsInstants dateParse instantOf next held := by
  rw [shows.ignored_iff carries cached]
  cases isNewest : newestOf instantOf next.key earlier with
  | none => simp
  | some held =>
    obtain ⟨row, _, kept⟩ := shows.find isNewest
    simp [ComparesAsInstants, kept]

/-- A row that compares as its instant does leaves the cache showing the newest rows. -/
theorem Shows.step (shows : Shows dateParse instantOf earlier db) {next : Arrival} {snapshot : HcmSnapshot}
    (carries : Carries dateParse next snapshot) {now : Int} {ignored : Option Bool}
    (cached : Cached snapshot now db after.balances ignored)
    (right : ignored = some true ↔ ∃ held, newestOf instantOf next.key earlier = some held ∧
      next.instant instantOf < held.instant instantOf) :
    Shows dateParse instantOf (earlier ++ [next]) after := by
  intro key
  rw [newestOf_concat]
  by_cases own : next.key = key
  · subst own
    rw [if_pos rfl]
    by_cases stale : ignored = some true
    -- ignored: the newest row stays the newest, and the cache as it is
    · obtain ⟨held, isNewest, older⟩ := right.mp stale
      rw [stale] at cached
      rw [cached.findBalance_stale, shows next.key, isNewest]
      simp [older]
    -- heeded: the row becomes the newest, and the cache shows it
    · obtain ⟨row, balance, stamp, found, given, stored, rfl, rfl, _⟩ := cached.findBalance_self stale
      rw [carries.key] at found
      rw [carries.balance] at given
      rw [carries.asOf] at stored
      rw [found]
      cases isNewest : newestOf instantOf next.key earlier with
      | none => simp [Option.some.inj given, stored]
      | some held =>
        have current : ¬ next.instant instantOf < held.instant instantOf :=
          fun older => stale (right.mpr ⟨held, isNewest, older⟩)
        simp [current, Option.some.inj given, stored]
  · rw [if_neg own, cached.findBalance_other (by rw [carries.key]; exact Ne.symm own)]
    exact shows key

/-! ## One batch -/

/-- A readable row is applied; its escalations do not touch the cache. -/
theorem applyAndEscalate_ran (clock : RowClock) {snapshot : HcmSnapshot} {next : Arrival}
    (carries : Carries dateParse next snapshot) (nonneg : 0 ≤ next.balance)
    (readable : next.Readable dateParse) (db : Db) :
    ∃ result after, applyAndEscalate clock snapshot db = (.ok result, after) ∧
      Cached snapshot clock.snapshot.now db after.balances result.ignored := by
  obtain ⟨kept, stored⟩ := readable.stored
  rw [← carries.asOf] at stored
  obtain ⟨result, middle, went⟩ :=
    applyHcmBalanceSnapshot_total carries.balance nonneg stored clock.snapshot db
  obtain ⟨after, ran⟩ := applyAndEscalate_of_applied went
  exact ⟨result, after, ran, applyAndEscalate_cached ran⟩

/-- NaN is not older than anything, and no column takes it. -/
theorem applyAndEscalate_threw (clock : RowClock) {snapshot : HcmSnapshot} {next : Arrival}
    (carries : Carries dateParse next snapshot) (unreadable : ¬ next.Readable dateParse) (db : Db) :
    ∃ failure after, applyAndEscalate clock snapshot db = (.error failure, after) := by
  have given : snapshot.asOf = .nan := carries.asOf.trans (next.stamp_of_unreadable unreadable)
  cases ran : applyAndEscalate clock snapshot db with
  | mk answer after =>
    cases answer with
    | error failure => exact ⟨failure, after, rfl⟩
    | ok result =>
      have unordered (held : Stamp) : Stamp.nan.lt held = false := by
        cases held <;> rfl
      have cached := applyAndEscalate_cached ran
      generalize result.ignored = ignored at cached
      cases cached with
      | first balance stamp absent balanceGiven nonneg stored => simp [given, Stamp.stored, Stamp.nan] at stored
      | stale row found older => simp [given, unordered] at older
      | newer row balance stamp found current balanceGiven nonneg stored =>
        simp [given, Stamp.stored, Stamp.nan] at stored

/-- The rows of a batch carry these arrivals, whatever the clock says. -/
def CarryAll (dateParse : String → Option Int) (asOf : Option Stamp) (rows : List BatchRow)
    (arrivals : List Arrival) : Prop :=
  List.Forall₂ (fun row arrival => ∀ clock, Carries dateParse arrival (rowSnapshot asOf clock row))
    rows arrivals

def SnapshotResult.isIgnored (result : SnapshotResult) : Bool := result.ignored = some true

/-- A batch is applied to its end and reports the stale rows exactly when its rows arrive comparably,
and then the cache shows the newest rows afterwards. -/
theorem applyRows_taken {asOf : Option Stamp} {rows : List BatchRow}
    (carries : CarryAll dateParse asOf rows arrivals) (clocks : Nat → RowClock)
    (shows : Shows dateParse instantOf earlier db) (nonneg : ∀ arrival ∈ arrivals, 0 ≤ arrival.balance) :
    ((applyRows asOf clocks rows db).failure = none ∧
        (applyRows asOf clocks rows db).results.map SnapshotResult.isIgnored =
          staleRows instantOf earlier arrivals ↔ ArriveComparably dateParse instantOf earlier arrivals) ∧
      (ArriveComparably dateParse instantOf earlier arrivals →
        Shows dateParse instantOf (earlier ++ arrivals) (applyRows asOf clocks rows db).db) := by
  induction carries generalizing clocks db earlier with
  | nil =>
    rw [List.append_nil]
    exact ⟨⟨fun _ => trivial, fun _ => ⟨rfl, rfl⟩⟩, fun _ => shows⟩
  | @cons row next rows rest carriesNext carriesRest inductionHypothesis =>
    have carriesHere := carriesNext (clocks 0)
    by_cases readable : next.Readable dateParse
    · obtain ⟨result, after, ran, cached⟩ :=
        applyAndEscalate_ran (clocks 0) carriesHere (nonneg next List.mem_cons_self) readable db
      have right := shows.reported_iff carriesHere cached
      have restNonneg : ∀ arrival ∈ rest, 0 ≤ arrival.balance :=
        fun arrival member => nonneg arrival (List.mem_cons_of_mem _ member)
      have flag : result.isIgnored = (newestOf instantOf next.key earlier).any
          (fun held => next.instant instantOf < held.instant instantOf) ↔
          ArrivesComparably dateParse instantOf earlier next := by
        rw [ArrivesComparably, and_iff_right readable, ← right, Bool.eq_iff_iff, SnapshotResult.isIgnored,
          decide_eq_true_iff, Option.any_eq_true]
        simp only [decide_eq_true_eq]
      simp only [applyRows]
      simp only [ran, List.map_cons, staleRows, List.cons.injEq, ArriveComparably]
      rw [flag, and_left_comm]
      by_cases comparable : ArrivesComparably dateParse instantOf earlier next
      · have showsNext := shows.step carriesHere cached (right.mpr comparable.2)
        obtain ⟨reported, showsRest⟩ := inductionHypothesis (fun n => clocks (n + 1)) showsNext restNonneg
        rw [List.append_assoc] at showsRest
        exact ⟨and_congr Iff.rfl reported, fun both => showsRest both.2⟩
      · exact ⟨⟨fun both => absurd both.1 comparable, fun both => absurd both.1 comparable⟩,
          fun both => absurd both.1 comparable⟩
    -- the row throws, and nothing is reported
    · obtain ⟨failure, after, threw⟩ := applyAndEscalate_threw (clocks 0) carriesHere readable db
      simp only [applyRows]
      simp only [threw, ArriveComparably]
      exact ⟨⟨fun both => absurd both.1 (Option.some_ne_none failure), fun both => absurd both.1.1 readable⟩,
        fun both => absurd both.1.1 readable⟩

theorem applyRows_length {asOf : Option Stamp} {clocks : Nat → RowClock} {rows : List BatchRow} {db : Db}
    (complete : (applyRows asOf clocks rows db).failure = none) :
    (applyRows asOf clocks rows db).results.length = rows.length := by
  induction rows generalizing clocks db with
  | nil => rfl
  | cons row rest inductionHypothesis =>
    revert complete
    simp only [applyRows]
    split
    · intro threw
      simp at threw
    · intro complete
      exact congrArg (· + 1) (inductionHypothesis complete)

/-! ## One delivery -/

theorem Arrival.parsed (dateParse : String → Option Int) {arrival : Arrival}
    (nonempty : arrival.spelling ≠ "") (notOwn : arrival.own = false) (asOf : Option String)
    (spelled : asOf.getD "" = arrival.spelling) :
    HcmWebhookController.parseAsOf dateParse asOf = some (arrival.stamp dateParse) := by
  cases asOf with
  | none => exact absurd spelled.symm nonempty
  | some spelling =>
    obtain rfl : spelling = arrival.spelling := spelled
    simp only [HcmWebhookController.parseAsOf, if_neg nonempty, stamp, notOwn]
    cases dateParse arrival.spelling with
    | none => rfl
    | some time => rfl

def Delivery.clocks : Delivery → Nat → RowClock
  | batch clocks _ => clocks
  | single clocks _ => clocks

/-- The batch that a delivery hands on. -/
def Delivery.handed (dateParse : String → Option Int) : Delivery → Batch
  | batch _ body => HcmWebhookController.batchOf dateParse body
  | single _ body => HcmWebhookController.singleOf dateParse body

theorem Delivery.deliver_eq (delivery : Delivery) (db : Db) : delivery.deliver dateParse db =
    handleBatch delivery.clocks (delivery.handed dateParse) db := by
  cases delivery <;> rfl

/-- How far the rows of a delivery are applied. -/
def Delivery.run (dateParse : String → Option Int) (delivery : Delivery) (db : Db) : BatchRun :=
  applyRows (delivery.handed dateParse).asOf delivery.clocks (delivery.handed dateParse).balances db

theorem Delivery.carries (dateParse : String → Option Int) {delivery : Delivery}
    (nonempty : ∀ arrival ∈ delivery.arrivals, arrival.spelling ≠ "") :
    CarryAll dateParse (delivery.handed dateParse).asOf (delivery.handed dateParse).balances
      delivery.arrivals := by
  cases delivery with
  | batch clocks body =>
    simp only [CarryAll]
    simp only [handed, HcmWebhookController.batchOf, arrivals, List.forall₂_map_left_iff,
      List.forall₂_map_right_iff]
    apply List.forall₂_same.mpr
    intro entry member clock
    have entryNonempty := nonempty _ (List.mem_map_of_mem member)
    refine ⟨rfl, rfl, ?_⟩
    cases own : entry.asOf with
    | some spelling => simp [rowSnapshot, Arrival.stamp]
    | none =>
      rw [own] at entryNonempty
      have parsed := Arrival.parsed dateParse entryNonempty rfl body.asOf rfl
      simp [rowSnapshot, parsed]
  | single clocks body =>
    have parsed := Arrival.parsed dateParse (nonempty _ (List.mem_singleton_self _)) rfl
      body.asOf rfl
    refine .cons ?_ .nil
    intro clock
    exact ⟨rfl, rfl, by simp [handed, HcmWebhookController.singleOf, rowSnapshot, parsed]⟩

theorem reported_zipWith {rows : List BatchRow} {results : List SnapshotResult}
    (count : results.length = rows.length) :
    (List.zipWith appliedEntry rows results).map AppliedEntry.isIgnored =
      results.map SnapshotResult.isIgnored := by
  induction rows generalizing results with
  | nil =>
    rw [List.length_eq_zero_iff.mp count]
    rfl
  | cons row rest inductionHypothesis =>
    cases results with
    | nil => cases count
    | cons result others =>
      exact congrArg (result.isIgnored :: ·) (inductionHypothesis (Nat.succ.inj count))

section Reported

variable {delivery : Delivery}

theorem Delivery.reported_of_complete (complete : (delivery.run dateParse db).failure = none) :
    reportedIgnored (delivery.deliver dateParse db).1 =
      (delivery.run dateParse db).results.map SnapshotResult.isIgnored := by
  rw [run] at complete ⊢
  rw [delivery.deliver_eq, handleBatch]
  simp only [complete]
  exact reported_zipWith (applyRows_length complete)

/-- A delivery of which a row threw reports nothing. -/
theorem Delivery.reported_of_threw {failure : Failure}
    (threw : (delivery.run dateParse db).failure = some failure) :
    reportedIgnored (delivery.deliver dateParse db).1 = [] := by
  rw [run] at threw
  rw [delivery.deliver_eq, handleBatch]
  simp only [threw]
  rfl

theorem Delivery.reported_length (carries : CarryAll dateParse (delivery.handed dateParse).asOf
      (delivery.handed dateParse).balances delivery.arrivals) (db : Db) :
    (reportedIgnored (delivery.deliver dateParse db).1).length ≤ delivery.arrivals.length := by
  cases failed : (delivery.run dateParse db).failure with
  | none =>
    rw [Delivery.reported_of_complete failed, List.length_map, ← carries.length_eq]
    exact (applyRows_length failed).le
  | some failure =>
    rw [Delivery.reported_of_threw failed]
    exact Nat.zero_le _

end Reported

/-! ## Deliveries one after the other -/

theorem staleRows_append (earlier first second : List Arrival) :
    staleRows instantOf earlier (first ++ second) =
      staleRows instantOf earlier first ++ staleRows instantOf (earlier ++ first) second := by
  induction first generalizing earlier with
  | nil => simp [staleRows]
  | cons next rest inductionHypothesis => simp [staleRows, inductionHypothesis]

theorem staleRows_length (instantOf : String → Option ℚ) (earlier arrivals : List Arrival) :
    (staleRows instantOf earlier arrivals).length = arrivals.length := by
  induction arrivals generalizing earlier with
  | nil => rfl
  | cons next rest inductionHypothesis => simp [staleRows, inductionHypothesis]

theorem arriveComparably_append (earlier first second : List Arrival) :
    ArriveComparably dateParse instantOf earlier (first ++ second) ↔
      ArriveComparably dateParse instantOf earlier first ∧
        ArriveComparably dateParse instantOf (earlier ++ first) second := by
  induction first generalizing earlier with
  | nil => simp [ArriveComparably]
  | cons next rest inductionHypothesis => simp [ArriveComparably, inductionHypothesis, and_assoc]

/-- What a delivery reports is right exactly when its rows arrive comparably. -/
theorem Delivery.taken {delivery : Delivery}
    (valid : ∀ arrival ∈ delivery.arrivals, arrival.Valid instantOf)
    (shows : Shows dateParse instantOf earlier db) :
    (reportedIgnored (delivery.deliver dateParse db).1 = staleRows instantOf earlier delivery.arrivals ↔
        ArriveComparably dateParse instantOf earlier delivery.arrivals) ∧
      (ArriveComparably dateParse instantOf earlier delivery.arrivals →
        Shows dateParse instantOf (earlier ++ delivery.arrivals) (delivery.deliver dateParse db).2) := by
  have carries := Delivery.carries dateParse fun arrival member => (valid arrival member).nonempty
  obtain ⟨taken, showsAfter⟩ := applyRows_taken carries delivery.clocks shows
    fun arrival member => (valid arrival member).nonneg
  have after : (delivery.deliver dateParse db).2 = (delivery.run dateParse db).db := by
    rw [delivery.deliver_eq, handleBatch_db, Delivery.run]
  rw [after]
  refine ⟨?_, showsAfter⟩
  rw [← taken, ← Delivery.run]
  cases failed : (delivery.run dateParse db).failure with
  | none => rw [Delivery.reported_of_complete failed, eq_self, true_and]
  | some failure =>
    -- there is a row that threw, so that something should have been reported
    rw [Delivery.reported_of_threw failed]
    simp only [reduceCtorEq, false_and, iff_false]
    intro nothing
    have noRows : delivery.arrivals.length = 0 := by
      rw [← staleRows_length instantOf earlier, ← nothing, List.length_nil]
    rw [← carries.length_eq, List.length_eq_zero_iff] at noRows
    rw [Delivery.run, noRows] at failed
    cases failed

theorem deliverAll_length (dateParse : String → Option Int) {deliveries : List Delivery}
    (valid : ∀ arrival ∈ deliveries.flatMap Delivery.arrivals, arrival.Valid instantOf) (db : Db) :
    ((deliverAll dateParse deliveries db).1.flatMap reportedIgnored).length ≤
      (deliveries.flatMap Delivery.arrivals).length := by
  induction deliveries generalizing db with
  | nil => exact le_refl _
  | cons delivery rest inductionHypothesis =>
    rw [List.flatMap_cons, List.forall_mem_append] at valid
    have carries := Delivery.carries dateParse
      fun arrival member => (valid.1 arrival member).nonempty
    simp only [deliverAll, List.flatMap_cons, List.length_append]
    exact Nat.add_le_add (Delivery.reported_length carries db) (inductionHypothesis valid.2 _)

/-- No part of a list that is put together can make up for what the other lacks. -/
theorem append_eq_append_of_length_le {α : Type} {first second left right : List α}
    (shortFirst : first.length ≤ left.length) (shortSecond : second.length ≤ right.length) :
    first ++ second = left ++ right ↔ first = left ∧ second = right := by
  constructor
  · intro same
    have lengths := congrArg List.length same
    rw [List.length_append, List.length_append] at lengths
    exact List.append_inj same (by omega)
  · rintro ⟨rfl, rfl⟩
    rfl

theorem deliverAll_taken {deliveries : List Delivery}
    (valid : ∀ arrival ∈ deliveries.flatMap Delivery.arrivals, arrival.Valid instantOf)
    (shows : Shows dateParse instantOf earlier db) :
    ((deliverAll dateParse deliveries db).1.flatMap reportedIgnored =
        staleRows instantOf earlier (deliveries.flatMap Delivery.arrivals) ↔
      ArriveComparably dateParse instantOf earlier (deliveries.flatMap Delivery.arrivals)) ∧
    (ArriveComparably dateParse instantOf earlier (deliveries.flatMap Delivery.arrivals) →
      Shows dateParse instantOf (earlier ++ deliveries.flatMap Delivery.arrivals)
        (deliverAll dateParse deliveries db).2) := by
  induction deliveries generalizing db earlier with
  | nil =>
    rw [List.flatMap_nil, List.append_nil]
    exact ⟨⟨fun _ => trivial, fun _ => rfl⟩, fun _ => shows⟩
  | cons delivery rest inductionHypothesis =>
    rw [List.flatMap_cons] at valid ⊢
    obtain ⟨firstValid, restValid⟩ := List.forall_mem_append.mp valid
    obtain ⟨reportsFirst, showsFirst⟩ := Delivery.taken firstValid shows
    have carries := Delivery.carries dateParse
      fun arrival member => (firstValid arrival member).nonempty
    have shortFirst := Delivery.reported_length carries db
    have shortRest := deliverAll_length dateParse restValid (delivery.deliver dateParse db).2
    rw [← staleRows_length instantOf earlier] at shortFirst
    rw [← staleRows_length instantOf (earlier ++ delivery.arrivals)] at shortRest
    simp only [deliverAll, List.flatMap_cons]
    rw [staleRows_append, arriveComparably_append, append_eq_append_of_length_le shortFirst shortRest,
      reportsFirst]
    by_cases comparable : ArriveComparably dateParse instantOf earlier delivery.arrivals
    · obtain ⟨reportsRest, showsRest⟩ := inductionHypothesis restValid (showsFirst comparable)
      rw [List.append_assoc] at showsRest
      exact ⟨and_congr Iff.rfl reportsRest, fun both => showsRest both.2⟩
    · exact ⟨⟨fun both => absurd both.1 comparable, fun both => absurd both.1 comparable⟩,
        fun both => absurd both.1 comparable⟩

theorem newestWins_iff_of_empty {deliveries : List Delivery} (empty : db.balances.rows = [])
    (valid : ∀ arrival ∈ deliveries.flatMap Delivery.arrivals, arrival.Valid instantOf) :
    NewestWins instantOf (deliveries.flatMap Delivery.arrivals) (deliverAll dateParse deliveries db) ↔
      ArriveComparably dateParse instantOf [] (deliveries.flatMap Delivery.arrivals) := by
  have shows : Shows dateParse instantOf [] db := by
    intro key
    simp [findBalance, empty, newestOf]
  obtain ⟨reports, showsAll⟩ := deliverAll_taken valid shows
  constructor
  · intro wins
    exact reports.mp wins.reported
  · intro comparable
    refine ⟨reports.mpr comparable, ?_⟩
    intro key
    have cached := congrArg (Option.map Prod.fst) (showsAll comparable key)
    simpa [Option.map_map, Function.comp_def] using cached

/-- A row that is reported as ignored changes no table. -/
theorem ignored_sameTables {clock : RowClock} {snapshot : HcmSnapshot} {result : SnapshotResult}
    (ran : applyAndEscalate clock snapshot db = (.ok result, after))
    (ignored : result.ignored = some true) : SameTables db after := by
  simp only [applyAndEscalate] at ran
  split at ran
  next => cases ran
  next other middle applied =>
    have snapshotted := applyHcmBalanceSnapshot_ok applied
    split at ran
    next drift =>
      cases ran
      exact absurd ignored (snapshotted.drift.mp drift).1
    next =>
      cases ran
      have cached := snapshotted.cached
      rw [ignored] at cached
      refine ⟨snapshotted.requests, snapshotted.reservations, snapshotted.hcmOutbox, ?_⟩
      cases cached with
      | stale row found older balances => exact balances

theorem NewestWins.order_independent {others : List Arrival}
    {outcome otherOutcome : List (Except Failure BatchResult) × Db} (perm : arrivals.Perm others)
    (agree : ∀ left ∈ arrivals, ∀ right ∈ arrivals, left.key = right.key →
      left.instant instantOf = right.instant instantOf → left.balance = right.balance)
    (wins : NewestWins instantOf arrivals outcome) (otherWins : NewestWins instantOf others otherOutcome)
    (key : Key) : (findBalance key outcome.2).map BalanceRow.hcmBalance =
      (findBalance key otherOutcome.2).map BalanceRow.hcmBalance := by
  rw [wins.cached, otherWins.cached]
  apply newest_perm (perm.filter _)
  intro left leftIn right rightIn same
  obtain ⟨leftMember, leftKey⟩ := List.mem_filter.mp leftIn
  obtain ⟨rightMember, rightKey⟩ := List.mem_filter.mp rightIn
  have sameKey : left.key = right.key :=
    (of_decide_eq_true leftKey).trans (of_decide_eq_true rightKey).symm
  exact agree left leftMember right rightMember sameKey same

/-- From an empty cache, valid deliveries report the stale rows and leave each key at the balance of its
newest row exactly when the rows arrive comparably.  What is then cached does not depend on the order in
which rows of distinct instants arrive, and a row reported as ignored changes no table. -/
theorem newest_wins_iff (dateParse : String → Option Int) (instantOf : String → Option ℚ) (db : Db)
    (deliveries : List Delivery) (empty : db.balances.rows = [])
    (valid : ∀ arrival ∈ deliveries.flatMap Delivery.arrivals, arrival.Valid instantOf) :
    (NewestWins instantOf (deliveries.flatMap Delivery.arrivals) (deliverAll dateParse deliveries db) ↔
      ArriveComparably dateParse instantOf [] (deliveries.flatMap Delivery.arrivals)) ∧
    (∀ others : List Delivery,
      (deliveries.flatMap Delivery.arrivals).Perm (others.flatMap Delivery.arrivals) →
      (∀ left ∈ deliveries.flatMap Delivery.arrivals, ∀ right ∈ deliveries.flatMap Delivery.arrivals,
        left.key = right.key → left.instant instantOf = right.instant instantOf →
        left.balance = right.balance) →
      ArriveComparably dateParse instantOf [] (deliveries.flatMap Delivery.arrivals) →
      ArriveComparably dateParse instantOf [] (others.flatMap Delivery.arrivals) →
      ∀ key, (findBalance key (deliverAll dateParse deliveries db).2).map BalanceRow.hcmBalance =
        (findBalance key (deliverAll dateParse others db).2).map BalanceRow.hcmBalance) ∧
    ∀ clock snapshot before result after,
      applyAndEscalate clock snapshot before = (.ok result, after) → result.ignored = some true →
      SameTables before after := by
  refine ⟨newestWins_iff_of_empty empty valid, ?_,
    fun _ _ _ _ _ ran ignored => ignored_sameTables ran ignored⟩
  intro others perm agree comparable othersComparable key
  have othersValid : ∀ arrival ∈ others.flatMap Delivery.arrivals, arrival.Valid instantOf :=
    fun arrival member => valid arrival (perm.mem_iff.mpr member)
  have wins := (newestWins_iff_of_empty empty valid).mpr comparable
  have othersWin := (newestWins_iff_of_empty empty othersValid).mpr othersComparable
  exact wins.order_independent perm agree othersWin key

/-! ## An older row in a batch -/

/-- The instants that `Date.parse` reads. -/
def readInstant (spelling : String) : Option ℚ := (Lib.dateParse spelling).map fun time => (time : ℚ)

/-- HCM reports five days as of the 24th. -/
def reportedFive : Delivery :=
  .single (fun _ => ⟨0, ⟨0, 0⟩, fun _ => ⟨0, 0⟩⟩)
    ⟨"employee-1", "HQ", "vacation", 5, some "2026-04-24T00:00:00Z"⟩

/-- A batch of nine days as of the 23rd comes in after that. -/
def reportedNine (rowAsOf batchAsOf : Option String) : Delivery :=
  .batch (fun _ => ⟨0, ⟨0, 0⟩, fun _ => ⟨0, 0⟩⟩)
    ⟨none, batchAsOf, [⟨"employee-1", "HQ", "vacation", 9, rowAsOf⟩]⟩

def lateArrivals (own : Bool) : List Arrival :=
  [⟨⟨"employee-1", "HQ", "vacation"⟩, 5, "2026-04-24T00:00:00Z", false⟩,
    ⟨⟨"employee-1", "HQ", "vacation"⟩, 9, "2026-04-23T00:00:00Z", own⟩]

theorem lateArrivals_valid (own : Bool) :
    ∀ arrival ∈ lateArrivals own, arrival.Valid readInstant := by
  have first : "2026-04-24T00:00:00Z" ≠ "" ∧ (readInstant "2026-04-24T00:00:00Z").isSome := by decide +kernel
  have late : "2026-04-23T00:00:00Z" ≠ "" ∧ (readInstant "2026-04-23T00:00:00Z").isSome := by decide +kernel
  simp only [lateArrivals, List.forall_mem_cons, List.not_mem_nil, false_imp_iff, implies_true, and_true]
  exact ⟨⟨by norm_num, first.1, first.2⟩, ⟨by norm_num, late.1, late.2⟩⟩

/-- The row's own `asOf` reaches the cache as a string and overwrites the newer balance. -/
theorem own_asOf_overwrites_newer :
    (∀ arrival ∈ [reportedFive, reportedNine (some "2026-04-23T00:00:00Z") none].flatMap
      Delivery.arrivals, arrival.Valid readInstant) ∧
    ¬ NewestWins readInstant
      ([reportedFive, reportedNine (some "2026-04-23T00:00:00Z") none].flatMap Delivery.arrivals)
      (deliverAll Lib.dateParse
        [reportedFive, reportedNine (some "2026-04-23T00:00:00Z") none] Db.empty) := by
  refine ⟨lateArrivals_valid true, ?_⟩
  intro wins
  have cached := wins.cached ⟨"employee-1", "HQ", "vacation"⟩
  revert cached
  decide +kernel

/-- With the `asOf` on the batch, the late row is ignored. -/
theorem newest_wins_office :
    NewestWins readInstant
      ([reportedFive, reportedNine none (some "2026-04-23T00:00:00Z")].flatMap Delivery.arrivals)
      (deliverAll Lib.dateParse
        [reportedFive, reportedNine none (some "2026-04-23T00:00:00Z")] Db.empty) := by
  apply (newest_wins_iff Lib.dateParse readInstant Db.empty
    [reportedFive, reportedNine none (some "2026-04-23T00:00:00Z")] rfl (lateArrivals_valid false)).1.mpr
  have firstReadable : Arrival.Readable Lib.dateParse (lateArrivals false)[0] := .inr (by decide +kernel)
  have lateReadable : Arrival.Readable Lib.dateParse (lateArrivals false)[1] := .inr (by decide +kernel)
  refine ⟨⟨firstReadable, by simp [newestOf]⟩, ⟨lateReadable, ?_⟩, trivial⟩
  intro held isNewest
  obtain ⟨member, _⟩ := newestOf_mem isNewest
  obtain rfl := List.mem_singleton.mp member
  apply (comparesAsInstants_iff lateReadable firstReadable ⟨by decide +kernel, by decide +kernel⟩
    ⟨by decide +kernel, by decide +kernel⟩).mpr
  show (Lib.dateParse _).getD 0 < (Lib.dateParse _).getD 0 ↔ _
  decide +kernel

end TimeOff
