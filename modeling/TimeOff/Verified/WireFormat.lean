import TimeOff.Lib.JsonReading
import TimeOff.Hcm.Wire
import TimeOff.Verified.CalendarDays
import TimeOff.Verified.CallSequences
import TimeOff.Verified.SingleDebit

/-! # What HCM reads is what was approved

A payload is written as JSON into the outbox, read from there when the row is claimed, and
written again as the body of the consume call.  Nothing is lost on the way: the names and
dates are quoted, and the days are a count of dates, small enough for a double.
-/

set_option autoImplicit false

namespace TimeOff

open TimeOff.Lib HcmClient HcmOutboxService TimeOffRepository

/-! ## The days are small whole numbers -/

/-- Only dates with a year of four digits are counted. -/
theorem dayNumber_range {s : String} {date : CalendarDate} (named : Names s date) :
    -683003 ≤ date.dayNumber ∧ date.dayNumber < 2932897 := by
  obtain ⟨modern, fourDigits, -⟩ := named
  obtain ⟨begins, ends⟩ := date.dayNumber_in_year
  have first := dayFromYear_mono modern
  have last := dayFromYear_mono (show date.year + 1 ≤ 10000 by omega)
  have numbers : dayFromYear 100 = -683003 ∧ dayFromYear 10000 = 2932897 := by decide
  omega

theorem countDaysInclusive_small {startDate endDate : String} {days : ℚ}
    (counted : countDaysInclusive startDate endDate = .ok days) : ∃ n : ℕ, n < 4000000 ∧ days = n := by
  have parsed := counted
  simp only [countDaysInclusive] at parsed
  cases startParsed : parseIsoDate startDate with
  | error failure => simp [startParsed, Bind.bind, Except.bind] at parsed
  | ok s =>
    cases endParsed : parseIsoDate endDate with
    | error failure => simp [startParsed, endParsed, Bind.bind, Except.bind] at parsed
    | ok e =>
      obtain ⟨start, startNamed, -⟩ := parseIsoDate_eq_ok.mp startParsed
      obtain ⟨ending, endNamed, -⟩ := parseIsoDate_eq_ok.mp endParsed
      have startRange := dayNumber_range startNamed
      have endRange := dayNumber_range endNamed
      rw [countDaysInclusive_eq startNamed endNamed] at counted
      split at counted
      · cases counted
      next ordered =>
        cases counted
        have forward := CalendarDate.le_iff_dayNumber.mp (CalendarDate.not_before.mp ordered)
        refine ⟨(ending.dayNumber - start.dayNumber + 1).toNat, by omega, ?_⟩
        exact_mod_cast congrArg (Int.cast (R := ℚ)) (Int.toNat_of_nonneg (by omega)).symm

/-- A number that a double holds exactly. -/
theorem ofRat_natCast {n : ℕ} (small : n < 2 ^ 53) : ∃ x : Double, x.value = n ∧ Number.ofRat n = .finite x := by
  have size : (n : ℚ) < 2 ^ 53 := by exact_mod_cast small
  have nonneg : (0 : ℚ) ≤ n := Nat.cast_nonneg n
  have onGrid : OnGrid n := by
    refine ⟨n, 0, ?_, by norm_num, by simp⟩
    rw [abs_of_nonneg (Int.natCast_nonneg n)]
    exact_mod_cast small
  have bounded : |(n : ℚ)| < 2 ^ 1024 := by
    rw [abs_of_nonneg nonneg]
    exact size.trans (pow_lt_pow_right₀ (by norm_num) (by norm_num))
  exact ⟨⟨n, onGrid, bounded⟩, rfl, Number.ofRat_value ⟨n, onGrid, bounded⟩⟩

/-! ## A payload survives its JSON -/

/-- The days are a number that a double holds. -/
def ConsumePayload.Writable (payload : ConsumePayload) : Prop := ∃ n : ℕ, n < 2 ^ 53 ∧ payload.days = n

theorem ConsumePayload.Writable.plain {payload : ConsumePayload} (writable : payload.Writable) :
    payload.toJson.Plain := by
  obtain ⟨n, small, days⟩ := writable
  obtain ⟨x, -, exact_⟩ := ofRat_natCast small
  refine ⟨by simp, ?_⟩
  simp [Json.PlainMembers, Json.Plain, days, exact_]

theorem ConsumePayload.ofJson?_toJson {payload : ConsumePayload} (writable : payload.Writable) :
    ConsumePayload.ofJson? payload.toJson = some payload := by
  obtain ⟨n, small, days⟩ := writable
  obtain ⟨x, value, exact_⟩ := ofRat_natCast small
  cases payload
  cases days
  simp [ofJson?, toJson, Json.member?, Json.text?, Json.amount?, exact_, value]

theorem readPayload_payloadText {payload : ConsumePayload} (writable : payload.Writable) :
    readPayload (payloadText payload) = some payload := by
  rw [readPayload, payloadText, Json.parse_stringify writable.plain, Option.bind_some,
    ConsumePayload.ofJson?_toJson writable]

/-- The body of the call is the text that the outbox holds. -/
theorem readBody {payload : ConsumePayload} (writable : payload.Writable) :
    (consumeBalanceCall payload).body.bind readPayload = some payload := by
  rw [consumeBalanceCall, Option.bind_some, ← payloadText, readPayload_payloadText writable]

/-! ## A query survives its encoding -/

theorem decodeQuery_balanceQuery (key : Key) :
    decodeQuery (balanceQuery key).toList = some (keyPairs key) := by
  rw [balanceQuery, String.toList_ofList, decodeQuery_encodeQuery]

/-! ## Every payload there is -/

/-- The days of a request are what its dates count to. -/
def CountedDays (db : Db) : Prop :=
  ∀ row ∈ db.requests.rows, countDaysInclusive row.startDate row.endDate = .ok row.days

section Counted

variable {db after : Db}

theorem CountedDays.congr (counted : CountedDays db) (same : after.requests = db.requests) :
    CountedDays after := by
  rw [CountedDays, same]
  exact counted

theorem CountedDays.moved {before : RequestRow} {toState : State} {now : Int} {patch : StatePatch}
    (counted : CountedDays db) (moved : Moved before toState now patch db after) : CountedDays after := by
  intro row member
  rw [moved.requests] at member
  obtain ⟨old, oldIn, rfl⟩ := List.mem_map.mp member
  unfold patchRow
  split
  · exact counted old oldIn
  · exact counted old oldIn

theorem CountedDays.change {results : List SnapshotResult} (counted : CountedDays db)
    (change : Change db results after) : CountedDays after := by
  cases change with
  | moved moved => exact counted.moved moved
  | healed healed =>
    refine healed.preserves ?_ ?_ counted
    · intro before toState now patch db after holds moved
      exact holds.moved moved
    · intro snapshot now result db after holds applied
      exact holds.congr applied.requests
  | requeued requeued => exact counted.congr requeued.requests

theorem CountedDays.exec (counted : CountedDays db) (call : Call) : CountedDays (call.exec db) := by
  obtain ⟨clock, ids, actor, input, created, rfl, ran⟩ | change := call.change db
  · obtain ⟨days, employeeId, _, _, count, _, new, _⟩ := createRequest_inv ran
    rw [CountedDays, (createRequest_ok ran).requests, new, List.forall_mem_append]
    exact ⟨counted, List.forall_mem_singleton.mpr count⟩
  · exact counted.change change

end Counted

/-- What the service says of a request to HCM, it says exactly. -/
theorem SpeaksFor.writable {db : Db} {requestId : String} {payload : ConsumePayload}
    (speaks : SpeaksFor db requestId payload) (counted : CountedDays db) :
    countDaysInclusive payload.startDate payload.endDate = .ok payload.days ∧ payload.Writable := by
  obtain ⟨request, externalRequestId, found, -, rfl⟩ := speaks
  have count := counted request (Table.find?_eq_some.mp found).1
  obtain ⟨n, small, days⟩ := countDaysInclusive_small count
  exact ⟨count, n, by omega, days⟩

theorem accounted_throughout (config : OutboxConfig) (events : List Event) :
    Always (World.step config) (fun world => Accounted world ∧ CountedDays world.db) World.empty events := by
  refine always_of_invariant (fun world => Accounted world ∧ CountedDays world.db) ?_ ?_ events
  · intro world event next ⟨accounted, counted⟩ stepped
    obtain ⟨calls, reached⟩ := (step_calledTo stepped).reached
    refine ⟨accounted.step (step_stepped stepped), ?_⟩
    rw [reached]
    exact execAll_invariant (fun call _ holds => holds.exec call) calls counted
  · exact ⟨.empty, by simp [CountedDays, World.empty, Db.empty, Table.empty]⟩

/-- What the outbox stores is read back, and what was sent says, to whoever decodes it, what the
payload says: the query names the key, the body is the payload, and its days count its own dates. -/
theorem payloads_read_back (config : OutboxConfig) (events : List Event) :
    Always (World.step config) (fun world =>
      (∀ row ∈ world.db.hcmOutbox.rows, readPayload (payloadText row.payload) = some row.payload) ∧
      ∀ call ∈ world.sent,
        decodeQuery (balanceQuery call.row.payload.key).toList = some (keyPairs call.row.payload.key) ∧
        (consumeBalanceCall call.row.payload).body.bind readPayload = some call.row.payload ∧
        countDaysInclusive call.row.payload.startDate call.row.payload.endDate =
          .ok call.row.payload.days) World.empty events := by
  apply (accounted_throughout config events).mono
  intro world ⟨accounted, counted⟩
  constructor
  · intro row member
    exact readPayload_payloadText ((accounted.labelled.outbox row member).writable counted).2
  · intro call member
    obtain ⟨count, writable⟩ := (accounted.sent call member).writable counted
    exact ⟨decodeQuery_balanceQuery _, readBody writable, count⟩

end TimeOff
