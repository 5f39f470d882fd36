import TimeOff.Balances.Doubles
import TimeOff.Verified.Failures
import TimeOff.Verified.OverCommitment

/-! # The balances that the program computes

The model computes with rationals, the program with doubles.  As long as HCM reports balances of
two decimals, the noise of the doubles never shows: each amount is the double of the rational, and
each comparison comes out the same.
-/

set_option autoImplicit false

namespace TimeOff

open TimeOff.Lib BalancesRepository TimeOffService

/-- A balance of at most two decimals, and of fewer days than any calendar has. -/
structure TwoDecimals (q : ℚ) : Prop where
  cents : ∃ m : ℤ, q = m / 100
  nonneg : 0 ≤ q
  bounded : q ≤ 2 ^ 40

/-- What is rounded to two decimals already stays as it is. -/
theorem round_cents (m : ℤ) : round (m / 100) = m / 100 := by
  have whole : roundHalfUp ((m : ℚ) / 100 * 100) = m := by
    rw [div_mul_cancel₀ _ (by norm_num)]
    exact roundHalfUp_int m
  simp only [round, roundAt]
  exact_mod_cast congrArg (fun n : ℤ => (n : ℚ) / 100) whole

theorem hundred_value : InDoubles.hundred.value = (100 : ℕ) := by
  simp [InDoubles.hundred, Double.whole]

/-- Whole days taken from the double of a decimal, and the rest rounded, is the double of the difference. -/
theorem round_minus {m n : ℤ} {decimal whole : Double} (stored : Number.ofRat (m / 100) = .finite decimal)
    (subtracted : whole.value = n) (size : |(m : ℚ) / 100| ≤ 2 ^ (40 : ℤ)) (wholeSize : |(n : ℚ)| ≤ 2 ^ (40 : ℤ)) :
    InDoubles.round (decimal.minus whole) = .ofRat ((m : ℚ) / 100 - n) := by
  -- the error of the subtraction is too small to change what is rounded
  apply roundAt_minus (by norm_num) hundred_value (by norm_num) stored subtracted size wholeSize
  · norm_num
  · norm_num

theorem below_cents {m : ℤ} (days : ℤ) (size : |(m : ℚ) / 100| ≤ 2 ^ (40 : ℤ)) :
    (Number.ofRat (m / 100)).below days = decide ((m : ℚ) / 100 < days) :=
  below_ofRat (show 0 < 100 by norm_num) (by norm_num) size (by norm_num)

section Amounts

variable {q : ℚ} {n : ℕ} {hcmBalance reserved : Double} (decimal : TwoDecimals q) (few : (n : ℚ) ≤ 2 ^ 40)
  (cached : Number.ofRat q = .finite hcmBalance) (summed : reserved.value = n)

include decimal

theorem TwoDecimals.size : |q| ≤ 2 ^ (40 : ℤ) := by
  rw [abs_of_nonneg decimal.nonneg]
  exact_mod_cast decimal.bounded

include few

/-- What the open days leave of the balance is a number of cents, of no more digits. -/
theorem cents_left : ∃ m : ℤ, q - n = m / 100 ∧ |(m : ℚ) / 100| ≤ 2 ^ (40 : ℤ) := by
  obtain ⟨m, isCents⟩ := decimal.cents
  have left : q - n = ((m - n * 100 : ℤ) : ℚ) / 100 := by
    rw [isCents]
    push_cast
    ring
  refine ⟨m - n * 100, left, ?_⟩
  have nonneg := decimal.nonneg
  have bounded := decimal.bounded
  have count : (0 : ℚ) ≤ n := Nat.cast_nonneg n
  have limit : (2 : ℚ) ^ (40 : ℤ) = 2 ^ 40 := by norm_num
  rw [← left, limit, abs_le]
  exact ⟨by linarith, by linarith⟩

include cached summed

theorem effectiveBalance_in_doubles :
    InDoubles.effectiveBalance hcmBalance reserved = .ofRat (round (q - n)) := by
  obtain ⟨left, isLeft, _⟩ := cents_left decimal few
  obtain ⟨m, isCents⟩ := decimal.cents
  have wholeSize : |((n : ℤ) : ℚ)| ≤ 2 ^ (40 : ℤ) := by
    rw [abs_of_nonneg (by positivity)]
    exact_mod_cast few
  have size := decimal.size
  rw [isLeft, round_cents, ← isLeft]
  rw [isCents] at cached size ⊢
  exact_mod_cast round_minus cached (n := n) (by exact_mod_cast summed) size wholeSize

/-- The days are admitted, or refused, as the rationals say, and the amounts are the doubles of theirs. -/
theorem admission_in_doubles {days : Double} {d : ℕ} (requested : days.value = d) :
    InDoubles.admission hcmBalance reserved days =
      if (d : ℚ) ≤ round (q - n) then .ok (.ofRat (round (round (q - n) - d)))
      else .error (.ofRat (round (q - n)), days) := by
  have effective := effectiveBalance_in_doubles decimal few cached summed
  obtain ⟨left, isLeft, size⟩ := cents_left decimal few
  simp only [isLeft, round_cents, InDoubles.effectiveBalance] at effective ⊢
  have requestedInt : days.value = (d : ℤ) := by exact_mod_cast requested
  simp only [InDoubles.admission, effective, requestedInt]
  rw [below_cents (d : ℤ) size, Int.cast_natCast]
  simp only [decide_eq_true_eq]
  by_cases fits : (d : ℚ) ≤ left / 100
  · rw [if_neg (not_lt.mpr fits), if_pos fits]
    have wholeSize : |((d : ℤ) : ℚ)| ≤ 2 ^ (40 : ℤ) := by
      rw [Int.cast_natCast, abs_of_nonneg (Nat.cast_nonneg d)]
      exact fits.trans ((le_abs_self _).trans size)
    obtain ⟨rest, finite, _⟩ := Number.ofRat_finite (by norm_num) (by norm_num) size
    have remainder : (left : ℚ) / 100 - d = ((left - d * 100 : ℤ) : ℚ) / 100 := by
      push_cast
      ring
    rw [finite, Number.andThen, round_minus finite requestedInt size wholeSize, Int.cast_natCast, remainder,
      round_cents]
  · rw [if_pos (not_le.mp fits), if_neg fits]

end Amounts

theorem negativeDrift_in_doubles {q : ℚ} {n : ℕ} {balance reserved : Double} (decimal : TwoDecimals q)
    (reported : Number.ofRat q = .finite balance) (summed : reserved.value = n) :
    InDoubles.negativeDrift balance reserved = decide (q < n) := by
  obtain ⟨m, rfl⟩ := decimal.cents
  have below := below_cents n decimal.size
  rw [reported, Number.below] at below
  rw [InDoubles.negativeDrift, summed]
  exact_mod_cast below

/-! ## The program's amounts -/

/-- What a filing that is turned down for its days has read. -/
theorem createRequest_refused {clock : Clock} {ids : NewIds} {actor : Actor} {input : CreateInput}
    {db after : Db} {effective days : ℚ}
    (ran : createRequest clock ids actor input db = (.error (.insufficientBalance effective days), after)) :
    ∃ employeeId bal, actor.sub = some employeeId ∧ countDaysInclusive input.startDate input.endDate = .ok days ∧
      findBalance ⟨employeeId, input.locationId, input.leaveType⟩ db = some bal ∧
      effective = round (bal.hcmBalance - sumOpenReservations ⟨employeeId, input.locationId, input.leaveType⟩ db) ∧
      ¬ days ≤ effective := by
  simp only [createRequest] at ran
  split at ran
  next failure counted =>
    cases ran
    have code := countDaysInclusive_error counted
    simp at code
  next n counted =>
    obtain ⟨threw, _⟩ := transaction_error.mp ran
    simp only [createRequestBody, Tx.bind_error, Tx.query_error, Tx.query_ok, Tx.orThrow_error,
      Tx.orThrow_ok, Tx.require_error, Tx.require_ok, AuditService.logInTx, Tx.write_error, Tx.pure_error,
      TimeOffRepository.insert, insertReservation, false_or, or_false, and_false,
      reduceCtorEq, exists_false] at threw
    obtain ⟨employeeId, _, ⟨subject, rfl⟩, _, _, read, bal, _, ⟨found, rfl⟩, _, _, summed, short, same⟩ := threw
    cases read
    cases summed
    cases same
    exact ⟨employeeId, bal, subject, counted, found, rfl, short⟩

/-- The key of the requests that the actor files with this input. -/
def FilesOn (actor : Actor) (input : CreateInput) (key : Key) : Prop :=
  actor.sub = some key.employeeId ∧ input.locationId = key.locationId ∧ input.leaveType = key.leaveType

/-- Whatever the program computes with these two doubles agrees with the rationals: the balance shown,
the outcome of a filing with its amounts, and the drift of a snapshot. -/
structure AgreeInDoubles (key : Key) (db : Db) (hcmBalance reserved : Double) : Prop where
  shown : ∀ effective, BalancesService.getEffectiveBalance key db = .ok effective →
    InDoubles.effectiveBalance hcmBalance reserved = .ofRat effective.effectiveBalance
  filed : ∀ {clock ids actor input created after}, FilesOn actor input key →
    createRequest clock ids actor input db = (.ok created, after) →
    ∀ days : Double, days.value = created.row.days →
      InDoubles.admission hcmBalance reserved days = .ok (.ofRat created.effectiveBalanceAfter)
  refused : ∀ {clock ids actor input effective requested after}, FilesOn actor input key →
    createRequest clock ids actor input db = (.error (.insufficientBalance effective requested), after) →
    ∀ days : Double, days.value = requested →
      InDoubles.admission hcmBalance reserved days = .error (.ofRat effective, days)
  drift : ∀ {clock snapshot result after q}, snapshot.key = key →
    BalancesService.applyHcmBalanceSnapshot clock snapshot db = (.ok result, after) →
    snapshot.balance = some q → TwoDecimals q → ∀ balance : Double, Number.ofRat q = .finite balance →
      (result.negativeDrift = true ↔
        result.ignored ≠ some true ∧ InDoubles.negativeDrift balance reserved = true)

theorem FilesOn.key {actor : Actor} {input : CreateInput} {key : Key} {employeeId : String}
    (own : FilesOn actor input key) (subject : actor.sub = some employeeId) :
    ⟨employeeId, input.locationId, input.leaveType⟩ = key := by
  obtain ⟨sameSubject, location, leaveType⟩ := own
  cases subject.symm.trans sameSubject
  rw [location, leaveType]

theorem agreeInDoubles {key : Key} {db : Db} {bal : BalanceRow} (whole : WholeDays db)
    (found : findBalance key db = some bal) (decimal : TwoDecimals bal.hcmBalance)
    (few : sumOpenReservations key db ≤ 2 ^ 40) {hcmBalance reserved : Double}
    (cached : Number.ofRat bal.hcmBalance = .finite hcmBalance)
    (summed : reserved.value = sumOpenReservations key db) : AgreeInDoubles key db hcmBalance reserved := by
  -- the open days are a whole number, as each reservation is
  obtain ⟨n, isWhole⟩ : ∃ n : ℕ, sumOpenReservations key db = n :=
    sum_whole fun row member => whole row (List.mem_of_mem_filter member)
  rw [isWhole] at few summed
  constructor
  · intro effective shows
    rw [BalancesService.getEffectiveBalance, found] at shows
    cases shows
    rw [isWhole]
    exact effectiveBalance_in_doubles decimal few cached summed
  · intro clock ids actor input created after own ran days requested
    obtain ⟨counted, employeeId, _, _, isCounted, subject, row, foundOwn, admitted, afterwards, _⟩ :=
      createRequest_inv ran
    -- the filing has read the same two amounts
    have ownKey : created.row.key = key := by
      rw [row]
      exact own.key subject
    rw [ownKey] at foundOwn admitted afterwards
    cases found.symm.trans foundOwn
    obtain ⟨d, _, rfl⟩ := countDaysInclusive_whole isCounted
    have sameDays : days.value = d := by
      rw [requested, row]
      rfl
    rw [isWhole] at admitted afterwards
    rw [admission_in_doubles decimal few cached summed sameDays, if_pos admitted, afterwards]
  · intro clock ids actor input effective requested after own ran days isRequested
    obtain ⟨employeeId, _, subject, isCounted, foundOwn, isEffective, short⟩ := createRequest_refused ran
    rw [own.key subject] at foundOwn isEffective
    cases found.symm.trans foundOwn
    obtain ⟨d, _, rfl⟩ := countDaysInclusive_whole isCounted
    rw [isWhole] at isEffective
    rw [isEffective] at short ⊢
    rw [admission_in_doubles decimal few cached summed isRequested, if_neg short]
  · intro clock snapshot result after q own ran isBalance decimalReported balance reported
    rw [(applyHcmBalanceSnapshot_ok ran).drift, own, isBalance, isWhole,
      negativeDrift_in_doubles decimalReported reported summed]
    simp

/-- In every reachable state, for every key whose cached balance has two decimals and whose balance and open
days stay below a trillion: SQLite's two doubles exist, and what the program computes with them agrees with
the exact amounts.  So no filing is admitted or refused, and no drift reported, for the noise of doubles. -/
theorem amounts_agree_in_doubles (config : OutboxConfig) (events : List Event) :
    Always (World.step config) (fun world => ∀ key bal, findBalance key world.db = some bal →
      TwoDecimals bal.hcmBalance → sumOpenReservations key world.db ≤ 2 ^ 40 →
      ∃ hcmBalance reserved : Double, Number.ofRat bal.hcmBalance = .finite hcmBalance ∧
        reserved.value = sumOpenReservations key world.db ∧
        AgreeInDoubles key world.db hcmBalance reserved) World.empty events := by
  apply (consistent_throughout config events).mono
  intro world consistent key bal found decimal few
  obtain ⟨hcmBalance, cached, _⟩ := Number.ofRat_finite (by norm_num) (by norm_num) decimal.size
  obtain ⟨n, isWhole⟩ : ∃ n : ℕ, sumOpenReservations key world.db = n :=
    sum_whole fun row member => consistent.whole row (List.mem_of_mem_filter member)
  -- 2 ^ 40 days are far from the 53 digits of a double
  have digits : |(n : ℤ)| < 2 ^ 53 := by
    rw [isWhole] at few
    rw [abs_of_nonneg (Int.natCast_nonneg n)]
    have small : (n : ℤ) ≤ 2 ^ 40 := by exact_mod_cast few
    exact small.trans_lt (by norm_num)
  have summed : (Double.whole n digits).value = sumOpenReservations key world.db := isWhole.symm
  exact ⟨hcmBalance, _, cached, summed, agreeInDoubles consistent.whole found decimal few cached summed⟩

end TimeOff
