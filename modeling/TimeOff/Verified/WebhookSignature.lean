import TimeOff.Lib.NumberReading
import TimeOff.Hcm.Signature

/-! # A signature binds one timestamp and one body

The header is any spelling of a number, but what is signed is the one spelling of the
language: a point in it has a digit behind it, and no JSON object or array begins with
one.  So the canonical string is taken apart in one way only.
-/

set_option autoImplicit false

namespace TimeOff

open TimeOff.Lib

/-- No digit begins the body. -/
def NoLeadingDigit (body : String) : Prop := ∀ char ∈ body.toList.head?, char.isDigit = false

instance (body : String) : Decidable (NoLeadingDigit body) :=
  decidable_of_iff (body.toList.head?.all (fun char => !char.isDigit) = true)
    (by simp [NoLeadingDigit, Option.all_eq_true])

theorem canonical_unique {first second : Double} {body other : String} (noDigit : NoLeadingDigit body)
    (otherNoDigit : NoLeadingDigit other)
    (same : canonical (.finite first) body = canonical (.finite second) other) :
    first = second ∧ body = other := by
  have chars := congrArg String.toList same
  simp only [canonical, Number.toString, String.toList_append, String.toList_ofList,
    List.append_assoc] at chars
  obtain ⟨spellings, bodies⟩ := joined_unique (spelling_pointsFollowed first)
    (spelling_pointsFollowed second) noDigit otherNoDigit chars
  exact ⟨spelling_injective spellings, String.toList_injective bodies⟩

theorem timingSafeEqual_toUTF8 (left right : String) :
    (timingSafeEqual left.toUTF8 right.toUTF8).getD false = true ↔ left = right := by
  simp only [timingSafeEqual, String.toUTF8_eq_toByteArray]
  split
  next => simp [← ByteArray.ext_iff, String.toByteArray_inj]
  next lengths =>
    simp only [Option.getD_none, Bool.false_eq_true, false_iff]
    rintro rfl
    exact lengths rfl

/-! ## The clock -/

/-- The difference of the two instants, as a number, is five minutes at most. -/
def WithinSkew (now timestampMs : Double) : Prop :=
  ∃ gap : Double, now.minus timestampMs = .finite gap ∧ |gap.value| ≤ clockSkewMs

theorem exceeds_eq_false_iff (now timestampMs : Double) :
    (now.minus timestampMs).abs.exceeds clockSkewMs = false ↔ WithinSkew now timestampMs := by
  simp only [WithinSkew, Double.minus, Number.ofRat]
  split
  next bounded => simp [Number.abs, Number.exceeds, Double.abs]
  next overflow => simp [Number.abs, Number.exceeds]

/-- The difference of two numbers is rounded: up to `2 ^ -35` milliseconds more than five minutes
are five minutes. -/
theorem withinSkew_iff (now timestampMs : Double) :
    WithinSkew now timestampMs ↔ |now.value - timestampMs.value| ≤ 300000 + 1 / 2 ^ 35 := by
  have boundary := @abs_roundDouble_le_iff (now.value - timestampMs.value) (300000 * 2 ^ 34) (-34)
    (by norm_num) (by norm_num) (by norm_num) (by norm_num)
  rw [show (((300000 * 2 ^ 34 : ℤ) : ℚ)) * 2 ^ (-34 : ℤ) = 300000 by norm_num,
    show (((300000 * 2 ^ 34 : ℤ) : ℚ) + 1 / 2) * 2 ^ (-34 : ℤ) = 300000 + 1 / 2 ^ 35 by norm_num]
    at boundary
  rw [← boundary]
  simp only [WithinSkew, Double.minus, Number.ofRat, clockSkewMs]
  split
  next bounded => simp
  next overflow =>
    constructor
    · rintro ⟨gap, infinite, -⟩
      cases infinite
    · intro small
      have large : (300000 : ℚ) < 2 ^ 1024 := by
        calc (300000 : ℚ) < 2 ^ 19 := by norm_num
          _ ≤ 2 ^ 1024 := pow_le_pow_right₀ (by norm_num) (by norm_num)
      exact absurd (lt_of_le_of_lt small large) overflow

/-- Between whole milliseconds the bound is exact. -/
theorem withinSkew_whole {now timestampMs : Double} {n t : ℤ} (nowWhole : now.value = n)
    (timestampWhole : timestampMs.value = t) : WithinSkew now timestampMs ↔ |n - t| ≤ 300000 := by
  rw [withinSkew_iff, nowWhole, timestampWhole, ← Int.cast_sub, ← Int.cast_abs]
  constructor
  · intro small
    have below : ((|n - t| : ℤ) : ℚ) < (300001 : ℤ) := lt_of_le_of_lt small (by norm_num)
    have : |n - t| < 300001 := by exact_mod_cast below
    omega
  · intro small
    have cast : ((|n - t| : ℤ) : ℚ) ≤ (300000 : ℤ) := by exact_mod_cast small
    exact le_trans cast (by norm_num)

section Signing

variable {hmacSha256 : String → String → String} {secret : String}
  (injective : Function.Injective (hmacSha256 secret))

include injective

theorem sign_injective {first second : Double} {body other : String} (noDigit : NoLeadingDigit body)
    (otherNoDigit : NoLeadingDigit other)
    (same : sign hmacSha256 secret (.finite first) body = sign hmacSha256 secret (.finite second) other) :
    first = second ∧ body = other := by
  have digests := congrArg String.toList same
  simp only [sign, String.toList_append, List.append_cancel_left_eq] at digests
  exact canonical_unique noDigit otherNoDigit (injective (String.toList_injective digests))

/-- A signature of a timestamp and a body, presented with a header and a body. -/
theorem verify_signed (timestampMs now : Double) {header : String} (nonEmpty : header ≠ "")
    {body received : String} (noDigit : NoLeadingDigit body) (receivedNoDigit : NoLeadingDigit received) :
    verify hmacSha256 secret (some header) received
        (some (sign hmacSha256 secret (.finite timestampMs) body)) now = true ↔
      stringToNumber header = .finite timestampMs ∧ WithinSkew now timestampMs ∧ received = body := by
  have signed : sign hmacSha256 secret (.finite timestampMs) body ≠ "" := by
    intro empty
    have chars := congrArg String.toList empty
    simp [sign] at chars
  simp only [verify, Option.getD_some, if_neg (not_or.mpr ⟨signed, nonEmpty⟩)]
  cases stringToNumber header with
  | nan => simp
  | infinity negative => simp
  | finite read =>
    dsimp only
    cases skewed : (now.minus read).abs.exceeds clockSkewMs with
    | true =>
      simp only [↓reduceIte, Bool.false_eq_true, Number.finite.injEq, false_iff]
      rintro ⟨rfl, within, -⟩
      rw [(exceeds_eq_false_iff _ _).mpr within] at skewed
      cases skewed
    | false =>
      simp only [Bool.false_eq_true, ↓reduceIte, Number.finite.injEq]
      rw [timingSafeEqual_toUTF8]
      constructor
      · intro same
        obtain ⟨rfl, rfl⟩ := sign_injective injective noDigit receivedNoDigit same
        exact ⟨rfl, (exceeds_eq_false_iff _ _).mp skewed, rfl⟩
      · rintro ⟨rfl, -, rfl⟩
        rfl

/-- The signature of a timestamp and a body is accepted with a header and a body exactly when the
header is a number equal to the timestamp, near to the clock, and the body is that body; and the
guard lets exactly these requests pass. -/
theorem signature_binds_instant_and_body (timestampMs now : Double) {header : String}
    (nonEmpty : header ≠ "") {body received : String} (noDigit : NoLeadingDigit body)
    (receivedNoDigit : NoLeadingDigit received) :
    let signature := sign hmacSha256 secret (.finite timestampMs) body
    let bound := stringToNumber header = .finite timestampMs ∧ WithinSkew now timestampMs ∧ received = body
    (verify hmacSha256 secret (some header) received (some signature) now = true ↔ bound) ∧
    ∀ restringified, (HcmSignatureGuard.canActivate hmacSha256 secret now
        ⟨some header, some signature, some received, restringified⟩ = .ok true ↔ bound) := by
  intro signature bound
  have accepted := verify_signed injective timestampMs now nonEmpty noDigit receivedNoDigit
  refine ⟨accepted, ?_⟩
  intro restringified
  apply Iff.trans _ accepted
  rw [HcmSignatureGuard.canActivate]
  split
  next passes => exact iff_of_true rfl passes
  next fails => exact iff_of_false (by simp) fails

end Signing

namespace Office

def instant : Double where
  value := 1745000000000
  onGrid := ⟨1745000000000, 0, by norm_num, by norm_num, by norm_num⟩
  bounded := by
    rw [abs_of_pos (by norm_num)]
    exact lt_of_lt_of_le (show (1745000000000 : ℚ) < 2 ^ 41 by norm_num)
      (pow_le_pow_right₀ (by norm_num) (by norm_num))

def webhookBody : String := "\x7b\"batchId\":\"B-1\",\"balances\":[]\x7d"

/-- The digest of one signed text under `super-secret`; other texts are kept apart from it. -/
def digest (_ : String) (text : String) : String :=
  if text = "1745000000000." ++ webhookBody then
    "c32bd04a936ae468d63a5dd56d02bd4f8e90f6ab34e06514c79f270e7073222c"
  else "x" ++ text

theorem digest_injective (secret : String) : Function.Injective (digest secret) := by
  intro first second same
  simp only [digest] at same
  split at same
  next firstIs =>
    split at same
    next secondIs => rw [firstIs, secondIs]
    next =>
      have chars := congrArg String.toList same
      simp at chars
  next =>
    split at same
    next =>
      have chars := congrArg String.toList same
      simp at chars
    next =>
      have chars := congrArg String.toList same
      simp only [String.toList_append, List.append_cancel_left_eq] at chars
      exact String.toList_injective chars

end Office

open Office in
/-- The timestamp may be spelled with an exponent, but the body is the one that was signed. -/
theorem signature_binds_office :
    let signature := sign digest "super-secret" (.finite instant) webhookBody
    signature = "sha256=c32bd04a936ae468d63a5dd56d02bd4f8e90f6ab34e06514c79f270e7073222c" ∧
    verify digest "super-secret" (some " 1.745e12") webhookBody (some signature) instant = true ∧
    verify digest "super-secret" (some " 1.745e12") "[]" (some signature) instant = false := by
  have noDigit : NoLeadingDigit webhookBody := by decide +kernel
  have otherNoDigit : NoLeadingDigit "[]" := by decide +kernel
  have header : stringToNumber " 1.745e12" = .finite instant := by decide +kernel
  have near : WithinSkew instant instant := by
    have whole : instant.value = (1745000000000 : ℤ) := by norm_num [instant]
    exact (withinSkew_whole whole whole).mpr (by norm_num)
  have nonEmpty : " 1.745e12" ≠ "" := by decide
  have same := signature_binds_instant_and_body (digest_injective "super-secret") instant instant
    nonEmpty noDigit noDigit
  have other := signature_binds_instant_and_body (digest_injective "super-secret") instant instant
    nonEmpty noDigit otherNoDigit
  refine ⟨by decide +kernel, same.1.mpr ⟨header, near, rfl⟩, ?_⟩
  apply Bool.eq_false_of_not_eq_true
  intro accepted
  exact absurd (other.1.mp accepted).2.2 (by decide +kernel)

end TimeOff
