import Mathlib.Data.List.Induction
import Mathlib.Tactic.IntervalCases
import TimeOff.Lib.EcmaDate

/-! # Spelling natural numbers in digits

`padded width n` has the last digits of `n`, `digits?` reads them back: strings of
digits of one length and numbers below the power of ten are the same thing.
-/

set_option autoImplicit false

namespace TimeOff.Lib

/-- The last digits of a number, as many as asked for. -/
def padded : ℕ → ℕ → List Char
  | 0, _ => []
  | width + 1, n => padded width (n / 10) ++ [Nat.digitChar (n % 10)]

theorem digitChar_isDigit {n : ℕ} (small : n < 10) :
    (Nat.digitChar n).isDigit = true ∧ (Nat.digitChar n).toNat = '0'.toNat + n := by
  interval_cases n <;> decide

theorem isDigit_eq_digitChar {char : Char} (digit : char.isDigit = true) :
    ∃ n, n < 10 ∧ char = Nat.digitChar n := by
  have bounds : 48 ≤ char.toNat ∧ char.toNat ≤ 57 := by
    simpa [Char.isDigit, UInt32.le_iff_toNat_le] using digit
  refine ⟨char.toNat - 48, by omega, ?_⟩
  apply (Char.ofNat_toNat char).symm.trans
  generalize char.toNat = code at bounds
  obtain ⟨low, high⟩ := bounds
  interval_cases code <;> rfl

theorem digits?_concat (chars : List Char) (char : Char) : digits? (chars ++ [char]) =
    if char.isDigit then (digits? chars).map fun value : Int => value * 10 + (char.toNat - '0'.toNat : ℕ)
    else none := by
  simp only [digits?, List.all_append, List.foldl_append]
  cases digits : chars.all Char.isDigit <;> cases digit : char.isDigit <;> simp [digit]

theorem padded_length (width n : ℕ) : (padded width n).length = width := by
  induction width generalizing n with
  | zero => rfl
  | succ width inductionHypothesis =>
    rw [padded, List.length_append, inductionHypothesis, List.length_singleton]

/-- Digits spell the number whose last digits they are. -/
theorem digits?_eq_some {chars : List Char} {value : Int} : digits? chars = some value ↔
    ∃ n : ℕ, value = n ∧ n < 10 ^ chars.length ∧ chars = padded chars.length n := by
  induction chars using List.reverseRecOn generalizing value with
  | nil =>
    simp only [digits?, padded, List.all_nil, ↓reduceIte, List.foldl_nil, Option.some.injEq,
      List.length_nil, pow_zero, Nat.lt_one_iff, and_true]
    constructor
    · rintro rfl
      exact ⟨0, rfl, rfl⟩
    · rintro ⟨n, rfl, rfl⟩
      rfl
  | append_singleton chars char inductionHypothesis =>
    simp only [digits?_concat, List.length_append, List.length_singleton, pow_succ, padded]
    constructor
    · intro spelled
      split at spelled
      next digit =>
        obtain ⟨before, spelledBefore, rfl⟩ := Option.map_eq_some_iff.mp spelled
        obtain ⟨n, rfl, small, padding⟩ := inductionHypothesis.mp spelledBefore
        obtain ⟨last, lastSmall, rfl⟩ := isDigit_eq_digitChar digit
        have code := (digitChar_isDigit lastSmall).2
        refine ⟨n * 10 + last, ?_, by omega, ?_⟩
        · rw [code]
          push_cast
          omega
        · rw [show (n * 10 + last) / 10 = n by omega, show (n * 10 + last) % 10 = last by omega,
            ← padding]
      next other => cases spelled
    · rintro ⟨n, rfl, small, padding⟩
      obtain ⟨before, last⟩ := List.append_inj' padding rfl
      cases last
      obtain ⟨digit, code⟩ := digitChar_isDigit (show n % 10 < 10 by omega)
      have spelledBefore := inductionHypothesis.mpr ⟨n / 10, rfl, by omega, before⟩
      rw [if_pos digit, spelledBefore, code]
      simp only [Option.map_some, Option.some.injEq]
      omega

theorem digits?_padded {width n : ℕ} (small : n < 10 ^ width) :
    digits? (padded width n) = some (n : Int) := by
  apply digits?_eq_some.mpr
  rw [padded_length]
  exact ⟨n, rfl, small, rfl⟩

end TimeOff.Lib
