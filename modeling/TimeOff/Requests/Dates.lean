import Mathlib.Tactic.Linarith
import Mathlib.Data.Rat.Cast.Order
import Mathlib.Tactic.Ring
import TimeOff.Lib.EcmaDate
import TimeOff.Common.Errors

/-! # Counting the days of a request

`parseIsoDate` accepts a calendar date spelled YYYY-MM-DD, read back from the
time value it denotes; `countDaysInclusive` counts the days from start to end.
-/

set_option autoImplicit false

namespace TimeOff

open TimeOff.Lib

/-- The three numbers of a string that matches `DATE_RE`. -/
def dateFields? (s : String) : Option (Int × Int × Int) :=
  match s.toList with
  | [y1, y2, y3, y4, '-', m1, m2, '-', d1, d2] => do
    let year ← digits? [y1, y2, y3, y4]
    let month ← digits? [m1, m2]
    let date ← digits? [d1, d2]
    some (year, month, date)
  | _ => none

def parseIsoDate (s : String) : Except Failure Int :=
  match dateFields? s with
  | none => .error (.validation ("Invalid ISO date: " ++ s))
  | some (y, m, d) =>
    let dt := dateUtc y (m - 1) d
    if getUtcFullYear dt ≠ y ∨ getUtcMonth dt ≠ m - 1 ∨ getUtcDate dt ≠ d then
      .error (.validation ("Invalid ISO date: " ++ s))
    else .ok dt

def countDaysInclusive (startDate endDate : String) : Except Failure ℚ := do
  let s ← parseIsoDate startDate
  let e ← parseIsoDate endDate
  if e < s then throw (.validation "end date is before start date")
  return ((e - s : Int) : ℚ) / 86400000 + 1

theorem parseIsoDate_dvd {s : String} {time : Int} (parsed : parseIsoDate s = .ok time) :
    msPerDay ∣ time := by
  unfold parseIsoDate at parsed
  split at parsed
  · cases parsed
  · dsimp only at parsed
    split at parsed
    · cases parsed
    · cases parsed
      exact dateUtc_dvd _ _ _

/-- A count of days is a positive whole number. -/
theorem countDaysInclusive_whole {startDate endDate : String} {days : ℚ}
    (counted : countDaysInclusive startDate endDate = .ok days) :
    ∃ n : ℕ, 0 < n ∧ days = n := by
  simp only [countDaysInclusive] at counted
  cases startParsed : parseIsoDate startDate with
  | error failure => simp [startParsed, Bind.bind, Except.bind] at counted
  | ok s =>
    cases endParsed : parseIsoDate endDate with
    | error failure => simp [startParsed, endParsed, Bind.bind, Except.bind] at counted
    | ok e =>
      simp only [startParsed, endParsed, Bind.bind, Except.bind] at counted
      split at counted
      · cases counted
      · rename_i ordered
        obtain ⟨startDay, rfl⟩ := parseIsoDate_dvd startParsed
        obtain ⟨endDay, rfl⟩ := parseIsoDate_dvd endParsed
        -- both time values are midnights, so the quotient is the difference of the day numbers
        simp only [msPerDay, not_lt] at ordered counted
        have forward : startDay ≤ endDay := by omega
        refine ⟨(endDay - startDay + 1).toNat, by omega, ?_⟩
        cases counted
        rw [show ((endDay - startDay + 1).toNat : ℚ) = ((endDay - startDay + 1 : ℤ) : ℚ) by
          exact_mod_cast congrArg (Int.cast (R := ℚ)) (Int.toNat_of_nonneg (by omega))]
        push_cast
        ring

example : countDaysInclusive "2026-05-04" "2026-05-06" = .ok 3 := by decide +kernel

end TimeOff
