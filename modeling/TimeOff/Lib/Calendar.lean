import Mathlib.Data.List.Iterate
import Mathlib.Data.List.Nodup
import Mathlib.Logic.Function.Iterate
import Mathlib.Order.Basic
import TimeOff.Lib.Digits

/-! # The proleptic Gregorian calendar

Dates as people count them: years, months of the usual lengths with a 29th of
February in leap years, and the next day.  The day numbers of ECMAScript number
them one after the other, and the getters read the date of a day back.
-/

set_option autoImplicit false

namespace TimeOff.Lib

/-- Months from 1. -/
def monthLength (leap : Bool) (month : Int) : Int :=
  if month = 2 then if leap then 29 else 28
  else if month = 4 ∨ month = 6 ∨ month = 9 ∨ month = 11 then 30
  else 31

@[ext] structure CalendarDate where
  year : Int
  month : Int
  day : Int
  month_in : 1 ≤ month ∧ month ≤ 12
  day_in : 1 ≤ day ∧ day ≤ monthLength (leapYear year) month
deriving DecidableEq

theorem monthLength_pos (leap : Bool) (month : Int) : 28 ≤ monthLength leap month := by
  simp only [monthLength]
  split
  · split <;> omega
  · split <;> omega

namespace CalendarDate

def next (date : CalendarDate) : CalendarDate :=
  if later : date.day < monthLength (leapYear date.year) date.month then
    { date with day := date.day + 1, day_in := by have := date.day_in; omega }
  else if another : date.month < 12 then
    { year := date.year
      month := date.month + 1
      day := 1
      month_in := by have := date.month_in; omega
      day_in := by have := monthLength_pos (leapYear date.year) (date.month + 1); omega }
  else
    { year := date.year + 1
      month := 1
      day := 1
      month_in := by omega
      day_in := by have := monthLength_pos (leapYear (date.year + 1)) 1; omega }

/-- Years before months before days. -/
instance : LT CalendarDate where
  lt left right :=
    left.year < right.year ∨ left.year = right.year ∧
      (left.month < right.month ∨ left.month = right.month ∧ left.day < right.day)

instance (left right : CalendarDate) : Decidable (left < right) :=
  inferInstanceAs (Decidable (_ ∨ _ ∧ (_ ∨ _ ∧ _)))

instance : LE CalendarDate where
  le left right := left < right ∨ left = right

/-- The day number of ECMAScript, whose months begin with 0. -/
def dayNumber (date : CalendarDate) : Int := makeDay date.year (date.month - 1) date.day

end CalendarDate

/-! ## Years -/

def yearLength (leap : Bool) : Int := if leap then 366 else 365

theorem dayFromYear_succ (year : Int) :
    dayFromYear (year + 1) = dayFromYear year + yearLength (leapYear year) := by
  simp only [dayFromYear, yearLength, leapYear, decide_eq_true_eq]
  split <;> omega

theorem dayFromYear_mono {first second : Int} (le : first ≤ second) :
    dayFromYear first ≤ dayFromYear second := by
  simp only [dayFromYear]
  omega

/-- The estimate from the mean length of a year is off by one at most. -/
theorem yearFromDay_spec (day : Int) :
    dayFromYear (yearFromDay day) ≤ day ∧ day < dayFromYear (yearFromDay day + 1) := by
  have low : dayFromYear (1970 + day * 400 / 146097 - 1) ≤ day := by
    simp only [dayFromYear]
    omega
  have high : day < dayFromYear (1970 + day * 400 / 146097 + 1 + 1) := by
    simp only [dayFromYear]
    omega
  simp only [yearFromDay]
  split
  next later => exact ⟨later, high⟩
  next notLater =>
    split
    next earlier =>
      rw [Int.sub_add_cancel]
      exact ⟨low, earlier⟩
    next notEarlier => exact ⟨not_lt.mp notEarlier, not_le.mp notLater⟩

/-! ## Months -/

/-- A month starts where the one before it ends. -/
theorem monthStart_next (leap : Bool) (month : Int) (first : 1 ≤ month) (last : month ≤ 11) :
    monthStart leap month = monthStart leap (month - 1) + monthLength leap month := by
  interval_cases month <;> cases leap <;> rfl

theorem monthStart_december (leap : Bool) :
    monthStart leap 11 + monthLength leap 12 = yearLength leap := by
  cases leap <;> rfl

theorem monthStart_nonneg (leap : Bool) (month : Int) (first : 0 ≤ month) (last : month ≤ 11) :
    0 ≤ monthStart leap month := by
  interval_cases month <;> cases leap <;> decide

theorem monthStart_mono (leap : Bool) (first second : Int) (begins : 0 ≤ first) (le : first ≤ second)
    (ends : second ≤ 11) : monthStart leap first ≤ monthStart leap second := by
  obtain ⟨steps, rfl⟩ := Int.le.dest le
  induction steps with
  | zero => simp
  | succ steps inductionHypothesis =>
    have shorter := inductionHypothesis (by omega) (by omega)
    have step := monthStart_next leap (first + (steps + 1 : ℕ)) (by omega) (by omega)
    have length := monthLength_pos leap (first + (steps + 1 : ℕ))
    rw [show first + ((steps + 1 : ℕ) : Int) - 1 = first + steps by push_cast; omega] at step
    omega

namespace CalendarDate

theorem dayNumber_eq (date : CalendarDate) : date.dayNumber =
    dayFromYear date.year + monthStart (leapYear date.year) (date.month - 1) + date.day - 1 := by
  have month_in := date.month_in
  simp only [dayNumber, makeDay]
  rw [show (date.month - 1) / 12 = 0 by omega, show (date.month - 1) % 12 = date.month - 1 by omega,
    add_zero]

/-- A date is in its month. -/
theorem within (date : CalendarDate) :
    monthStart (leapYear date.year) (date.month - 1) + date.day ≤
      monthStart (leapYear date.year) (date.month - 1) + monthLength (leapYear date.year) date.month ∧
    monthStart (leapYear date.year) (date.month - 1) + monthLength (leapYear date.year) date.month ≤
      yearLength (leapYear date.year) ∧ 0 ≤ monthStart (leapYear date.year) (date.month - 1) := by
  have month_in := date.month_in
  have day_in := date.day_in
  have start := monthStart_nonneg (leapYear date.year) (date.month - 1) (by omega) (by omega)
  refine ⟨by omega, ?_, start⟩
  rw [← monthStart_december]
  by_cases last : date.month = 12
  · rw [last]
    exact le_refl _
  · have ends := monthStart_next (leapYear date.year) date.month month_in.1 (by omega)
    have later := monthStart_mono (leapYear date.year) date.month 11 (by omega) (by omega) (le_refl _)
    have december := monthLength_pos (leapYear date.year) 12
    omega

theorem dayNumber_in_year (date : CalendarDate) :
    dayFromYear date.year ≤ date.dayNumber ∧ date.dayNumber < dayFromYear (date.year + 1) := by
  have day_in := date.day_in
  obtain ⟨inMonth, inYear, start⟩ := date.within
  rw [dayNumber_eq, dayFromYear_succ]
  omega

/-- The next day has the next number. -/
theorem dayNumber_next (date : CalendarDate) : date.next.dayNumber = date.dayNumber + 1 := by
  have month_in := date.month_in
  have day_in := date.day_in
  simp only [next]
  split
  next later =>
    rw [dayNumber_eq, dayNumber_eq]
    dsimp only
    omega
  next ended =>
    split
    next another =>
      have start := monthStart_next (leapYear date.year) date.month month_in.1 (by omega)
      rw [dayNumber_eq, dayNumber_eq]
      dsimp only
      rw [show date.month + 1 - 1 = date.month by omega]
      omega
    next newYear =>
      have december : date.month = 12 := by omega
      have length := monthStart_december (leapYear date.year)
      rw [dayNumber_eq, dayNumber_eq]
      dsimp only
      rw [dayFromYear_succ, december]
      rw [december] at ended day_in
      have january : ∀ leap, monthStart leap (1 - 1) = 0 := fun leap => rfl
      rw [january]
      norm_num
      omega

/-- Earlier dates have smaller numbers. -/
theorem dayNumber_strictMono {left right : CalendarDate} (earlier : left < right) :
    left.dayNumber < right.dayNumber := by
  have leftMonth := left.month_in
  have rightMonth := right.month_in
  have rightDay := right.day_in
  cases earlier with
  | inl year =>
    have ends := left.dayNumber_in_year.2
    have begins := right.dayNumber_in_year.1
    have := dayFromYear_mono (show left.year + 1 ≤ right.year by omega)
    omega
  | inr sameYear =>
    obtain ⟨year, later⟩ := sameYear
    rw [dayNumber_eq, dayNumber_eq, year]
    cases later with
    | inl month =>
      have inMonth := left.within.1
      have ends := monthStart_next (leapYear left.year) left.month (by omega) (by omega)
      have starts := monthStart_mono (leapYear left.year) left.month (right.month - 1) (by omega)
        (by omega) (by omega)
      rw [year] at inMonth ends starts
      omega
    | inr sameMonth =>
      rw [sameMonth.1]
      omega

theorem lt_or_eq_or_lt (left right : CalendarDate) : left < right ∨ left = right ∨ right < left := by
  by_cases same : left = right
  · exact .inr (.inl same)
  · have fields : ¬ (left.year = right.year ∧ left.month = right.month ∧ left.day = right.day) := by
      rintro ⟨year, month, day⟩
      exact same (CalendarDate.ext year month day)
    have either : left < right ∨ right < left := by
      show (left.year < right.year ∨ left.year = right.year ∧
        (left.month < right.month ∨ left.month = right.month ∧ left.day < right.day)) ∨
        (right.year < left.year ∨ right.year = left.year ∧
        (right.month < left.month ∨ right.month = left.month ∧ right.day < left.day))
      omega
    cases either with
    | inl earlier => exact .inl earlier
    | inr later => exact .inr (.inr later)

theorem lt_iff_dayNumber {left right : CalendarDate} :
    left < right ↔ left.dayNumber < right.dayNumber := by
  constructor
  · exact dayNumber_strictMono
  · intro smaller
    obtain earlier | rfl | later := lt_or_eq_or_lt left right
    · exact earlier
    · omega
    · have := dayNumber_strictMono later
      omega

theorem dayNumber_injective {left right : CalendarDate} (same : left.dayNumber = right.dayNumber) :
    left = right := by
  obtain earlier | equal | later := lt_or_eq_or_lt left right
  · have := dayNumber_strictMono earlier
    omega
  · exact equal
  · have := dayNumber_strictMono later
    omega

theorem le_iff_dayNumber {left right : CalendarDate} :
    left ≤ right ↔ left.dayNumber ≤ right.dayNumber := by
  constructor
  · intro le
    cases le with
    | inl earlier => exact le_of_lt (dayNumber_strictMono earlier)
    | inr same => rw [same]
  · intro le
    cases lt_or_eq_of_le le with
    | inl smaller => exact .inl (lt_iff_dayNumber.mpr smaller)
    | inr same => exact .inr (dayNumber_injective same)

theorem not_before {left right : CalendarDate} : ¬ right < left ↔ left ≤ right := by
  rw [lt_iff_dayNumber, le_iff_dayNumber]
  exact Int.not_lt

theorem year_le {left right : CalendarDate} (le : left ≤ right) : left.year ≤ right.year := by
  cases le with
  | inl earlier =>
    cases earlier with
    | inl year => exact le_of_lt year
    | inr sameYear => exact le_of_eq sameYear.1
  | inr same => rw [same]

theorem dayNumber_iterate (date : CalendarDate) (steps : ℕ) :
    (next^[steps] date).dayNumber = date.dayNumber + steps := by
  induction steps with
  | zero => simp
  | succ steps inductionHypothesis =>
    rw [Function.iterate_succ_apply', dayNumber_next, inductionHypothesis]
    push_cast
    omega

/-- The days that follow one another from a date are the dates not before it and not after the last. -/
theorem mem_iterate_next (start date : CalendarDate) (steps : ℕ) :
    date ∈ List.iterate next start (steps + 1) ↔
      start.dayNumber ≤ date.dayNumber ∧ date.dayNumber ≤ start.dayNumber + steps := by
  rw [List.mem_iterate]
  constructor
  · rintro ⟨step, within, rfl⟩
    rw [dayNumber_iterate]
    omega
  · rintro ⟨later, within⟩
    refine ⟨(date.dayNumber - start.dayNumber).toNat, by omega, ?_⟩
    apply dayNumber_injective
    rw [dayNumber_iterate]
    omega

theorem nodup_iterate_next (start : CalendarDate) (steps : ℕ) :
    (List.iterate next start steps).Nodup := by
  rw [← List.range_map_iterate]
  apply List.Nodup.map _ List.nodup_range
  intro first second same
  have numbers := congrArg dayNumber same
  simp only [dayNumber_iterate] at numbers
  omega

end CalendarDate

/-! ## The date of a day -/

/-- `within`, counted from the start of the year, is in `month`, counted from 0. -/
def InMonth (leap : Bool) (within month : Int) : Prop :=
  0 ≤ month ∧ month ≤ 11 ∧ monthStart leap month ≤ within ∧
    within < monthStart leap month + monthLength leap (month + 1)

/-- A day that a month has begun by is in it, or the next month has begun too. -/
theorem inMonth_or_later {leap : Bool} {within later : Int} (month : Int) (first : 0 ≤ month)
    (last : month ≤ 10) (begun : monthStart leap month ≤ within)
    (searched : monthStart leap (month + 1) ≤ within → InMonth leap within later) :
    InMonth leap within (if within < monthStart leap (month + 1) then month else later) := by
  have ends := monthStart_next leap (month + 1) (by omega) (by omega)
  rw [Int.add_sub_cancel] at ends
  split
  next unfinished => exact ⟨first, by omega, begun, by omega⟩
  next finished => exact searched (not_lt.mp finished)

/-- The month that is read back has the day. -/
theorem monthFromDay_spec (day : Int) : InMonth (leapYear (yearFromDay day))
    (day - dayFromYear (yearFromDay day)) (monthFromDay day) := by
  obtain ⟨begun, unfinished⟩ := yearFromDay_spec day
  rw [dayFromYear_succ] at unfinished
  simp only [monthFromDay]
  generalize leapYear (yearFromDay day) = leap at unfinished ⊢
  have december := monthStart_december leap
  have begun : monthStart leap 0 ≤ day - dayFromYear (yearFromDay day) := by
    show 0 ≤ _
    omega
  refine inMonth_or_later 0 (by omega) (by omega) begun fun begun => ?_
  refine inMonth_or_later 1 (by omega) (by omega) begun fun begun => ?_
  refine inMonth_or_later 2 (by omega) (by omega) begun fun begun => ?_
  refine inMonth_or_later 3 (by omega) (by omega) begun fun begun => ?_
  refine inMonth_or_later 4 (by omega) (by omega) begun fun begun => ?_
  refine inMonth_or_later 5 (by omega) (by omega) begun fun begun => ?_
  refine inMonth_or_later 6 (by omega) (by omega) begun fun begun => ?_
  refine inMonth_or_later 7 (by omega) (by omega) begun fun begun => ?_
  refine inMonth_or_later 8 (by omega) (by omega) begun fun begun => ?_
  refine inMonth_or_later 9 (by omega) (by omega) begun fun begun => ?_
  refine inMonth_or_later 10 (by omega) (by omega) begun fun begun => ?_
  -- the year ends with December
  refine ⟨by omega, le_refl _, begun, ?_⟩
  show _ < monthStart leap 11 + monthLength leap 12
  omega

namespace CalendarDate

/-- The date that the getters read off a day. -/
def ofDay (day : Int) : CalendarDate where
  year := yearFromDay day
  month := monthFromDay day + 1
  day := dateFromDay day
  month_in := by
    obtain ⟨first, last, -, -⟩ := monthFromDay_spec day
    omega
  day_in := by
    obtain ⟨-, -, begun, unfinished⟩ := monthFromDay_spec day
    simp only [dateFromDay]
    omega

theorem dayNumber_ofDay (day : Int) : (ofDay day).dayNumber = day := by
  rw [dayNumber_eq]
  simp only [ofDay, dateFromDay, Int.add_sub_cancel]
  omega

theorem ofDay_dayNumber (date : CalendarDate) : ofDay date.dayNumber = date :=
  dayNumber_injective (dayNumber_ofDay date.dayNumber)

end CalendarDate

/-! ## Spelling -/

namespace CalendarDate

/-- The form YYYY-MM-DD. -/
def spelling (date : CalendarDate) : String :=
  String.ofList (padded 4 date.year.toNat ++ ['-'] ++ padded 2 date.month.toNat ++ ['-'] ++
    padded 2 date.day.toNat)

end CalendarDate

end TimeOff.Lib
