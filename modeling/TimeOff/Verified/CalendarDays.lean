import TimeOff.Lib.Calendar
import TimeOff.Requests.Dates

/-! # Counting days is counting dates

A string is accepted when it names a date of the calendar from the year 100 on:
overflow moves any other triple of numbers to a date that reads back differently,
and the years 0 to 99 to the twentieth century.  The quotient of the time values
is the number of dates that follow one another from the start to the end.
-/

set_option autoImplicit false

namespace TimeOff

open TimeOff.Lib TimeOff.Lib.CalendarDate

/-- `s` is YYYY-MM-DD for a date whose year `Date.UTC` leaves alone. -/
def Names (s : String) (date : CalendarDate) : Prop :=
  100 ≤ date.year ∧ date.year ≤ 9999 ∧ s = date.spelling

/-! ## Parsing -/

theorem dateFields?_eq_some {s : String} {year month day : Int} :
    dateFields? s = some (year, month, day) ↔ ∃ y m d : ℕ,
      year = y ∧ month = m ∧ day = d ∧ y < 10000 ∧ m < 100 ∧ d < 100 ∧
      s = String.ofList (padded 4 y ++ ['-'] ++ padded 2 m ++ ['-'] ++ padded 2 d) := by
  constructor
  · intro read
    simp only [dateFields?] at read
    split at read
    next y1 y2 y3 y4 m1 m2 d1 d2 chars =>
      cases yearDigits : digits? [y1, y2, y3, y4] with
      | none => simp [yearDigits] at read
      | some year' =>
        cases monthDigits : digits? [m1, m2] with
        | none => simp [yearDigits, monthDigits] at read
        | some month' =>
          cases dayDigits : digits? [d1, d2] with
          | none => simp [yearDigits, monthDigits, dayDigits] at read
          | some day' =>
            simp [yearDigits, monthDigits, dayDigits] at read
            obtain ⟨rfl, rfl, rfl⟩ := read
            obtain ⟨y, rfl, ySmall, yChars⟩ := digits?_eq_some.mp yearDigits
            obtain ⟨m, rfl, mSmall, mChars⟩ := digits?_eq_some.mp monthDigits
            obtain ⟨d, rfl, dSmall, dChars⟩ := digits?_eq_some.mp dayDigits
            refine ⟨y, m, d, rfl, rfl, rfl, by simpa using ySmall, by simpa using mSmall,
              by simpa using dSmall, ?_⟩
            apply String.toList_injective
            rw [chars, String.toList_ofList]
            simp only [List.length_cons, List.length_nil, Nat.reduceAdd] at yChars mChars dChars
            rw [← yChars, ← mChars, ← dChars]
            rfl
    next => cases read
  · rintro ⟨y, m, d, rfl, rfl, rfl, ySmall, mSmall, dSmall, rfl⟩
    have yearDigits := digits?_padded (show y < 10 ^ 4 by omega)
    have monthDigits := digits?_padded (show m < 10 ^ 2 by omega)
    have dayDigits := digits?_padded (show d < 10 ^ 2 by omega)
    simp only [padded, List.nil_append, List.cons_append] at yearDigits monthDigits dayDigits
    simp only [dateFields?, String.toList_ofList, padded, List.nil_append, List.cons_append,
      yearDigits, monthDigits, dayDigits]
    rfl

theorem msPerDay_div (day : Int) : day * msPerDay / msPerDay = day :=
  Int.mul_ediv_cancel day (by decide)

/-- A year below 100 is read as one of the twentieth century. -/
theorem dateUtc_read_back {year month day : Int} (monthNonneg : 0 ≤ month) (dayNonneg : 0 ≤ day)
    (yearNonneg : 0 ≤ year) (readBack : getUtcFullYear (dateUtc year (month - 1) day) = year) :
    100 ≤ year := by
  apply not_lt.mp
  intro small
  have remapped : 0 ≤ year ∧ year ≤ 99 := by omega
  simp only [getUtcFullYear, dateUtc, if_pos remapped, msPerDay_div] at readBack
  -- the month 00 and the day 00 go back two years at most
  have late : dayFromYear 1898 ≤ makeDay (1900 + year) (month - 1) day := by
    have start := monthStart_nonneg (leapYear (1900 + year + (month - 1) / 12)) ((month - 1) % 12)
      (by omega) (by omega)
    have years := dayFromYear_mono (show 1899 ≤ 1900 + year + (month - 1) / 12 by omega)
    have numbers : dayFromYear 1898 = -26297 ∧ dayFromYear 1899 = -25932 := by decide
    simp only [makeDay]
    omega
  have ends := (yearFromDay_spec (makeDay (1900 + year) (month - 1) day)).2
  rw [readBack] at ends
  have early := dayFromYear_mono (show year + 1 ≤ 1898 by omega)
  omega

/-- What is accepted names a date, and its time value is the date's. -/
theorem parseIsoDate_eq_ok {s : String} {time : Int} : parseIsoDate s = .ok time ↔
    ∃ date, Names s date ∧ time = date.dayNumber * msPerDay := by
  constructor
  · intro parsed
    simp only [parseIsoDate] at parsed
    split at parsed
    next => cases parsed
    next year month day fields =>
      split at parsed
      next => cases parsed
      next readBack =>
        cases parsed
        simp only [not_or, not_not] at readBack
        obtain ⟨yearBack, monthBack, dayBack⟩ := readBack
        obtain ⟨y, m, d, rfl, rfl, rfl, ySmall, mSmall, dSmall, rfl⟩ := dateFields?_eq_some.mp fields
        have modern := dateUtc_read_back (by omega) (by omega) (by omega) yearBack
        rw [dateUtc, if_neg (by omega)] at yearBack monthBack dayBack ⊢
        simp only [getUtcFullYear, getUtcMonth, getUtcDate, msPerDay_div] at yearBack monthBack dayBack
        refine ⟨ofDay (makeDay y (m - 1) d), ⟨?_, ?_, ?_⟩, ?_⟩
        · show 100 ≤ yearFromDay _
          omega
        · show yearFromDay _ ≤ 9999
          omega
        · simp only [spelling, ofDay, yearBack, monthBack, dayBack, Int.sub_add_cancel,
            Int.toNat_natCast]
        · rw [dayNumber_ofDay]
  · rintro ⟨date, ⟨modern, fourDigits, rfl⟩, rfl⟩
    have month_in := date.month_in
    have day_in := date.day_in
    have fields : dateFields? date.spelling = some (date.year, date.month, date.day) := by
      have short : monthLength (leapYear date.year) date.month ≤ 31 := by
        simp only [monthLength]
        split <;> split <;> omega
      exact dateFields?_eq_some.mpr ⟨date.year.toNat, date.month.toNat, date.day.toNat,
        by omega, by omega, by omega, by omega, by omega, by omega, rfl⟩
    have readBack := ofDay_dayNumber date
    have time : dateUtc date.year (date.month - 1) date.day = date.dayNumber * msPerDay := by
      rw [dateUtc, if_neg (by omega), dayNumber]
    have yearBack : yearFromDay date.dayNumber = date.year := congrArg year readBack
    have monthBack : monthFromDay date.dayNumber + 1 = date.month := congrArg month readBack
    have dayBack : dateFromDay date.dayNumber = date.day := congrArg day readBack
    simp only [parseIsoDate, fields, time, getUtcFullYear, getUtcMonth, getUtcDate, msPerDay_div]
    apply if_neg
    omega

/-! ## Counting -/

theorem countDaysInclusive_eq {s e : String} {start ending : CalendarDate}
    (startNamed : Names s start) (endNamed : Names e ending) : countDaysInclusive s e =
      if ending < start then .error (.validation "end date is before start date")
      else .ok ((ending.dayNumber - start.dayNumber + 1 : Int) : ℚ) := by
  have startParsed := parseIsoDate_eq_ok.mpr ⟨start, startNamed, rfl⟩
  have endParsed := parseIsoDate_eq_ok.mpr ⟨ending, endNamed, rfl⟩
  have order : ending.dayNumber * msPerDay < start.dayNumber * msPerDay ↔ ending < start := by
    rw [lt_iff_dayNumber]
    simp only [msPerDay]
    omega
  simp only [countDaysInclusive, startParsed, endParsed, Bind.bind, Except.bind, order]
  split
  next => rfl
  next =>
    show Except.ok _ = Except.ok _
    rw [← Int.sub_mul]
    push_cast [msPerDay]
    ring_nf

/-- The days from a start to an end that is not before it are the dates from one to the other. -/
theorem countDaysInclusive_dates {s e : String} {start ending : CalendarDate}
    (startNamed : Names s start) (endNamed : Names e ending) (ordered : start ≤ ending) :
    ∃ dates : List CalendarDate, countDaysInclusive s e = .ok (dates.length : ℚ) ∧
      dates = List.iterate next start dates.length ∧ 0 < dates.length ∧ dates.Nodup ∧
      ∀ date, date ∈ dates ↔ start ≤ date ∧ date ≤ ending := by
  have numbers := le_iff_dayNumber.mp ordered
  obtain ⟨steps, last⟩ := Int.le.dest numbers
  refine ⟨List.iterate next start (steps + 1), ?_, ?_, ?_, nodup_iterate_next _ _, ?_⟩
  · rw [countDaysInclusive_eq startNamed endNamed, if_neg (not_before.mpr ordered), List.length_iterate,
      show ending.dayNumber - start.dayNumber + 1 = ((steps + 1 : ℕ) : Int) by push_cast; omega]
    norm_cast
  · rw [List.length_iterate]
  · rw [List.length_iterate]
    omega
  · intro date
    rw [mem_iterate_next, le_iff_dayNumber, le_iff_dayNumber]
    omega

/-- The day after a date that is not the last of all has a name again. -/
theorem names_next {s t : String} {date later : CalendarDate} (named : Names s date)
    (laterNamed : Names t later) (earlier : date < later) : Names date.next.spelling date.next := by
  have numbers := lt_iff_dayNumber.mp earlier
  have following := dayNumber_next date
  have afterDate : date ≤ date.next := le_iff_dayNumber.mpr (by omega)
  have upToLater : date.next ≤ later := le_iff_dayNumber.mpr (by omega)
  exact ⟨le_trans named.1 (year_le afterDate), le_trans (year_le upToLater) laterNamed.2.1, rfl⟩

theorem countDaysInclusive_add {s m e : String} {start middle ending : CalendarDate}
    (startNamed : Names s start) (middleNamed : Names m middle) (endNamed : Names e ending)
    (ordered : start ≤ middle) (later : middle < ending) :
    countDaysInclusive s e = (do
      let before ← countDaysInclusive s m
      let after ← countDaysInclusive middle.next.spelling e
      return before + after) := by
  have nextNamed := names_next middleNamed endNamed later
  have numbers := le_iff_dayNumber.mp ordered
  have laterNumbers := lt_iff_dayNumber.mp later
  have following := dayNumber_next middle
  have whole : ¬ ending < start := not_before.mpr (le_iff_dayNumber.mpr (by omega))
  have first : ¬ middle < start := not_before.mpr ordered
  have second : ¬ ending < middle.next := not_before.mpr (le_iff_dayNumber.mpr (by omega))
  rw [countDaysInclusive_eq startNamed endNamed, countDaysInclusive_eq startNamed middleNamed,
    countDaysInclusive_eq nextNamed endNamed, if_neg whole, if_neg first, if_neg second]
  show Except.ok _ = Except.ok _
  rw [following, ← Int.cast_add]
  congr 2
  omega

/-- Exactly the dates from the year 100 on are accepted, in one form.  The days from one to
another are the dates passed going day by day; going by way of a third loses none. -/
theorem day_counting_is_calendar_counting :
    (∀ s, (∃ time, parseIsoDate s = .ok time) ↔
      ∃ date : CalendarDate, 100 ≤ date.year ∧ date.year ≤ 9999 ∧ s = date.spelling) ∧
    (∀ s e start ending, Names s start → Names e ending →
      ((∃ failure, countDaysInclusive s e = .error failure) ↔ ending < start) ∧
      (¬ ending < start → ∃ dates : List CalendarDate,
        countDaysInclusive s e = .ok (dates.length : ℚ) ∧
        dates = List.iterate next start dates.length ∧ 0 < dates.length ∧ dates.Nodup ∧
        ∀ date, date ∈ dates ↔ start ≤ date ∧ date ≤ ending)) ∧
    (∀ s m e start middle ending, Names s start → Names m middle → Names e ending →
      start ≤ middle → middle < ending → Names middle.next.spelling middle.next ∧
      countDaysInclusive s e = (do
        let before ← countDaysInclusive s m
        let after ← countDaysInclusive middle.next.spelling e
        return before + after)) := by
  refine ⟨?_, ?_, ?_⟩
  · intro s
    constructor
    · rintro ⟨time, parsed⟩
      obtain ⟨date, named, -⟩ := parseIsoDate_eq_ok.mp parsed
      exact ⟨date, named⟩
    · rintro ⟨date, named⟩
      exact ⟨_, parseIsoDate_eq_ok.mpr ⟨date, named, rfl⟩⟩
  · intro s e start ending startNamed endNamed
    refine ⟨?_, ?_⟩
    · rw [countDaysInclusive_eq startNamed endNamed]
      constructor
      · rintro ⟨failure, failed⟩
        split at failed
        next precedes => exact precedes
        next => cases failed
      · intro precedes
        exact ⟨_, if_pos precedes⟩
    · intro notBefore
      exact countDaysInclusive_dates startNamed endNamed (not_before.mp notBefore)
  · intro s m e start middle ending startNamed middleNamed endNamed ordered later
    exact ⟨names_next middleNamed endNamed later,
      countDaysInclusive_add startNamed middleNamed endNamed ordered later⟩

namespace Office

def leapFebruary : CalendarDate := ⟨2028, 2, 28, by decide, by decide⟩
def leapDay : CalendarDate := ⟨2028, 2, 29, by decide, by decide⟩
def leapMarch : CalendarDate := ⟨2028, 3, 1, by decide, by decide⟩

end Office

open Office in
/-- Over a leap day: three days, two of them up to the 29th. -/
theorem day_counting_leap : leapDay.next = leapMarch ∧
    countDaysInclusive "2028-02-28" "2028-03-01" = .ok 3 ∧
    countDaysInclusive "2028-02-28" "2028-03-01" = (do
      let before ← countDaysInclusive "2028-02-28" "2028-02-29"
      let after ← countDaysInclusive leapDay.next.spelling "2028-03-01"
      return before + after) := by
  have february : Names "2028-02-28" leapFebruary := ⟨by decide, by decide, by decide +kernel⟩
  have leap : Names "2028-02-29" leapDay := ⟨by decide, by decide, by decide +kernel⟩
  have march : Names "2028-03-01" leapMarch := ⟨by decide, by decide, by decide +kernel⟩
  refine ⟨by decide +kernel, by decide +kernel, ?_⟩
  exact (day_counting_is_calendar_counting.2.2 _ _ _ _ _ _ february leap march
    (by exact .inl (by decide)) (by decide)).2

end TimeOff
