import Mathlib.Tactic.Common

/-! # ECMAScript time values

Time values are milliseconds since 1970-01-01T00:00:00Z.  `makeDay` and the
UTC getters follow the abstract operations of the language: the proleptic
Gregorian calendar, months from 0, out-of-range months and dates carried over.
`dateParse` reads the date-time form of the interchange format that names an
instant, that is, with a `Z` or a numeric offset.
-/

set_option autoImplicit false

namespace TimeOff.Lib

def msPerDay : Int := 86400000

def leapYear (year : Int) : Bool := year % 4 = 0 ∧ (year % 100 ≠ 0 ∨ year % 400 = 0)

/-- The number of the first day of a year. -/
def dayFromYear (year : Int) : Int :=
  365 * (year - 1970) + (year - 1969) / 4 - (year - 1901) / 100 + (year - 1601) / 400

/-- The day of the year on which a month starts. -/
def monthStart (leap : Bool) (month : Int) : Int :=
  let extra := if leap then 1 else 0
  match month with
  | 0 => 0
  | 1 => 31
  | 2 => 59 + extra
  | 3 => 90 + extra
  | 4 => 120 + extra
  | 5 => 151 + extra
  | 6 => 181 + extra
  | 7 => 212 + extra
  | 8 => 243 + extra
  | 9 => 273 + extra
  | 10 => 304 + extra
  | _ => 334 + extra

def makeDay (year month date : Int) : Int :=
  let year := year + month / 12
  dayFromYear year + monthStart (leapYear year) (month % 12) + date - 1

/-- The year a day falls in: the estimate from the mean length of a year is off by one at most. -/
def yearFromDay (day : Int) : Int :=
  let estimate := 1970 + day * 400 / 146097
  if dayFromYear (estimate + 1) ≤ day then estimate + 1
  else if day < dayFromYear estimate then estimate - 1
  else estimate

def monthFromDay (day : Int) : Int :=
  let year := yearFromDay day
  let within := day - dayFromYear year
  let starts := monthStart (leapYear year)
  if within < starts 1 then 0
  else if within < starts 2 then 1
  else if within < starts 3 then 2
  else if within < starts 4 then 3
  else if within < starts 5 then 4
  else if within < starts 6 then 5
  else if within < starts 7 then 6
  else if within < starts 8 then 7
  else if within < starts 9 then 8
  else if within < starts 10 then 9
  else if within < starts 11 then 10
  else 11

def dateFromDay (day : Int) : Int :=
  let year := yearFromDay day
  day - dayFromYear year - monthStart (leapYear year) (monthFromDay day) + 1

/-- `Date.UTC(year, month, date)`, which reads the years 0 to 99 as 1900 to 1999. -/
def dateUtc (year month date : Int) : Int :=
  let year := if 0 ≤ year ∧ year ≤ 99 then 1900 + year else year
  makeDay year month date * msPerDay

def getUtcFullYear (time : Int) : Int := yearFromDay (time / msPerDay)
def getUtcMonth (time : Int) : Int := monthFromDay (time / msPerDay)
def getUtcDate (time : Int) : Int := dateFromDay (time / msPerDay)

/-- The number that a string of ASCII digits spells. -/
def digits? (chars : List Char) : Option Int :=
  if chars.all Char.isDigit then
    some (chars.foldl (fun value char => value * 10 + (char.toNat - '0'.toNat : Nat)) 0)
  else none

/-- `Z` or `±HH:mm`, in milliseconds east of UTC. -/
def zoneOffset? : List Char → Option Int
  | ['Z'] => some 0
  | [sign, h1, h2, ':', m1, m2] => do
    let hours ← digits? [h1, h2]
    let minutes ← digits? [m1, m2]
    if hours ≤ 23 ∧ minutes ≤ 59 then
      let offset := (hours * 60 + minutes) * 60000
      if sign = '+' then some offset else if sign = '-' then some (-offset) else none
    else none
  | _ => none

/-- `:ss.sss`, `:ss` or nothing, in milliseconds, with the characters that follow. -/
def seconds? : List Char → Option (Int × List Char)
  | ':' :: s1 :: s2 :: '.' :: f1 :: f2 :: f3 :: zone => do
    let seconds ← digits? [s1, s2]
    let millis ← digits? [f1, f2, f3]
    if seconds ≤ 59 then some (seconds * 1000 + millis, zone) else none
  | ':' :: s1 :: s2 :: zone => do
    let seconds ← digits? [s1, s2]
    if seconds ≤ 59 then some (seconds * 1000, zone) else none
  | zone => some (0, zone)

/-- `Date.parse` on `YYYY-MM-DDTHH:mm[:ss[.sss]]` with a zone; `none` stands for NaN. -/
def dateParse (text : String) : Option Int :=
  match text.toList with
  | y1 :: y2 :: y3 :: y4 :: '-' :: m1 :: m2 :: '-' :: d1 :: d2 :: 'T' ::
      h1 :: h2 :: ':' :: n1 :: n2 :: rest => do
    let year ← digits? [y1, y2, y3, y4]
    let month ← digits? [m1, m2]
    let date ← digits? [d1, d2]
    let hours ← digits? [h1, h2]
    let minutes ← digits? [n1, n2]
    let (millis, zone) ← seconds? rest
    let offset ← zoneOffset? zone
    let day := makeDay year (month - 1) date
    -- a month or date out of range is carried over and reads back as another one
    if monthFromDay day = month - 1 ∧ dateFromDay day = date ∧ hours ≤ 23 ∧ minutes ≤ 59 then
      some (day * msPerDay + (hours * 60 + minutes) * 60000 + millis - offset)
    else none
  | _ => none

theorem dateUtc_dvd (year month date : Int) : msPerDay ∣ dateUtc year month date :=
  Int.dvd_mul_left _ _

example : dateParse "2026-04-24T02:00:00+02:00" = dateParse "2026-04-24T00:00:00Z" := by
  decide +kernel

end TimeOff.Lib
