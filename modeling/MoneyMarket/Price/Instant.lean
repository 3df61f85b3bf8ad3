import MoneyMarket.Numeral.Point

/-! # Instants

A point in time in UTC, counted in seconds from the beginning of 1970 and
further nanoseconds. The count leaves out leap seconds: one that is inserted
at the end of a minute is told as a second more of nanoseconds. The text is
the calendar date and the time of day, with three, six or nine digits for the
fraction of the second if there is one.
-/

namespace MoneyMarket

/-- A point in time. -/
@[ext]
structure Instant where
  seconds : Int
  /-- From a thousand million on, they lie in a leap second. -/
  nanoseconds : Nat
  nanoseconds_lt : nanoseconds < 2_000_000_000
  leap_at_minute_end : 1_000_000_000 ≤ nanoseconds → seconds % 60 = 59
  deriving DecidableEq

namespace Instant

/-- The instant of a count of seconds and nanoseconds, unless it would be a leap
second in the middle of a minute. -/
def ofParts? (seconds : Int) (nanoseconds : Nat) : Option Instant :=
  if h : nanoseconds < 2_000_000_000 ∧ (1_000_000_000 ≤ nanoseconds → seconds % 60 = 59) then
    some ⟨seconds, nanoseconds, h.1, h.2⟩
  else none

/-- The instant of a whole number of seconds. -/
def ofSeconds (seconds : Int) : Instant :=
  ⟨seconds, 0, by decide, fun h => absurd h (by decide)⟩

/-- The seconds of the day, without a leap second. -/
def timeOfDay (t : Instant) : Nat := (t.seconds % 86400).toNat

/-- Whether the instant lies in a leap second. -/
def isLeap (t : Instant) : Bool := 1_000_000_000 ≤ t.nanoseconds

/-- The leap seconds passed between the times of day of two instants: one of
the two instants lies in it, and its time of day is the earlier one. -/
def leapsPassed (now earlier : Instant) : Int :=
  if earlier.isLeap && earlier.timeOfDay < now.timeOfDay then 1
  else if now.isLeap && now.timeOfDay < earlier.timeOfDay then -1
  else 0

/-- The whole seconds from one instant to a later one; negative, and also
without the fraction, if it is earlier. -/
def secondsSince (now earlier : Instant) : Int :=
  let seconds := now.seconds - earlier.seconds + leapsPassed now earlier
  (seconds * 1_000_000_000 + now.nanoseconds - earlier.nanoseconds).tdiv 1_000_000_000

/-- A day of the calendar. -/
structure Date where
  year : Int
  month : Nat
  day : Nat
  deriving DecidableEq

/-- The calendar day of a number of days from the beginning of 1970. Years are
taken to begin with March, so that a leap day is the last day of its year, and
the days are split into cycles of 400 years. -/
def Date.ofDays (days : Int) : Date :=
  let shifted := days + 719468
  let cycle := shifted / 146097
  let dayOfCycle := (shifted % 146097).toNat
  let yearOfCycle :=
    (dayOfCycle - dayOfCycle / 1460 + dayOfCycle / 36524 - dayOfCycle / 146096) / 365
  let dayOfYear := dayOfCycle - (365 * yearOfCycle + yearOfCycle / 4 - yearOfCycle / 100)
  let monthFromMarch := (5 * dayOfYear + 2) / 153
  let month := if monthFromMarch < 10 then monthFromMarch + 3 else monthFromMarch - 9
  { year := cycle * 400 + yearOfCycle + (if month ≤ 2 then 1 else 0)
    month
    day := dayOfYear - (153 * monthFromMarch + 2) / 5 + 1 }

/-- The text of a year: four digits, and a sign outside of the years 0 to
9999. -/
def yearText (year : Int) : List Char :=
  let digits := Numeral.write 10 year.natAbs
  let padded := List.replicate (4 - digits.length) '0' ++ digits
  if year < 0 then '-' :: padded
  else if 9999 < year then '+' :: padded
  else padded

/-- The text of a fraction of a second: nothing for none, and otherwise the
fewest of three, six and nine digits that are exact. -/
def fractionText (nanoseconds : Nat) : List Char :=
  if nanoseconds = 0 then []
  else if nanoseconds % 1_000_000 = 0 then '.' :: Numeral.lastDigits 3 (nanoseconds / 1_000_000)
  else if nanoseconds % 1_000 = 0 then '.' :: Numeral.lastDigits 6 (nanoseconds / 1_000)
  else '.' :: Numeral.lastDigits 9 nanoseconds

/-- The text of an instant. -/
def text (t : Instant) : String :=
  let date := Date.ofDays (t.seconds / 86400)
  let second := t.timeOfDay % 60 + t.nanoseconds / 1_000_000_000
  let two := Numeral.lastDigits 2
  String.ofList <|
    yearText date.year ++ '-' :: two date.month ++ '-' :: two date.day ++
      'T' :: two (t.timeOfDay / 3600) ++ ':' :: two (t.timeOfDay / 60 % 60) ++
      ':' :: two second ++
      fractionText (t.nanoseconds % 1_000_000_000) ++ "+00:00".toList

end Instant

end MoneyMarket
