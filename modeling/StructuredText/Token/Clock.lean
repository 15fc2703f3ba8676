/-!
# Durations, dates and times of day

A duration is a whole number of nanoseconds of either sign.  Its seconds and its
rest both carry its sign, and the seconds have to fit 64 bits.  Dates are given
by the year and the day in the year, in the Gregorian calendar extended to all
years of at most four digits.
-/

set_option autoImplicit false

namespace StructuredText

structure Duration where
  nanoseconds : Int
deriving DecidableEq, Repr

namespace Duration

/-- The nanoseconds of a second. -/
def second : Int := 1000000000

/-- The number of seconds that a duration stays below; the negative of it can just
be reached. -/
def limit : Int := 9223372036854775808

/-- Whole seconds, rounded toward zero. -/
def seconds (duration : Duration) : Int := duration.nanoseconds.tdiv second

/-- The nanoseconds beyond the whole seconds. -/
def rest (duration : Duration) : Int := duration.nanoseconds.tmod second

def isNegative (duration : Duration) : Bool := duration.nanoseconds < 0

/-- The range of whole seconds that a duration can have. -/
def Fits (duration : Duration) : Prop :=
  -limit ≤ duration.seconds ∧ duration.seconds < limit

instance (duration : Duration) : Decidable duration.Fits :=
  inferInstanceAs (Decidable (_ ∧ _))

/-- Seconds and nanoseconds; the nanoseconds may have the other sign. -/
def ofSeconds (seconds rest : Int) : Duration := { nanoseconds := seconds * second + rest }

/-- The duration if it can be represented. -/
def checked (nanoseconds : Int) : Option Duration :=
  let duration : Duration := { nanoseconds }
  if duration.Fits then some duration else none

/-- The sum of the parts, taken from left to right.  Every part and every sum on
the way has to be representable. -/
def sum? : Int → List Int → Option Int
  | total, [] => some total
  | total, part :: parts => do
      let _ ← checked part
      let _ ← checked (total + part)
      sum? (total + part) parts

/-- A duration of days, hours, minutes, seconds and milliseconds, possibly
negated as a whole. -/
def ofParts? (isNegative : Bool) (days hours minutes seconds milliseconds : Int) :
    Option Duration := do
  let total ← sum? 0
    [days * 86400 * second, hours * 3600 * second, minutes * 60 * second, seconds * second,
      milliseconds * 1000000]
  checked (if isNegative then -total else total)

end Duration

structure TimeOfDay where
  hour : Nat
  minute : Nat
  second : Nat
  nanosecond : Nat
deriving DecidableEq, Repr

/-- A time of day whose parts are all in range. -/
def TimeOfDay.ofParts? (hour minute second nanosecond : Int) : Option TimeOfDay :=
  if 0 ≤ hour ∧ hour < 24 ∧ 0 ≤ minute ∧ minute < 60 ∧ 0 ≤ second ∧ second < 60 ∧
      0 ≤ nanosecond ∧ nanosecond < 1000000000 then
    some
      { hour := hour.toNat
        minute := minute.toNat
        second := second.toNat
        nanosecond := nanosecond.toNat }
  else none

structure Date where
  year : Int
  /-- The day in the year, the first of January being 1. -/
  dayOfYear : Nat
deriving DecidableEq, Repr

namespace Date

def isLeap (year : Int) : Bool := year % 4 = 0 ∧ (year % 100 ≠ 0 ∨ year % 400 = 0)

def daysIn (year : Int) : Nat := if isLeap year then 366 else 365

/-- The lengths of the months of a year. -/
def monthLengths (year : Int) : List Nat :=
  [31, if isLeap year then 29 else 28, 31, 30, 31, 30, 31, 31, 30, 31, 30, 31]

/-- A date of a year of at most four digits. -/
def ofParts? (year dayOfYear : Int) : Option Date :=
  if -9999 ≤ year ∧ year ≤ 9999 ∧ 1 ≤ dayOfYear ∧ dayOfYear ≤ daysIn year then
    some { year, dayOfYear := dayOfYear.toNat }
  else none

/-- The month, counted from `month`, and the day in it. -/
def monthAndDay (month : Nat) : List Nat → Nat → Nat × Nat
  | [], day => (month, day)
  | length :: lengths, day =>
      if day ≤ length then (month, day) else monthAndDay (month + 1) lengths (day - length)

def month (date : Date) : Nat := (monthAndDay 1 (monthLengths date.year) date.dayOfYear).1

def day (date : Date) : Nat := (monthAndDay 1 (monthLengths date.year) date.dayOfYear).2

end Date

structure DateAndTime where
  date : Date
  time : TimeOfDay
deriving DecidableEq, Repr

end StructuredText
