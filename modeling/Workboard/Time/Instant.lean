import Workboard.Text.Basic

/-!
The proleptic Gregorian calendar: dates, the day after and before a date, and the number of a day
counted from 1970-01-01.
-/

namespace Workboard

def isLeapYear (y : Int) : Bool := y % 4 == 0 && (y % 100 != 0 || y % 400 == 0)

def daysInMonth (y : Int) (m : Nat) : Nat :=
  if m = 2 then (if isLeapYear y then 29 else 28)
  else if m = 4 ∨ m = 6 ∨ m = 9 ∨ m = 11 then 30
  else 31

/-- The years a date may lie in. -/
def yearMin : Int := -262143

def yearMax : Int := 262142

/-- Whether year, month and day name a date of the calendar. -/
def isDate (y : Int) (m d : Nat) : Bool :=
  decide (yearMin ≤ y) && decide (y ≤ yearMax) && decide (1 ≤ m) && decide (m ≤ 12) &&
    decide (1 ≤ d) && decide (d ≤ daysInMonth y m)

structure Date where
  year : Int
  month : Nat
  day : Nat
  valid : isDate year month day = true
  deriving DecidableEq

namespace Date

def ofParts? (y : Int) (m d : Nat) : Option Date :=
  if h : isDate y m d = true then some ⟨y, m, d, h⟩ else none

/-- The day after, unless the calendar ends. -/
def next? (t : Date) : Option Date :=
  if t.day < daysInMonth t.year t.month then ofParts? t.year t.month (t.day + 1)
  else if t.month < 12 then ofParts? t.year (t.month + 1) 1
  else ofParts? (t.year + 1) 1 1

/-- The day before, unless the calendar begins. -/
def previous? (t : Date) : Option Date :=
  if 1 < t.day then ofParts? t.year t.month (t.day - 1)
  else if 1 < t.month then ofParts? t.year (t.month - 1) (daysInMonth t.year (t.month - 1))
  else ofParts? (t.year - 1) 12 31

/-- Days since 1970-01-01, counted over years that begin in March. -/
def dayNumber (t : Date) : Int :=
  let y := if t.month ≤ 2 then t.year - 1 else t.year
  let era := y.fdiv 400
  let yearOfEra := y - era * 400
  let shifted : Int := (t.month + 9) % 12
  let dayOfYear := (153 * shifted + 2) / 5 + t.day - 1
  era * 146097 + (yearOfEra * 365 + yearOfEra / 4 - yearOfEra / 100 + dayOfYear) - 719468

/-- The date with a given day number. -/
def ofDayNumber? (n : Int) : Option Date :=
  let z := n + 719468
  let era := z.fdiv 146097
  let dayOfEra := z - era * 146097
  let yearOfEra := (dayOfEra - dayOfEra / 1460 + dayOfEra / 36524 - dayOfEra / 146096) / 365
  let dayOfYear := dayOfEra - (365 * yearOfEra + yearOfEra / 4 - yearOfEra / 100)
  let shifted := (5 * dayOfYear + 2) / 153
  let day := dayOfYear - (153 * shifted + 2) / 5 + 1
  let month := if shifted < 10 then shifted + 3 else shifted - 9
  let year := yearOfEra + era * 400 + (if month ≤ 2 then 1 else 0)
  ofParts? year month.toNat day.toNat

end Date

end Workboard

/-!
Points in time in UTC with nanoseconds, each second of which may have a leap second behind it, and their distances.
-/

namespace Workboard

/-- Nanoseconds run to two seconds: the second half of the range marks a leap second, which any second may be
followed by. -/
def isTimeOfDay (hour minute second nano : Nat) : Bool :=
  decide (hour < 24) && decide (minute < 60) && decide (second < 60) && decide (nano < 2000000000)

structure Instant where
  date : Date
  hour : Nat
  minute : Nat
  second : Nat
  nano : Nat
  valid : isTimeOfDay hour minute second nano = true
  deriving DecidableEq

namespace Instant

def ofParts? (date : Date) (hour minute second nano : Nat) : Option Instant :=
  if h : isTimeOfDay hour minute second nano = true then some ⟨date, hour, minute, second, nano, h⟩
  else none

def secondOfDay (t : Instant) : Nat := t.hour * 3600 + t.minute * 60 + t.second

def compare (a b : Instant) : Ordering :=
  (Ord.compare a.date.year b.date.year).then <|
  (Ord.compare a.date.month b.date.month).then <|
  (Ord.compare a.date.day b.date.day).then <|
  (Ord.compare a.secondOfDay b.secondOfDay).then <|
  Ord.compare a.nano b.nano

def le (a b : Instant) : Bool := a.compare b != .gt

/-- Seconds since the start of 1970. -/
def unixSeconds (t : Instant) : Int := t.date.dayNumber * 86400 + t.secondOfDay

/-- Nanoseconds from `b` to `a`; a leap second that lies between the two counts. -/
def nanosSince (a b : Instant) : Int :=
  let days := a.date.dayNumber - b.date.dayNumber
  let seconds : Int := (a.secondOfDay : Int) - b.secondOfDay
  let leap : Int :=
    if a.secondOfDay > b.secondOfDay ∧ b.nano ≥ 1000000000 then 1
    else if a.secondOfDay < b.secondOfDay ∧ a.nano ≥ 1000000000 then -1
    else 0
  (days * 86400 + seconds + leap) * 1000000000 + ((a.nano : Int) - b.nano)

/-- The instant a number of nanoseconds after the start of 1970. -/
def ofUnixNanos? (n : Int) : Option Instant := do
  let seconds := n.fdiv 1000000000
  let days := seconds.fdiv 86400
  let date ← Date.ofDayNumber? days
  let s := (seconds - days * 86400).toNat
  ofParts? date (s / 3600) (s / 60 % 60) (s % 60) (n - seconds * 1000000000).toNat

/-- An instant a number of milliseconds later; the instant itself where the calendar ends. A leap second is left when
it is over, and does not count then. -/
def addMillis (t : Instant) (ms : Nat) : Instant :=
  let later :=
    if 1000000000 ≤ t.nano ∧ t.nano + ms * 1000000 < 2000000000 then
      ofParts? t.date t.hour t.minute t.second (t.nano + ms * 1000000)
    else ofUnixNanos? (t.unixSeconds * 1000000000 + (t.nano % 1000000000 + ms * 1000000 : Nat))
  later.getD t

/-- The instant at a wall clock that is `offset` seconds ahead of UTC, for less than a day. -/
def ofLocal? (date : Date) (hour minute second nano : Nat) (offset : Int) : Option Instant :=
  let s : Int := (hour * 3600 + minute * 60 + second : Nat) - offset
  let day := if s < 0 then date.previous? else if s ≥ 86400 then date.next? else some date
  let rest := (s % 86400).toNat
  day.bind fun date => ofParts? date (rest / 3600) (rest / 60 % 60) (rest % 60) nano

end Instant

end Workboard
