import Workboard.Time.Instant
import Workboard.Text.Basic

/-!
The text of an instant: the one form that is written, and the relaxed form that is read.
-/

namespace Workboard.Rfc3339

/-- A year has four digits, and a sign in front where it needs more or is negative. -/
def year (y : Int) : List Char :=
  if 0 ≤ y ∧ y ≤ 9999 then padded 4 y.toNat
  else if y < 0 then '-' :: padded 4 y.natAbs
  else '+' :: padded 4 y.toNat

/-- The fraction of a second in 0, 3, 6 or 9 digits, the fewest that are exact. -/
def fraction (nano : Nat) : List Char :=
  if nano = 0 then []
  else if nano % 1000000 = 0 then '.' :: padded 3 (nano / 1000000)
  else if nano % 1000 = 0 then '.' :: padded 6 (nano / 1000)
  else '.' :: padded 9 nano

/-- A leap second is written as the second that follows, which in the last second of a minute is second 60. -/
def chars (t : Instant) : List Char :=
  let leap := t.nano / 1000000000
  year t.date.year ++ '-' :: padded 2 t.date.month ++ '-' :: padded 2 t.date.day ++
    'T' :: padded 2 t.hour ++ ':' :: padded 2 t.minute ++ ':' :: padded 2 (t.second + leap) ++
    fraction (t.nano % 1000000000) ++ ['Z']

/-- At most `most` and at least one decimal digit, and what follows. -/
def digits? (most : Nat) (cs : List Char) : Option (Nat × List Char) :=
  let run := (cs.take most).takeWhile fun c => (digitValue? c).isSome
  (natOfDecimal? run).map fun n => (n, cs.drop run.length)

/-- A number of at most two digits; blanks in front are skipped. -/
def twoDigits? (cs : List Char) : Option (Nat × List Char) := digits? 2 (dropBlanks cs)

/-- A signed year has any number of digits, an unsigned one at most four. -/
def year? (cs : List Char) : Option (Int × List Char) :=
  match dropBlanks cs with
  | '-' :: r => (digits? r.length r).map fun (n, rest) => (-(n : Int), rest)
  | '+' :: r => (digits? r.length r).map fun (n, rest) => ((n : Int), rest)
  | r => (digits? 4 r).map fun (n, rest) => ((n : Int), rest)

/-- A mark that may have blanks in front. -/
def mark? (c : Char) (cs : List Char) : Option (List Char) :=
  match dropBlanks cs with
  | d :: r => if d = c then some r else none
  | [] => none

/-- Nanoseconds after a point: nine digits count and further ones are skipped. -/
def fraction? : List Char → Option (Nat × List Char)
  | '.' :: cs => do
    let run := (cs.take 9).takeWhile fun c => (digitValue? c).isSome
    let n ← natOfDecimal? run
    some (n * Nat.pow 10 (9 - run.length),
      (cs.drop run.length).dropWhile fun c => (digitValue? c).isSome)
  | cs => some (0, cs)

/-- Two digits of an offset, the first at most `tens`. -/
def offsetPart? (tens : Nat) : List Char → Option (Nat × List Char)
  | a :: b :: r => do
    let x ← digitValue? a
    let y ← digitValue? b
    if x ≤ tens then some (x * 10 + y, r) else none
  | _ => none

/-- Hours and minutes ahead of UTC, in seconds. -/
def signedOffset? (sign : Int) (cs : List Char) : Option (Int × List Char) := do
  let (hours, r) ← offsetPart? 9 cs
  let (minutes, r) ← offsetPart? 5 (r.dropWhile fun c => c = ':' || isBlank c)
  some (sign * (hours * 3600 + minutes * 60 : Nat), r)

/-- UTC by its letter or name, or a signed distance from it. -/
def offset? (cs : List Char) : Option (Int × List Char) :=
  if (cs.take 3).map Char.toLower = ['u', 't', 'c'] then some (0, cs.drop 3)
  else
    match cs with
    | c :: r =>
      if c = 'Z' ∨ c = 'z' then some (0, r)
      else if c = '+' then signedOffset? 1 r
      else if c = '-' ∨ c = '\u2212' then signedOffset? (-1) r
      else none
    | [] => none

/-- Second 60 stands for the leap second after second 59. -/
def clock? (date : Date) (hour minute second nano : Nat) (offset : Int) : Option Instant :=
  if hour < 24 ∧ minute < 60 ∧ second ≤ 60 ∧ -86400 < offset ∧ offset < 86400 then
    if second = 60 then Instant.ofLocal? date hour minute 59 (nano + 1000000000) offset
    else Instant.ofLocal? date hour minute second nano offset
  else none

def ofChars? (cs : List Char) : Option Instant := do
  let (year, r) ← year? cs
  let r ← mark? '-' r
  let (month, r) ← twoDigits? r
  let r ← mark? '-' r
  let (day, r) ← twoDigits? r
  let date ← Date.ofParts? year month day
  let c ← r.head?
  if c ≠ 't' ∧ c ≠ 'T' ∧ c ≠ ' ' then none
  let (hour, r) ← twoDigits? (r.drop 1)
  let r ← mark? ':' r
  let (minute, r) ← twoDigits? r
  let r ← mark? ':' r
  let (second, r) ← twoDigits? r
  let (nano, r) ← fraction? r
  let (offset, r) ← offset? (dropBlanks r)
  if (dropBlanks r).isEmpty then clock? date hour minute second nano offset else none

end Workboard.Rfc3339

namespace Workboard.Instant

def toText (t : Instant) : String := String.ofList (Rfc3339.chars t)

def ofText? (s : String) : Option Instant := Rfc3339.ofChars? s.toList

/-- Whether an instant has a text of its own. A leap second has one as second 60 of its minute, so not behind any other
second than the last. -/
def Expressible (t : Instant) : Prop := t.nano < 1000000000 ∨ t.second = 59

instance (t : Instant) : Decidable t.Expressible := inferInstanceAs (Decidable (_ ∨ _))

theorem isTimeOfDay_next {hour minute second nano : Nat} (valid : isTimeOfDay hour minute second nano = true)
    (early : second ≠ 59) : isTimeOfDay hour minute (second + 1) (nano - 1000000000) = true := by
  simp only [isTimeOfDay, Bool.and_eq_true, decide_eq_true_eq] at valid ⊢
  omega

/-- The instant that the text of an instant names: where a leap second has no text of its own, it is written as the
second that follows. -/
def asWritten (t : Instant) : Instant :=
  if h : t.Expressible then t
  else ⟨t.date, t.hour, t.minute, t.second + 1, t.nano - 1000000000,
    isTimeOfDay_next t.valid (not_or.mp h).2⟩

end Workboard.Instant
