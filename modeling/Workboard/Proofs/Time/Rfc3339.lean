import Workboard.Time.Rfc3339
import Workboard.Proofs.Text.Digits

/-!
The text of an instant is read as the instant that it names, leap seconds and signed years included. That is the
instant itself, unless it lies in a leap second that has no text of its own.
-/

namespace Workboard.Rfc3339

/-- Characters that no numeral and no run of blanks goes on with. -/
def Stops (rest : List Char) : Prop := ∀ c ∈ rest.head?, (digitValue? c).isSome = false

theorem stops_cons {c : Char} (h : (digitValue? c).isSome = false) (rest : List Char) :
    Stops (c :: rest) := by
  intro d hd
  obtain rfl : c = d := by simpa using hd
  exact h

theorem takeWhile_of_stops {rest : List Char} (h : Stops rest) (n : Nat) :
    (rest.take n).takeWhile (fun c => (digitValue? c).isSome) = [] := by
  rcases rest with _ | ⟨c, rest⟩
  · simp
  · rcases n with _ | n
    · rfl
    · simp [h c rfl]

/-- The run of digits at the head of a text that goes on with something else, or is cut off there. -/
theorem takeWhile_digits {ds rest : List Char} (digits : ∀ c ∈ ds, (digitValue? c).isSome = true)
    {most : Nat} (fits : ds.length ≤ most) (stop : ds.length = most ∨ Stops rest) :
    ((ds ++ rest).take most).takeWhile (fun c => (digitValue? c).isSome) = ds := by
  have behind : (rest.take (most - ds.length)).takeWhile (fun c => (digitValue? c).isSome) = [] := by
    rcases stop with full | stop
    · simp [full]
    · exact takeWhile_of_stops stop _
  rw [List.take_append, List.take_of_length_le fits, List.takeWhile_append_of_pos digits, behind,
    List.append_nil]

theorem digits?_append {ds rest : List Char} (digits : ∀ c ∈ ds, (digitValue? c).isSome = true)
    {most : Nat} (fits : ds.length ≤ most) (stop : ds.length = most ∨ Stops rest) :
    digits? most (ds ++ rest) = (natOfDecimal? ds).map fun n => (n, rest) := by
  simp [digits?, takeWhile_digits digits fits stop]

theorem digits?_padded {width n most : Nat} (fits : (padded width n).length ≤ most) {rest : List Char}
    (stop : (padded width n).length = most ∨ Stops rest) :
    digits? most (padded width n ++ rest) = some (n, rest) := by
  rw [digits?_append (digitValue?_isSome_padded width n) fits stop, natOfDecimal?_padded]
  rfl

theorem of_digit {c : Char} (h : (digitValue? c).isSome = true) :
    isBlank c = false ∧ c ≠ '-' ∧ c ≠ '+' := by
  refine ⟨?_, ?_, ?_⟩
  · have range : 48 ≤ c.toNat ∧ c.toNat ≤ 57 := by
      simp only [digitValue?] at h
      split at h
      next inside => exact inside
      next => cases h
    simp [isBlank]
    omega
  · rintro rfl
    exact absurd h (by decide)
  · rintro rfl
    exact absurd h (by decide)

theorem dropBlanks_cons {c : Char} (h : isBlank c = false) (rest : List Char) :
    dropBlanks (c :: rest) = c :: rest := by
  simp [dropBlanks, h]

theorem padded_eq_cons (width n : Nat) :
    ∃ c cs, padded width n = c :: cs ∧ (digitValue? c).isSome = true := by
  obtain ⟨c, cs, h⟩ := List.exists_cons_of_ne_nil (padded_ne_nil width n)
  refine ⟨c, cs, h, digitValue?_isSome_padded width n c ?_⟩
  rw [h]
  exact List.mem_cons_self

theorem dropBlanks_padded (width n : Nat) (rest : List Char) :
    dropBlanks (padded width n ++ rest) = padded width n ++ rest := by
  obtain ⟨c, cs, h, digit⟩ := padded_eq_cons width n
  rw [h, List.cons_append, dropBlanks_cons (of_digit digit).1]

theorem twoDigits?_padded {n : Nat} (h : n < 100) (rest : List Char) :
    twoDigits? (padded 2 n ++ rest) = some (n, rest) := by
  have size := length_padded (show n < 10 ^ 2 from h) (by omega)
  rw [twoDigits?, dropBlanks_padded, digits?_padded (by omega) (.inl size)]

theorem mark?_cons {c : Char} (h : isBlank c = false) (rest : List Char) :
    mark? c (c :: rest) = some rest := by
  rw [mark?, dropBlanks_cons h]
  simp

/-- A year is read back where something other than a digit follows. -/
theorem year?_year (y : Int) {rest : List Char} (stop : Stops rest) :
    year? (year y ++ rest) = some (y, rest) := by
  unfold year
  split
  next short =>
    have size := length_padded (show y.toNat < 10 ^ 4 by omega) (by omega)
    obtain ⟨c, cs, h, digit⟩ := padded_eq_cons 4 y.toNat
    have plain := digits?_padded (show (padded 4 y.toNat).length ≤ 4 by omega) (.inr stop)
    have whole : ((y.toNat : Nat) : Int) = y := by omega
    rw [year?, dropBlanks_padded]
    rw [h, List.cons_append] at plain ⊢
    split
    next e => exact absurd (List.cons.inj e).1 (of_digit digit).2.1
    next e => exact absurd (List.cons.inj e).1 (of_digit digit).2.2
    next => simp only [plain, Option.map_some, whole]
  next =>
    have all (n : Nat) : digits? (padded 4 n ++ rest).length (padded 4 n ++ rest) = some (n, rest) := by
      apply digits?_padded
      · simp
      · exact .inr stop
    split
    next negative =>
      have whole : -((y.natAbs : Nat) : Int) = y := by omega
      rw [List.cons_append, year?, dropBlanks_cons (by decide)]
      simp only [all, Option.map_some, whole]
    next =>
      have whole : ((y.toNat : Nat) : Int) = y := by omega
      rw [List.cons_append, year?, dropBlanks_cons (by decide)]
      simp only [all, Option.map_some, whole]

/-- A point, and a number of places that is exact for the nanoseconds, are read back. -/
theorem fraction?_point {places n : Nat} (fits : n < 10 ^ places) (some_place : 0 < places)
    (most : places ≤ 9) (rest : List Char) (stop : Stops rest) :
    fraction? ('.' :: padded places n ++ rest) = some (n * 10 ^ (9 - places), rest) := by
  have size := length_padded fits some_place
  have short : (padded places n).length ≤ 9 := by omega
  have run := takeWhile_digits (digitValue?_isSome_padded places n) short (.inr stop)
  have behind : rest.dropWhile (fun c => (digitValue? c).isSome) = rest := by
    rcases rest with _ | ⟨c, rest⟩
    · rfl
    · simp [stop c rfl]
  rw [List.cons_append, fraction?, run, natOfDecimal?_padded]
  simp [size, behind]

theorem fraction?_fraction {nano : Nat} (h : nano < 1000000000) {rest : List Char}
    (stop : Stops rest) (other : rest.head? ≠ some '.') :
    fraction? (fraction nano ++ rest) = some (nano, rest) := by
  unfold fraction
  split
  next zero =>
    rw [List.nil_append, zero]
    unfold fraction?
    split
    next => simp at other
    next => rfl
  next =>
    split
    next =>
      rw [fraction?_point (by omega) (by omega) (by omega) rest stop]
      simp
      omega
    next =>
      split
      next =>
        rw [fraction?_point (by omega) (by omega) (by omega) rest stop]
        simp
        omega
      next =>
        rw [fraction?_point (by omega) (by omega) (by omega) rest stop]
        simp

/-- A clock in UTC that shows a second of a minute is read as that second. -/
theorem ofLocal?_utc {date : Date} {hour minute second nano : Nat} (valid : isTimeOfDay hour minute second nano = true) :
    Instant.ofLocal? date hour minute second nano 0 = some ⟨date, hour, minute, second, nano, valid⟩ := by
  have bounds := valid
  simp only [isTimeOfDay, Bool.and_eq_true, decide_eq_true_eq] at bounds
  have day : ¬ ((hour * 3600 + minute * 60 + second : Nat) - (0 : Int) < 0) := by omega
  have night : ¬ ((hour * 3600 + minute * 60 + second : Nat) - (0 : Int) ≥ 86400) := by omega
  have rest : (((hour * 3600 + minute * 60 + second : Nat) - (0 : Int)) % 86400).toNat =
      hour * 3600 + minute * 60 + second := by omega
  have h1 : (hour * 3600 + minute * 60 + second) / 3600 = hour := by omega
  have h2 : (hour * 3600 + minute * 60 + second) / 60 % 60 = minute := by omega
  have h3 : (hour * 3600 + minute * 60 + second) % 60 = second := by omega
  simp only [Instant.ofLocal?, day, night, rest, h1, h2, h3, if_false, Option.bind_some, Instant.ofParts?, valid,
    dif_pos]

/-- A leap second is read as one only where it is written as second 60. -/
theorem clock?_of_instant (t : Instant) :
    clock? t.date t.hour t.minute (t.second + t.nano / 1000000000) (t.nano % 1000000000) 0 = some t.asWritten := by
  obtain ⟨date, hour, minute, second, nano, valid⟩ := t
  have bounds := valid
  simp only [isTimeOfDay, Bool.and_eq_true, decide_eq_true_eq] at bounds
  by_cases plain : nano < 1000000000
  · have h1 : nano / 1000000000 = 0 := by omega
    have h2 : nano % 1000000000 = nano := by omega
    have inside : hour < 24 ∧ minute < 60 ∧ second ≤ 60 ∧ (-86400 : Int) < 0 ∧ (0 : Int) < 86400 := by
      omega
    have early : second ≠ 60 := by omega
    simp only [clock?, h1, h2, Nat.add_zero, if_pos inside, if_neg early, ofLocal?_utc valid]
    rw [Instant.asWritten, dif_pos (.inl plain)]
  · have h1 : nano / 1000000000 = 1 := by omega
    have inside : hour < 24 ∧ minute < 60 ∧ second + 1 ≤ 60 ∧ (-86400 : Int) < 0 ∧ (0 : Int) < 86400 := by
      omega
    by_cases last : second = 59
    · have h2 : nano % 1000000000 + 1000000000 = nano := by omega
      subst last
      simp only [clock?, h1, h2, if_pos inside, if_true, ofLocal?_utc valid]
      rw [Instant.asWritten, dif_pos (.inr rfl)]
    · have h2 : nano % 1000000000 = nano - 1000000000 := by omega
      have early : second + 1 ≠ 60 := by omega
      have leap : ¬(⟨date, hour, minute, second, nano, valid⟩ : Instant).Expressible := not_or.mpr ⟨plain, last⟩
      simp only [clock?, h1, h2, if_pos inside, if_neg early, ofLocal?_utc (Instant.isTimeOfDay_next valid last)]
      rw [Instant.asWritten, dif_neg leap]

theorem ofChars?_chars (t : Instant) : ofChars? (chars t) = some t.asWritten := by
  have date := t.date.valid
  have time := t.valid
  simp only [isDate, Bool.and_eq_true, decide_eq_true_eq] at date
  simp only [isTimeOfDay, Bool.and_eq_true, decide_eq_true_eq] at time
  have month : t.date.month < 100 := by omega
  have hour : t.hour < 100 := by omega
  have minute : t.minute < 100 := by omega
  have day : t.date.day < 100 := by
    have longest : daysInMonth t.date.year t.date.month ≤ 31 := by
      unfold daysInMonth
      split
      · split <;> omega
      · split <;> omega
    omega
  have second : t.second + t.nano / 1000000000 < 100 := by omega
  have valid : Date.ofParts? t.date.year t.date.month t.date.day = some t.date := by
    rw [Date.ofParts?, dif_pos t.date.valid]
  have nano := fraction?_fraction (show t.nano % 1000000000 < 1000000000 by omega)
    (stops_cons (c := 'Z') (by decide) []) (by decide)
  have shape : chars t = year t.date.year ++ ('-' :: (padded 2 t.date.month ++
      ('-' :: (padded 2 t.date.day ++ ('T' :: (padded 2 t.hour ++ (':' :: (padded 2 t.minute ++
      (':' :: (padded 2 (t.second + t.nano / 1000000000) ++
      (fraction (t.nano % 1000000000) ++ ['Z']))))))))))) := by
    simp only [chars, List.append_assoc, List.cons_append]
  have utc : offset? (dropBlanks ['Z']) = some (0, []) := by decide
  have dash : isBlank '-' = false := by decide
  have colon : isBlank ':' = false := by decide
  -- Each reader in turn takes its part; a simplification of the whole chain would go through every rest of it.
  rw [shape, ofChars?, year?_year _ (stops_cons (by decide) _)]
  dsimp only [Option.bind_eq_bind, Option.bind_some]
  rw [mark?_cons dash, Option.bind_some, twoDigits?_padded month]
  dsimp only [Option.bind_some]
  rw [mark?_cons dash, Option.bind_some, twoDigits?_padded day]
  dsimp only [Option.bind_some]
  rw [valid, Option.bind_some, List.head?_cons, Option.bind_some, if_neg (by decide), List.drop_succ_cons,
    List.drop_zero, twoDigits?_padded hour]
  dsimp only [Option.bind_some]
  rw [mark?_cons colon, Option.bind_some, twoDigits?_padded minute]
  dsimp only [Option.bind_some]
  rw [mark?_cons colon, Option.bind_some, twoDigits?_padded second]
  dsimp only [Option.bind_some]
  rw [nano]
  dsimp only [Option.bind_some]
  rw [utc]
  exact clock?_of_instant t

end Workboard.Rfc3339

namespace Workboard.Instant

variable {t : Instant}

@[simp] theorem ofText?_toText (t : Instant) : ofText? t.toText = some t.asWritten := by
  rw [ofText?, toText, String.toList_ofList, Rfc3339.ofChars?_chars]

theorem asWritten_of_expressible (own : t.Expressible) : t.asWritten = t := dif_pos own

/-- What a text names has that text as its own. -/
theorem expressible_asWritten (t : Instant) : t.asWritten.Expressible := by
  have bound := t.valid
  simp only [isTimeOfDay, Bool.and_eq_true, decide_eq_true_eq] at bound
  unfold asWritten
  split
  next own => exact own
  next => exact .inl (by dsimp only; omega)

@[simp] theorem asWritten_asWritten (t : Instant) : t.asWritten.asWritten = t.asWritten :=
  asWritten_of_expressible t.expressible_asWritten

theorem asWritten_eq_self_iff : t.asWritten = t ↔ t.Expressible :=
  ⟨fun same => same ▸ t.expressible_asWritten, asWritten_of_expressible⟩

/-- A leap second that ends no minute. -/
def strayLeap : Instant := ⟨⟨2015, 6, 30, rfl⟩, 23, 56, 4, 1333000000, rfl⟩

theorem asWritten_strayLeap : strayLeap.asWritten = ⟨⟨2015, 6, 30, rfl⟩, 23, 56, 5, 333000000, rfl⟩ := by decide

@[simp] theorem toText_asWritten (t : Instant) : t.asWritten.toText = t.toText := by
  unfold asWritten
  split
  next => rfl
  next leap =>
    have bound := t.valid
    simp only [isTimeOfDay, Bool.and_eq_true, decide_eq_true_eq] at bound
    rw [Expressible, not_or] at leap
    have h1 : t.second + 1 + (t.nano - 1000000000) / 1000000000 = t.second + t.nano / 1000000000 := by omega
    have h2 : (t.nano - 1000000000) % 1000000000 = t.nano % 1000000000 := by omega
    simp only [toText, Rfc3339.chars, h1, h2]

end Workboard.Instant
