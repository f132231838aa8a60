import Workboard.Time.Instant

/-!
The calendar has a date for each number of a day between those of its first and of its last date, and for no other.
-/

namespace Workboard

/-- The days of an era up to a day, without those that are added to its leap years. -/
def flatDays (d : Nat) : Nat := d - d / 1460 + d / 36524 - d / 146096

/-- The day of an era with which its year `y` begins, in March. -/
def yearStart (y : Nat) : Nat := 365 * y + y / 4 - y / 100

theorem flatDays_le {d e : Nat} (h : d ≤ e) : flatDays d ≤ flatDays e := by
  induction h with
  | refl => exact Nat.le_refl _
  | step _ ih =>
    have next (k : Nat) : flatDays k ≤ flatDays (k + 1) := by
      unfold flatDays
      omega
    exact Nat.le_trans ih (next _)

theorem flatDays_yearStart : ∀ y < 400, 365 * y ≤ flatDays (yearStart y) ∧
    (y = 0 ∨ flatDays (yearStart y - 1) < 365 * y) := by
  decide +kernel

/-- The year of an era in which one of its days lies. -/
def yearOfDay (d : Nat) : Nat := flatDays d / 365

theorem yearOfDay_spec {d : Nat} (inEra : d < 146097) :
    yearOfDay d < 400 ∧ yearStart (yearOfDay d) ≤ d ∧ (yearOfDay d + 1 < 400 → d < yearStart (yearOfDay d + 1)) := by
  have bounded : yearOfDay d < 400 := by
    have most : flatDays d ≤ 145999 := flatDays_le (e := 146096) (Nat.le_of_lt_succ inEra)
    unfold yearOfDay
    omega
  have own : 365 * yearOfDay d ≤ flatDays d ∧ flatDays d < 365 * (yearOfDay d + 1) := by
    unfold yearOfDay
    omega
  refine ⟨bounded, ?_, ?_⟩
  · rcases (flatDays_yearStart _ bounded).2 with zero | before
    · rw [zero]
      exact Nat.zero_le d
    · apply Nat.le_of_not_lt
      intro early
      have less := flatDays_le (Nat.le_sub_one_of_lt early)
      omega
  · intro bounded
    apply Nat.lt_of_not_le
    intro late
    have more := flatDays_le late
    have next := (flatDays_yearStart _ bounded).1
    omega

/-- A year has 366 days only if the one in which it ends is a leap year. -/
theorem yearStart_succ : ∀ y < 399, yearStart (y + 1) ≤ yearStart y + 366 ∧
    (yearStart (y + 1) = yearStart y + 366 → (y + 1) % 4 = 0 ∧ (y + 1) % 100 ≠ 0) := by
  decide +kernel

theorem dayOfYear_spec {d : Nat} (inEra : d < 146097) :
    d - yearStart (yearOfDay d) < 366 ∧ (d - yearStart (yearOfDay d) = 365 →
      (yearOfDay d + 1) % 4 = 0 ∧ ((yearOfDay d + 1) % 100 ≠ 0 ∨ (yearOfDay d + 1) % 400 = 0)) := by
  obtain ⟨bounded, start, next⟩ := yearOfDay_spec inEra
  generalize yearOfDay d = y at bounded start next ⊢
  by_cases final : y + 1 < 400
  · have before := next final
    have long := yearStart_succ y (by omega)
    omega
  · obtain rfl : y = 399 := by omega
    unfold yearStart
    omega

def monthOfDay (d : Nat) : Nat :=
  let shifted := (5 * d + 2) / 153
  if shifted < 10 then shifted + 3 else shifted - 9

def dayOfMonth (d : Nat) : Nat :=
  let shifted := (5 * d + 2) / 153
  d - (153 * shifted + 2) / 5 + 1

/-- Only the last day of a leap year falls on a date that other years do not have. -/
theorem monthOfDay_spec : ∀ d < 366, 1 ≤ monthOfDay d ∧ monthOfDay d ≤ 12 ∧ 1 ≤ dayOfMonth d ∧
    (monthOfDay d ≤ 2 ↔ 306 ≤ d) ∧
    (dayOfMonth d ≤ daysInMonth 1 (monthOfDay d) ∨ d = 365 ∧ monthOfDay d = 2 ∧ dayOfMonth d = 29) := by
  decide +kernel

namespace Date

/-- The first date of the calendar, and the last one. -/
def first : Date := ⟨yearMin, 1, 1, by decide⟩

def last : Date := ⟨yearMax, 12, 31, by decide⟩

theorem ofDayNumber?_eq {n era : Int} {d : Nat} (inEra : d < 146097) (split : n + 719468 = era * 146097 + d) :
    ofDayNumber? n = ofParts?
      (yearOfDay d + era * 400 + if monthOfDay (d - yearStart (yearOfDay d)) ≤ 2 then 1 else 0)
      (monthOfDay (d - yearStart (yearOfDay d))) (dayOfMonth (d - yearStart (yearOfDay d))) := by
  have eraOf : (n + 719468).fdiv 146097 = era := by
    rw [Int.fdiv_eq_ediv_of_nonneg _ (by decide)]
    omega
  have day : n + 719468 - era * 146097 = d := by omega
  obtain ⟨-, start, -⟩ := yearOfDay_spec inEra
  have year : ((d : Int) - d / 1460 + d / 36524 - d / 146096) / 365 = (yearOfDay d : Nat) := by
    unfold yearOfDay flatDays
    omega
  have dayOfYear : (d : Int) - (365 * (yearOfDay d : Nat) + (yearOfDay d : Nat) / 4 - (yearOfDay d : Nat) / 100) =
      (d - yearStart (yearOfDay d) : Nat) := by
    unfold yearStart at start ⊢
    omega
  unfold ofDayNumber?
  simp only [eraOf, day, year, dayOfYear]
  have inYear := (dayOfYear_spec inEra).1
  generalize d - yearStart (yearOfDay d) = k at inYear ⊢
  have shifted : (5 * (k : Int) + 2) / 153 = ((5 * k + 2) / 153 : Nat) := by omega
  have month : (if (5 * (k : Int) + 2) / 153 < 10 then (5 * (k : Int) + 2) / 153 + 3
      else (5 * (k : Int) + 2) / 153 - 9) = (monthOfDay k : Nat) := by
    unfold monthOfDay
    dsimp only
    split <;> split <;> omega
  have ofMonth : (k : Int) - (153 * ((5 * (k : Int) + 2) / 153) + 2) / 5 + 1 = (dayOfMonth k : Nat) := by
    have before : (153 * ((5 * k + 2) / 153) + 2) / 5 ≤ k := by omega
    rw [shifted]
    simp only [dayOfMonth]
    omega
  simp only [month, ofMonth, Int.toNat_natCast]
  congr 2
  split <;> split <;> omega

theorem daysInMonth_common (y : Int) (m : Nat) : daysInMonth 1 m ≤ daysInMonth y m := by
  have short : isLeapYear 1 = false := by decide
  unfold daysInMonth
  rw [short]
  split
  · cases isLeapYear y <;> decide
  · exact Nat.le_refl _

theorem ofParts?_isSome_iff {y : Int} {m d : Nat} : (ofParts? y m d).isSome = true ↔ isDate y m d = true := by
  unfold ofParts?
  split
  next valid => simp [valid]
  next invalid => simp [invalid]

theorem yearStart_le {y z : Nat} (h : y ≤ z) : yearStart y ≤ yearStart z := by
  unfold yearStart
  have four := Nat.div_le_div_right (c := 4) h
  have hundred : z / 100 - y / 100 ≤ z - y := by omega
  omega

/-- The first and the last year are cut off after some days of an era. -/
theorem year_limits {n era : Int} {d y k : Nat} (split : n + 719468 = era * 146097 + d) (bounded : y < 400)
    (day : d = yearStart y + k) (inEra : d < 146097) (next : y + 1 < 400 → d < yearStart (y + 1)) :
    (yearMin ≤ y + era * 400 + (if 306 ≤ k then 1 else 0) ∧
      y + era * 400 + (if 306 ≤ k then 1 else 0) ≤ yearMax) ↔ -96465292 ≤ n ∧ n ≤ 95026236 := by
  have before (z : Nat) (early : y < z) (inside : z < 400) : d < yearStart z :=
    Nat.lt_of_lt_of_le (next (by omega)) (yearStart_le early)
  have behind (z : Nat) (late : z ≤ y) : yearStart z ≤ d := by
    have start := yearStart_le late
    omega
  have low : (y < 256 → d < 93502) ∧ (257 ≤ y → 93867 ≤ d) ∧ (y = 256 → d = 93502 + k) :=
    ⟨fun h => before 256 h (by decide), behind 257, fun h => by rw [day, h]; rfl⟩
  have high : (y < 142 → d < 51864) ∧ (143 ≤ y → 52229 ≤ d) ∧ (y = 142 → d = 51864 + k) :=
    ⟨fun h => before 142 h (by decide), behind 143, fun h => by rw [day, h]; rfl⟩
  rw [yearMin, yearMax]
  split <;> omega

/-- What is made of a day of an era is a date, unless its year is out of bounds. -/
theorem isDate_iff {d : Nat} (inEra : d < 146097) (era : Int) {k : Nat} (ofYear : k = d - yearStart (yearOfDay d))
    {year : Int} (named : year = yearOfDay d + era * 400 + if monthOfDay k ≤ 2 then 1 else 0) :
    isDate year (monthOfDay k) (dayOfMonth k) = true ↔ yearMin ≤ year ∧ year ≤ yearMax := by
  obtain ⟨inYear, leap⟩ := dayOfYear_spec inEra
  rw [← ofYear] at inYear leap
  obtain ⟨low, high, positive, -, fits⟩ := monthOfDay_spec k inYear
  have day : dayOfMonth k ≤ daysInMonth year (monthOfDay k) := by
    rcases fits with common | ⟨last, february, day⟩
    · exact Nat.le_trans common (daysInMonth_common year _)
    · obtain ⟨four, hundred⟩ := leap last
      have long : isLeapYear year = true := by
        rw [february, if_pos (Nat.le_refl 2)] at named
        simp only [isLeapYear, Bool.and_eq_true, Bool.or_eq_true, beq_iff_eq, bne_iff_ne]
        omega
      have days : daysInMonth year (monthOfDay k) = 29 := by rw [february, daysInMonth, if_pos rfl, if_pos long]
      exact Nat.le_of_eq (day.trans days.symm)
  simp [isDate, low, high, positive, day]

theorem dayNumber_limits : first.dayNumber = -96465292 ∧ last.dayNumber = 95026236 := by decide +kernel

theorem exists_era (n : Int) : ∃ (era : Int) (d : Nat), d < 146097 ∧ n + 719468 = era * 146097 + d :=
  ⟨(n + 719468) / 146097, ((n + 719468) % 146097).toNat, by omega, by omega⟩

/-- There is a date for a number exactly if it lies between those of the first and of the last date. -/
theorem ofDayNumber?_isSome_iff (n : Int) :
    (ofDayNumber? n).isSome = true ↔ first.dayNumber ≤ n ∧ n ≤ last.dayNumber := by
  obtain ⟨era, d, inEra, split⟩ := exists_era n
  obtain ⟨bounded, start, next⟩ := yearOfDay_spec inEra
  obtain ⟨-, -, -, autumn, -⟩ := monthOfDay_spec _ (dayOfYear_spec inEra).1
  rw [ofDayNumber?_eq inEra split, ofParts?_isSome_iff, isDate_iff inEra era rfl rfl, dayNumber_limits.1,
    dayNumber_limits.2]
  simp only [autumn]
  exact year_limits split bounded (by omega) inEra next

theorem fields_of_ofParts? {y : Int} {m d : Nat} {date : Date} (made : ofParts? y m d = some date) :
    date.year = y ∧ date.month = m ∧ date.day = d := by
  unfold ofParts? at made
  split at made
  next =>
    cases made
    exact ⟨rfl, rfl, rfl⟩
  next => cases made

/-- The months, counted from March, begin where their days say. -/
theorem dayOfYear_of_month : ∀ k < 366, (153 * ((monthOfDay k + 9) % 12) + 2) / 5 + dayOfMonth k = k + 1 := by
  decide +kernel

/-- A date has the number from which it was made. -/
theorem dayNumber_of_ofDayNumber? {n : Int} {date : Date} (made : ofDayNumber? n = some date) :
    date.dayNumber = n := by
  obtain ⟨era, d, inEra, split⟩ := exists_era n
  obtain ⟨bounded, start, -⟩ := yearOfDay_spec inEra
  rw [ofDayNumber?_eq inEra split] at made
  have inYear := (dayOfYear_spec inEra).1
  have ofYear : d = yearStart (yearOfDay d) + (d - yearStart (yearOfDay d)) := by omega
  generalize d - yearStart (yearOfDay d) = k at made inYear ofYear
  generalize yearOfDay d = y at made bounded ofYear
  obtain ⟨year, month, day⟩ := fields_of_ofParts? made
  have months := dayOfYear_of_month k inYear
  have marchYear : (if date.month ≤ 2 then date.year - 1 else date.year) = y + era * 400 := by
    rw [month, year]
    split <;> omega
  have eraOf : ((y : Int) + era * 400).fdiv 400 = era := by
    rw [Int.fdiv_eq_ediv_of_nonneg _ (by decide)]
    omega
  have dayOfYear : (153 * (((date.month : Int) + 9) % 12) + 2) / 5 + date.day - 1 = k := by
    have shifted : ((monthOfDay k : Int) + 9) % 12 = ((monthOfDay k + 9) % 12 : Nat) := by omega
    rw [month, day, shifted]
    omega
  unfold dayNumber
  simp only [marchYear, eraOf, dayOfYear, Int.add_sub_cancel]
  unfold yearStart at ofYear
  omega

end Date

namespace Instant

theorem isTimeOfDay_ofSeconds {s nano : Nat} (inDay : s < 86400) (inSecond : nano < 1000000000) :
    isTimeOfDay (s / 3600) (s / 60 % 60) (s % 60) nano = true := by
  simp only [isTimeOfDay, Bool.and_eq_true, decide_eq_true_eq]
  omega

/-- Every nanosecond of a day of the calendar is an instant. -/
theorem ofUnixNanos?_isSome_iff (n : Int) :
    (ofUnixNanos? n).isSome = true ↔ Date.first.dayNumber ≤ (n.fdiv 1000000000).fdiv 86400 ∧
      (n.fdiv 1000000000).fdiv 86400 ≤ Date.last.dayNumber := by
  rw [← Date.ofDayNumber?_isSome_iff]
  have inDay : (n.fdiv 1000000000 - (n.fdiv 1000000000).fdiv 86400 * 86400).toNat < 86400 := by
    rw [Int.fdiv_eq_ediv_of_nonneg (n.fdiv 1000000000) (by decide)]
    omega
  have inSecond : (n - n.fdiv 1000000000 * 1000000000).toNat < 1000000000 := by
    rw [Int.fdiv_eq_ediv_of_nonneg _ (by decide)]
    omega
  have time := isTimeOfDay_ofSeconds inDay inSecond
  unfold ofUnixNanos?
  dsimp only
  cases Date.ofDayNumber? ((n.fdiv 1000000000).fdiv 86400) with
  | none => exact Iff.rfl
  | some date => simp only [Option.bind_eq_bind, Option.bind_some, ofParts?, dif_pos time, Option.isSome_some]

theorem fields_of_ofUnixNanos? {n : Int} {t : Instant} (made : ofUnixNanos? n = some t) :
    Date.ofDayNumber? ((n.fdiv 1000000000).fdiv 86400) = some t.date ∧
      t.secondOfDay = (n.fdiv 1000000000 - (n.fdiv 1000000000).fdiv 86400 * 86400).toNat ∧
      t.nano = (n - n.fdiv 1000000000 * 1000000000).toNat := by
  obtain ⟨date, day, made⟩ := Option.bind_eq_some_iff.mp made
  simp only [ofParts?] at made
  split at made
  next =>
    cases made
    refine ⟨day, ?_, rfl⟩
    simp only [secondOfDay]
    omega
  next => cases made

variable {n : Int} {t : Instant}

/-- No instant that is counted from the start of 1970 lies in a leap second. -/
theorem nano_of_ofUnixNanos? (made : ofUnixNanos? n = some t) : t.nano < 1000000000 := by
  obtain ⟨-, -, nano⟩ := fields_of_ofUnixNanos? made
  rw [nano, Int.fdiv_eq_ediv_of_nonneg _ (by decide)]
  omega

theorem unixSeconds_of_ofUnixNanos? (made : ofUnixNanos? n = some t) : t.unixSeconds = n.fdiv 1000000000 := by
  obtain ⟨day, second, -⟩ := fields_of_ofUnixNanos? made
  rw [unixSeconds, second, Date.dayNumber_of_ofDayNumber? day,
    Int.fdiv_eq_ediv_of_nonneg (n.fdiv 1000000000) (by decide)]
  omega

end Instant

end Workboard

/-!
Instants are ordered: their comparison is transitive and oriented.
-/

namespace Workboard.Instant

instance : Std.TransCmp Instant.compare :=
  inferInstanceAs (Std.TransCmp (compareLex (compareOn fun t : Instant => t.date.year)
    (compareLex (compareOn fun t => t.date.month) (compareLex (compareOn fun t => t.date.day)
      (compareLex (compareOn secondOfDay) (compareOn fun t => t.nano))))))

theorem le_iff {a b : Instant} : a.le b = true ↔ (a.compare b).isLE = true := by
  unfold le
  cases a.compare b <;> decide

@[simp] theorem compare_self (a : Instant) : a.compare a = .eq := Std.ReflCmp.compare_self

theorem compare_swap (a b : Instant) : (a.compare b).swap = b.compare a :=
  Std.OrientedCmp.eq_swap.symm

theorem le_refl (a : Instant) : a.le a = true := by
  rw [le_iff, compare_self]
  rfl

theorem le_trans {a b c : Instant} (hab : a.le b = true) (hbc : b.le c = true) : a.le c = true :=
  le_iff.mpr (Std.TransCmp.isLE_trans (le_iff.mp hab) (le_iff.mp hbc))

theorem not_le_of_lt {a b : Instant} (h : a.compare b = .lt) : ¬ b.le a = true := by
  rw [le_iff, ← compare_swap, h]
  decide

theorem le_total (a b : Instant) : (a.le b || b.le a) = true := by
  rw [Bool.or_eq_true, le_iff, le_iff, ← compare_swap a b]
  cases a.compare b <;> decide

/-- A time of day is read off the seconds since midnight, so that equal comparison is equality. -/
theorem eq_of_compare_eq {a b : Instant} (h : a.compare b = .eq) : a = b := by
  simp only [compare, Ordering.then_eq_eq, Std.LawfulEqOrd.compare_eq_iff_eq] at h
  obtain ⟨year, month, day, seconds, nano⟩ := h
  have ha := a.valid
  have hb := b.valid
  simp only [isTimeOfDay, Bool.and_eq_true, decide_eq_true_eq] at ha hb
  simp only [secondOfDay] at seconds
  have hour : a.hour = b.hour := by omega
  have minute : a.minute = b.minute := by omega
  have second : a.second = b.second := by omega
  obtain ⟨⟨_, _, _, _⟩, _, _, _, _, _⟩ := a
  obtain ⟨⟨_, _, _, _⟩, _, _, _, _, _⟩ := b
  simp_all

end Workboard.Instant
