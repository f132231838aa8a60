import Workboard.Json.Value
import Workboard.Proofs.Json.Value
import Workboard.Proofs.Text.Digits

/-!
Whole numbers are printed as they are read. A number that is written as a whole number of 64 bits is read as that
number, or as zero with its sign; either is printed so that it is read back.
-/

namespace Workboard.Json

/-- The digits of a number as bytes. -/
def numeral (n : Nat) : Bytes := (decimalDigits n).map hexByte

theorem digit_hexByte {d : Nat} (h : d < 10) :
    isDigit (hexByte d) = true ∧ (hexByte d).toNat - 48 = d ∧ (hexByte d = 0x30 → d = 0) := by
  have all : ∀ e : Fin 10, isDigit (hexByte e) = true ∧ (hexByte e).toNat - 48 = e.val ∧
      (hexByte e = 0x30 → e.val = 0) := by
    decide
  exact all ⟨d, h⟩

theorem isDigit_numeral (n : Nat) : ∀ b ∈ numeral n, isDigit b = true := by
  intro b hb
  obtain ⟨d, hd, rfl⟩ := List.mem_map.mp hb
  exact (digit_hexByte (decimalDigits_lt n d hd)).1

theorem digitsOf_numeral (n : Nat) : Number.digitsOf (numeral n) = decimalDigits n := by
  rw [Number.digitsOf, numeral, List.map_map]
  conv_rhs => rw [← List.map_id (decimalDigits n)]
  exact List.map_congr_left fun d hd => (digit_hexByte (decimalDigits_lt n d hd)).2.1

/-- Only zero is written with a zero in front. -/
theorem decimalDigits_head {n : Nat} (pos : 0 < n) : ∃ d ds, decimalDigits n = d :: ds ∧ d ≠ 0 := by
  induction n using decimalDigits.induct with
  | case1 n small => exact ⟨n, [], by rw [decimalDigits, if_pos small], by omega⟩
  | case2 n large ih =>
    obtain ⟨d, ds, front, nonzero⟩ := ih (by omega)
    exact ⟨d, ds ++ [n % 10], by rw [decimalDigits, if_neg large, front, List.cons_append], nonzero⟩

theorem numeral_eq_cons (n : Nat) :
    ∃ b bs, numeral n = b :: bs ∧ isDigit b = true ∧ (b = 0x30 → n = 0 ∧ bs = []) := by
  rcases Nat.eq_zero_or_pos n with rfl | pos
  · exact ⟨0x30, [], by decide +kernel, rfl, fun _ => ⟨rfl, rfl⟩⟩
  · obtain ⟨d, ds, front, nonzero⟩ := decimalDigits_head pos
    have small : d < 10 := decimalDigits_lt n d (front ▸ List.mem_cons_self)
    obtain ⟨digit, -, zero⟩ := digit_hexByte small
    exact ⟨hexByte d, ds.map hexByte, by rw [numeral, front, List.map_cons], digit,
      fun h => absurd (zero h) nonzero⟩

section reading

variable {rest : Bytes}

theorem Closed.head (closed : Closed rest) : rest.takeWhile isDigit = [] ∧ rest.dropWhile isDigit = rest := by
  rcases rest with _ | ⟨b, rest⟩
  · exact ⟨rfl, rfl⟩
  · have other := (closed b rfl).1
    simp [other]

theorem takeWhile_numeral (closed : Closed rest) (n : Nat) : (numeral n ++ rest).takeWhile isDigit = numeral n := by
  rw [List.takeWhile_append_of_pos (isDigit_numeral n), closed.head.1, List.append_nil]

theorem dropWhile_numeral (closed : Closed rest) (n : Nat) : (numeral n ++ rest).dropWhile isDigit = rest := by
  rw [List.dropWhile_append_of_pos (isDigit_numeral n), closed.head.2]

theorem readDigits?_numeral (closed : Closed rest) (n : Nat) :
    readDigits? (numeral n ++ rest) = some (numeral n, rest) := by
  obtain ⟨b, bs, shape, -⟩ := numeral_eq_cons n
  unfold readDigits?
  rw [takeWhile_numeral closed, dropWhile_numeral closed, shape]

theorem readWhole?_numeral (closed : Closed rest) (n : Nat) :
    readWhole? (numeral n ++ rest) = some (numeral n, rest) := by
  obtain ⟨b, bs, shape, -, zero⟩ := numeral_eq_cons n
  have all := readDigits?_numeral closed n
  by_cases leading : b = 0x30
  · obtain ⟨-, rfl⟩ := zero leading
    subst leading
    have stops : (rest.head?.map isDigit).getD false = false := by
      rcases rest with _ | ⟨c, rest⟩
      · rfl
      · exact (closed c rfl).1
    simp [shape, readWhole?, stops]
  · rw [shape, List.cons_append] at all ⊢
    unfold readWhole?
    split
    next h => exact absurd (List.cons.inj h).1 leading
    next => exact all

theorem readFraction?_closed (closed : Closed rest) : readFraction? rest = some ([], rest) := by
  rcases rest with _ | ⟨b, rest⟩
  · rfl
  · have point := (closed b rfl).2.1
    unfold readFraction?
    split
    next h => exact absurd (List.cons.inj h).1 point
    next => rfl

theorem readExponent?_closed (closed : Closed rest) : readExponent? rest = some ([], rest) := by
  rcases rest with _ | ⟨b, rest⟩
  · rfl
  · obtain ⟨-, -, lower, upper⟩ := closed b rfl
    simp [readExponent?, lower, upper]

theorem readUnsigned?_numeral (closed : Closed rest) (n : Nat) :
    readUnsigned? (numeral n ++ rest) = some (numeral n, rest) := by
  simp [readUnsigned?, readWhole?_numeral closed, readFraction?_closed closed, readExponent?_closed closed]

theorem readNumber?_numeral (closed : Closed rest) (n : Nat) :
    readNumber? (numeral n ++ rest) = some (numeral n, rest) := by
  have read := readUnsigned?_numeral closed n
  obtain ⟨b, bs, shape, digit, -⟩ := numeral_eq_cons n
  rw [shape, List.cons_append] at read ⊢
  unfold readNumber?
  split
  next h =>
    rw [(List.cons.inj h).1] at digit
    cases digit
  next => exact read

end reading

namespace Number

/-- Zero with a sign, which is a double. -/
def minusZero : Number := .real 0x8000000000000000

theorem toBytes_int (n : Int) : (int n).toBytes = (if n < 0 then [0x2D] else []) ++ numeral n.natAbs := by
  rw [toBytes, chars, List.map_append, decimal, List.map_map]
  split <;> rfl

theorem toBytes_minusZero : minusZero.toBytes = [0x2D, 0x30, 0x2E, 0x30] := by decide +kernel

theorem legible_int (n : Int) : (int n).Legible := by
  obtain ⟨b, bs, shape, digit, -⟩ := numeral_eq_cons n.natAbs
  constructor
  · rw [toBytes_int]
    split
    · exact ⟨0x2D, numeral n.natAbs, rfl, .inr rfl⟩
    · exact ⟨b, bs, shape, .inl digit⟩
  · intro rest closed
    rw [toBytes_int]
    split
    · have read := readUnsigned?_numeral closed n.natAbs
      rw [List.cons_append, List.nil_append, List.cons_append, readNumber?, read]
      rfl
    · exact readNumber?_numeral closed n.natAbs

theorem legible_minusZero : minusZero.Legible := by
  constructor
  · exact ⟨0x2D, _, toBytes_minusZero, .inr rfl⟩
  · intro rest closed
    have zero : (0x30 :: rest).takeWhile isDigit = [0x30] ∧ (0x30 :: rest).dropWhile isDigit = rest := by
      have digit : isDigit 0x30 = true := by decide
      simp [digit, closed.head]
    have point : isDigit 0x2E = false := by decide
    rw [toBytes_minusZero]
    simp [readNumber?, readUnsigned?, readWhole?, point, readFraction?, readDigits?, zero,
      readExponent?_closed closed]

/-- What a whole number is read as. -/
inductive Whole : Number → Prop
  | int {n : Int} (low : -(Width.count 63 : Int) ≤ n) (high : n ≤ limit) : Whole (.int n)
  | minusZero : Whole minusZero

theorem Whole.legible {n : Number} (whole : n.Whole) : n.Legible := by
  cases whole with
  | int => exact legible_int _
  | minusZero => exact legible_minusZero

theorem le_ofDigits (acc : Nat) (ds : List Nat) : acc ≤ ofDigits 10 acc ds := by
  induction ds generalizing acc with
  | nil => exact Nat.le_refl acc
  | cons d ds ih =>
    have more : acc ≤ acc * 10 + d := by omega
    exact Nat.le_trans more (ih _)

/-- Digits of a number that fits are all taken in. -/
theorem absorb_of_fits {acc : Nat} {ds : List Nat} (fits : ofDigits 10 acc ds ≤ limit) :
    absorb acc ds = (ofDigits 10 acc ds, []) := by
  induction ds generalizing acc with
  | nil => rfl
  | cons d ds ih =>
    have first : acc * 10 + d ≤ limit := Nat.le_trans (le_ofDigits _ ds) fits
    rw [absorb, if_pos first]
    exact ih fits

theorem real?_zero {ds : List Nat} (zero : ofDigits 10 0 ds = 0) : real? true ds [] none = some minusZero := by
  have taken : absorb 0 ds = (0, []) := by
    have fits : ofDigits 10 0 ds ≤ limit := by
      rw [zero]
      exact Nat.zero_le limit
    rw [absorb_of_fits fits, zero]
  have sum : scaled? true 0 0 = some minusZero := by decide +kernel
  rw [real?, taken]
  exact sum

theorem whole_of_whole? {negative : Bool} {ds : List Nat}
    (fits : ofDigits 10 0 ds ≤ if negative then Width.count 63 else limit) :
    ∃ n, whole? negative ds = some n ∧ n.Whole := by
  unfold whole?
  cases negative with
  | true =>
    by_cases pos : 0 < ofDigits 10 0 ds
    · refine ⟨_, by simp only [if_true]; exact if_pos ⟨pos, fits⟩, .int ?_ ?_⟩
      · exact Int.neg_le_neg (Int.ofNat_le.mpr fits)
      · omega
    · refine ⟨minusZero, ?_, .minusZero⟩
      simp only [if_true]
      rw [if_neg fun h => pos h.1]
      exact real?_zero (by omega)
  | false =>
    refine ⟨_, by simp only [Bool.false_eq_true, if_false]; exact if_pos fits, .int ?_ ?_⟩
    · omega
    · exact Int.ofNat_le.mpr fits

/-- Bytes that are digits are taken for the whole part, and nothing follows it. -/
theorem ofWritten?_of_digits {w unsigned : Bytes} (sign : (if w.head? == some 0x2D then w.drop 1 else w) = unsigned)
    (digits : unsigned.all isDigit = true) :
    ofWritten? w = whole? (w.head? == some 0x2D) (digitsOf unsigned) := by
  have all := List.all_eq_true.mp digits
  have taken : unsigned.takeWhile isDigit = unsigned := by
    simpa using @List.takeWhile_append_of_pos _ isDigit unsigned [] all
  have left : unsigned.dropWhile isDigit = [] := by
    simpa using @List.dropWhile_append_of_pos _ isDigit unsigned [] all
  simp only [ofWritten?, sign, taken, left]
  rfl

theorem whole_of_isWhole {w : Bytes} (whole : isWhole w = true) : ∃ n, ofWritten? w = some n ∧ n.Whole := by
  obtain ⟨digits, fits⟩ := Bool.and_eq_true_iff.mp whole
  rw [ofWritten?_of_digits rfl digits]
  exact whole_of_whole? (by simpa using fits)

theorem ofWritten?_int {n : Int} (low : -(Width.count 63 : Int) ≤ n) (high : n ≤ limit) :
    ofWritten? (int n).toBytes = some (int n) := by
  obtain ⟨b, bs, shape, digit, -⟩ := numeral_eq_cons n.natAbs
  have digits : (numeral n.natAbs).all isDigit = true := List.all_eq_true.mpr (isDigit_numeral _)
  have value : ofDigits 10 0 (digitsOf (numeral n.natAbs)) = n.natAbs := by
    rw [digitsOf_numeral, ofDigits_decimalDigits]
  rw [toBytes_int]
  by_cases negative : n < 0
  · have sign : (if ([0x2D] ++ numeral n.natAbs).head? == some 0x2D then ([0x2D] ++ numeral n.natAbs).drop 1
        else [0x2D] ++ numeral n.natAbs) = numeral n.natAbs := by simp
    rw [if_pos negative, ofWritten?_of_digits sign digits]
    have back : -((n.natAbs : Nat) : Int) = n := by omega
    have fits : 0 < n.natAbs ∧ n.natAbs ≤ Width.count 63 := by omega
    generalize n.natAbs = k at value back fits ⊢
    simp [whole?, value, fits, back]
  · have unsigned : (b == (0x2D : UInt8)) = false := by
      rw [beq_eq_false_iff_ne]
      rintro rfl
      cases digit
    have plain : ((numeral n.natAbs).head? == some 0x2D) = false := by
      rw [shape]
      exact unsigned
    rw [if_neg negative, List.nil_append, ofWritten?_of_digits (by rw [plain]; rfl) digits, plain]
    have back : ((n.natAbs : Nat) : Int) = n := by omega
    have fits : n.natAbs ≤ limit := by omega
    simp [whole?, value, fits, back]

theorem Whole.ofWritten? {n : Number} (whole : n.Whole) : Number.ofWritten? n.toBytes = some n := by
  cases whole with
  | int low high => exact ofWritten?_int low high
  | minusZero =>
    have read : Number.ofWritten? [0x2D, 0x30, 0x2E, 0x30] = some Number.minusZero := by decide +kernel
    rw [toBytes_minusZero, read]

end Number

end Workboard.Json
