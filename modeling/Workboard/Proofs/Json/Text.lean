import Workboard.Json.Text

/-!
The body that is written for a text is a string body of JSON, and stands for the text.
-/

namespace Workboard.Json

/-- A byte is written as it is, with a short escape, or with the number of its code point. -/
inductive Escaped (b : UInt8) : Bytes → Prop
  | plain : 0x20 ≤ b → b ≠ 0x22 → b ≠ 0x5C → Escaped b [b]
  | short {e : UInt8} : e ≠ 0x75 → isShortEscape e = true → shortEscape? e = some b →
      Escaped b [0x5C, e]
  | unit {x y : UInt8} : isHexDigit x = true → isHexDigit y = true →
      hexUnit? 0x30 0x30 x y = some b.toNat → codePoint b.toNat = [b] → b.toNat < 0x20 →
      Escaped b [0x5C, 0x75, 0x30, 0x30, x, y]

theorem control_unit : ∀ n : Fin 32,
    isHexDigit (hexByte (n / 16)) = true ∧ isHexDigit (hexByte (n % 16)) = true ∧
      hexUnit? 0x30 0x30 (hexByte (n / 16)) (hexByte (n % 16)) = some n.val ∧
      codePoint n.val = [UInt8.ofNat n.val] := by
  decide +kernel

theorem escaped_escapeByte (b : UInt8) : Escaped b (escapeByte b) := by
  by_cases quote : b = 0x22
  · subst quote
    exact .short (by decide) (by decide) (by decide)
  by_cases slash : b = 0x5C
  · subst slash
    exact .short (by decide) (by decide) (by decide)
  by_cases low : b < 0x20
  · have small : b.toNat < 32 := low
    obtain ⟨hx, hy, value, point⟩ := control_unit ⟨b.toNat, small⟩
    have unit := Escaped.unit hx hy value (by simpa using point) small
    simp only [escapeByte, low, quote, slash, beq_iff_eq, if_true, if_false]
    split
    next h => exact .short (by decide) (by decide) (by rw [h]; decide)
    split
    next h => exact .short (by decide) (by decide) (by rw [h]; decide)
    split
    next h => exact .short (by decide) (by decide) (by rw [h]; decide)
    split
    next h => exact .short (by decide) (by decide) (by rw [h]; decide)
    split
    next h => exact .short (by decide) (by decide) (by rw [h]; decide)
    exact unit
  · have above {c : UInt8} (h : c < 0x20) : b ≠ c := fun e => low (e ▸ h)
    have self : escapeByte b = [b] := by
      simp [escapeByte, quote, slash, low, above (c := 0x08) (by decide), above (c := 0x09) (by decide),
        above (c := 0x0A) (by decide), above (c := 0x0C) (by decide), above (c := 0x0D) (by decide)]
    rw [self]
    exact .plain (UInt8.not_lt.mp low) quote slash

theorem escape_cons (b : UInt8) (bs : Bytes) : escape (b :: bs) = escapeByte b ++ escape bs := rfl

theorem readString?_escape (bs rest : Bytes) :
    readString? (escape bs ++ 0x22 :: rest) = some (escape bs, rest) := by
  induction bs with
  | nil => rfl
  | cons b bs ih =>
    have spelled := escaped_escapeByte b
    rw [escape_cons]
    generalize escapeByte b = body at spelled ⊢
    cases spelled with
    | plain printable quote slash =>
      have low : ¬ b < 0x20 := UInt8.not_lt.mpr printable
      simp [readString?, slash, low, ih]
    | short notUnit letter value =>
      simp [readString?, notUnit, letter, ih]
    | unit hx hy value point small =>
      have zero : isHexDigit 0x30 = true := by decide
      simp [readString?, zero, hx, hy, ih]

theorem isHighSurrogate_of_lt {n : Nat} (h : n < 0xD800) : isHighSurrogate n = false := by
  simp [isHighSurrogate]
  omega

theorem isLowSurrogate_of_lt {n : Nat} (h : n < 0xD800) : isLowSurrogate n = false := by
  simp [isLowSurrogate]
  omega

/-- A unit that is no surrogate stands for itself, whatever is written behind it. -/
theorem unescape?_unit {a b c d : UInt8} {n : Nat} (value : hexUnit? a b c d = some n)
    (small : n < 0xD800) (bs : Bytes) :
    unescape? (0x5C :: 0x75 :: a :: b :: c :: d :: escape bs) =
      (unescape? (escape bs)).map (codePoint n ++ ·) := by
  have high := isHighSurrogate_of_lt small
  have low := isLowSurrogate_of_lt small
  rcases bs with _ | ⟨x, bs⟩
  · simp [escape, unescape?, value, high, low]
  · have spelled := escaped_escapeByte x
    rw [escape_cons]
    generalize escapeByte x = body at spelled ⊢
    cases spelled with
    | plain printable quote slash => simp [unescape?, value, high, low, slash]
    | short notUnit letter escaped => simp [unescape?, value, high, low, notUnit]
    | unit hx hy next point below => simp [unescape?, value, high, low, next]

theorem unescape?_escape (bs : Bytes) : unescape? (escape bs) = some bs := by
  induction bs with
  | nil => rfl
  | cons b bs ih =>
    have spelled := escaped_escapeByte b
    rw [escape_cons]
    generalize escapeByte b = body at spelled ⊢
    cases spelled with
    | plain printable quote slash => simp [unescape?, slash, ih]
    | short notUnit letter value => simp [unescape?, notUnit, value, ih]
    | unit hx hy value point small =>
      have same := unescape?_unit value (by omega) bs
      simpa [ih, point] using same

@[simp] theorem textOfBody?_escape (s : String) : textOfBody? (escape (Bytes.ofText s)) = some s := by
  rw [textOfBody?, unescape?_escape, Option.bind_some, Bytes.text?_ofText]

end Workboard.Json
