import Mathlib.Algebra.Group.Nat.Defs
import Mathlib.Algebra.GroupWithZero.Nat
import Workboard.Time.Span

/-!
Spans are calculated with and compared as their nanoseconds are. Only what exceeds the longest span is cut down to it.
-/

namespace Workboard

namespace Width

theorem count_eq : count 32 = 4294967296 ∧ count 64 = 18446744073709551616 := by decide

/-- A product is given exactly if it fits, and then it is that of the numbers. -/
theorem product?_eq (a b : UInt64) : (∃ c, product? a b = some c ∧ c.toNat = a.toNat * b.toNat) ∨
    (product? a b = none ∧ count 64 ≤ a.toNat * b.toNat) := by
  have whole := count_eq.2
  by_cases fit : fits 64 (a.toNat * b.toNat) = true
  · refine .inl ⟨a * b, if_pos fit, ?_⟩
    have below : a.toNat * b.toNat < 2 ^ 64 := by simpa [fits, whole] using fit
    rw [UInt64.toNat_mul, Nat.mod_eq_of_lt below]
  · exact .inr ⟨if_neg fit, by simpa [fits] using fit⟩

theorem sum?_eq (a b : UInt64) : (∃ c, sum? a b = some c ∧ c.toNat = a.toNat + b.toNat) ∨
    (sum? a b = none ∧ count 64 ≤ a.toNat + b.toNat) := by
  have whole := count_eq.2
  by_cases fit : fits 64 (a.toNat + b.toNat) = true
  · refine .inl ⟨a + b, if_pos fit, ?_⟩
    have below : a.toNat + b.toNat < 2 ^ 64 := by simpa [fits, whole] using fit
    rw [UInt64.toNat_add, Nat.mod_eq_of_lt below]
  · exact .inr ⟨if_neg fit, by simpa [fits] using fit⟩

theorem next?_of_lt {n : UInt32} (below : n.toNat + 1 < count 32) : ∃ m, next? n = some m ∧ m.toNat = n.toNat + 1 := by
  refine ⟨n + 1, if_pos (by simpa [fits] using below), ?_⟩
  rw [count_eq.1] at below
  rw [UInt32.toNat_add]
  exact Nat.mod_eq_of_lt below

/-- One is moved to the left by doubling it as often. -/
theorem shifted?_one (places : UInt32) (inside : places.toNat < 32) :
    ∃ m, shifted? 1 places = some m ∧ m.toNat = 2 ^ places.toNat := by
  refine ⟨1 <<< places, if_pos (UInt32.lt_iff_toNat_lt.mpr inside), ?_⟩
  have below : 2 ^ places.toNat < 2 ^ 32 := Nat.pow_lt_pow_right (by decide) inside
  rw [UInt32.toNat_shiftLeft, Nat.mod_eq_of_lt inside, UInt32.toNat_one, Nat.one_shiftLeft, Nat.mod_eq_of_lt below]

end Width

namespace Span

theorem nanos_lt (s : Span) : s.nanos.toNat < 1000000000 := UInt32.lt_iff_toNat_lt.mp s.valid

theorem toNanos_longest : longest.toNanos = Width.count 64 * 1000000000 - 1 := by decide

theorem toNanos_le_longest (s : Span) : s.toNanos ≤ longest.toNanos := by
  have seconds := s.seconds.toNat_lt
  have nanos := s.nanos_lt
  rw [toNanos_longest, Width.count_eq.2, toNanos]
  omega

theorem le_iff {a b : Span} : a.le b = true ↔ a.toNanos ≤ b.toNanos := by
  have first := a.nanos_lt
  have second := b.nanos_lt
  simp only [le, toNanos, Bool.or_eq_true, Bool.and_eq_true, decide_eq_true_eq, beq_iff_eq, UInt64.lt_iff_toNat_lt,
    UInt32.le_iff_toNat_le, ← UInt64.toNat_inj]
  omega

theorem toNanos_shorter (a b : Span) : (a.shorter b).toNanos = min a.toNanos b.toNanos := by
  unfold shorter
  split
  next least => exact (Nat.min_eq_left (le_iff.mp least)).symm
  next longer => exact (Nat.min_eq_right (Nat.le_of_not_le fun le => longer (le_iff.mpr le))).symm

theorem toNat_parts (s : Span) (n : UInt32) : (s.nanos.toUInt64 * n.toUInt64).toNat = s.nanos.toNat * n.toNat := by
  have below : s.nanos.toNat * n.toNat < 1000000000 * 2 ^ 32 := Nat.mul_lt_mul'' s.nanos_lt n.toNat_lt
  rw [UInt64.toNat_mul, UInt32.toNat_toUInt64, UInt32.toNat_toUInt64, Nat.mod_eq_of_lt (by omega)]

/-- Seconds and nanoseconds are multiplied apart; whole seconds of the nanoseconds are carried. -/
theorem toNanos_mul (s : Span) (n : UInt32) : s.toNanos * n.toNat =
    (s.seconds.toNat * n.toNat + s.nanos.toNat * n.toNat / 1000000000) * 1000000000 +
      s.nanos.toNat * n.toNat % 1000000000 := by
  rw [toNanos, Nat.add_mul, Nat.mul_right_comm]
  omega

theorem times?_eq (s : Span) (n : UInt32) : (∃ t, s.times? n = some t ∧ t.toNanos = s.toNanos * n.toNat) ∨
    (s.times? n = none ∧ longest.toNanos < s.toNanos * n.toNat) := by
  have parts := s.toNat_parts n
  have carried : (s.nanos.toUInt64 * n.toUInt64 / 1000000000).toNat = s.nanos.toNat * n.toNat / 1000000000 := by
    rw [UInt64.toNat_div, parts]
    rfl
  have left : (s.nanos.toUInt64 * n.toUInt64 % 1000000000).toUInt32.toNat = s.nanos.toNat * n.toNat % 1000000000 := by
    rw [UInt64.toNat_toUInt32, UInt64.toNat_mod, parts]
    exact Nat.mod_eq_of_lt (Nat.lt_trans (Nat.mod_lt _ (by decide)) (by decide))
  have whole := Width.count_eq.2
  rw [toNanos_mul, toNanos_longest]
  rcases Width.product?_eq s.seconds n.toUInt64 with ⟨seconds, product, number⟩ | ⟨refused, large⟩
  · rw [UInt32.toNat_toUInt64] at number
    rcases Width.sum?_eq seconds (s.nanos.toUInt64 * n.toUInt64 / 1000000000) with
      ⟨all, sum, total⟩ | ⟨refused, large⟩
    · refine .inl ⟨_, by simp only [times?, product, sum, Option.bind_eq_bind, Option.bind_some]; rfl, ?_⟩
      rw [toNanos, left, total, carried, number]
    · refine .inr ⟨by simp only [times?, product, refused, Option.bind_eq_bind, Option.bind_some, Option.bind_none], ?_⟩
      rw [carried, number] at large
      omega
  · refine .inr ⟨by simp only [times?, refused, Option.bind_eq_bind, Option.bind_none], ?_⟩
    rw [UInt32.toNat_toUInt64] at large
    omega

/-- Spans after each other take as long as all of them, up to the longest span. -/
theorem toNanos_times (s : Span) (n : UInt32) : (s.times n).toNanos = min (s.toNanos * n.toNat) longest.toNanos := by
  unfold times
  rcases s.times?_eq n with ⟨t, made, number⟩ | ⟨none, longer⟩
  · have fits := t.toNanos_le_longest
    rw [made, Option.getD_some, number, Nat.min_eq_left (number ▸ fits)]
  · rw [none, Option.getD_none, Nat.min_eq_right (Nat.le_of_lt longer)]

end Span

end Workboard
