import Workboard.Width

/-!
Spans of time: whole seconds of 64 binary digits, and the nanoseconds of one more that is not whole.
-/

namespace Workboard

structure Span where
  seconds : UInt64
  nanos : UInt32
  valid : nanos < 1000000000
  deriving DecidableEq

namespace Span

def longest : Span := ⟨0xFFFFFFFFFFFFFFFF, 999999999, by decide⟩

def ofMillis (ms : UInt64) : Span :=
  ⟨ms / 1000, (ms % 1000).toUInt32 * 1000000, by
    rw [UInt32.lt_iff_toNat_lt, UInt32.toNat_mul, UInt64.toNat_toUInt32, UInt64.toNat_mod]
    have below : ms.toNat % 1000 < 1000 := Nat.mod_lt _ (by decide)
    exact Nat.lt_of_le_of_lt (Nat.mod_le _ _) (by simp; omega)⟩

def toNanos (s : Span) : Nat := s.seconds.toNat * 1000000000 + s.nanos.toNat

/-- Whole milliseconds. -/
def toMillis (s : Span) : Nat := s.seconds.toNat * 1000 + s.nanos.toNat / 1000000

/-- So many spans after each other, if their seconds fit. The nanoseconds of all of them fit 64 binary digits. -/
def times? (s : Span) (n : UInt32) : Option Span := do
  let parts := s.nanos.toUInt64 * n.toUInt64
  let whole ← Width.product? s.seconds n.toUInt64
  let seconds ← Width.sum? whole (parts / 1000000000)
  some ⟨seconds, (parts % 1000000000).toUInt32, by
    rw [UInt32.lt_iff_toNat_lt, UInt64.toNat_toUInt32, UInt64.toNat_mod]
    show parts.toNat % 1000000000 % 4294967296 < 1000000000
    omega⟩

/-- So many spans after each other, or the longest one. -/
def times (s : Span) (n : UInt32) : Span := (s.times? n).getD longest

def le (a b : Span) : Bool := a.seconds < b.seconds || (a.seconds == b.seconds && a.nanos ≤ b.nanos)

def shorter (a b : Span) : Span := if a.le b then a else b

end Span

end Workboard
