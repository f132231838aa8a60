import Workboard.Text.Basic
import Workboard.Width

/-!
The shortest decimal that reads back as a given double: the fewest digits inside the interval of
reals that round to it, and of those the nearest to it.
-/

namespace Workboard.Decimal

/-- A positive double as `mantissa · 2 ^ exponent`. -/
structure Dyadic where
  mantissa : Nat
  exponent : Int

/-- The magnitude of the double with these bits, for finite ones. -/
def Dyadic.ofBits (bits : UInt64) : Dyadic :=
  let fraction : Nat := bits.toNat % Width.count 52
  let biased : Nat := bits.toNat / Width.count 52 % 2048
  if biased = 0 then ⟨fraction, -1074⟩ else ⟨Width.count 52 + fraction, (biased : Int) - 1075⟩

/-- The reals that round to a double, as multiples of a quarter of its unit: `low` to `high` around
`four`, with the ends exactly when the mantissa is even. -/
structure Interval where
  low : Nat
  four : Nat
  high : Nat
  closed : Bool

def Dyadic.interval (d : Dyadic) : Interval :=
  let narrow := d.mantissa = Width.count 52 ∧ d.exponent > -1074
  ⟨4 * d.mantissa - (if narrow then 1 else 2), 4 * d.mantissa, 4 * d.mantissa + 2,
    d.mantissa % 2 = 0⟩

/-- The two factors that put `quarter · 2 ^ exponent` and `n · 10 ^ k` on one scale. -/
def scale (exponent k : Int) : Nat × Nat :=
  (Nat.pow 2 (exponent - 2).toNat * Nat.pow 10 (-k).toNat,
    Nat.pow 2 (2 - exponent).toNat * Nat.pow 10 k.toNat)

/-- Whether `n · 10 ^ k` rounds to the double, on a common scale. -/
def Interval.has (i : Interval) (a b n : Nat) : Bool :=
  if i.closed then i.low * a ≤ n * b && n * b ≤ i.high * a
  else i.low * a < n * b && n * b < i.high * a

/-- The multiple of `10 ^ k` nearest to the double, if one of its two neighbours rounds to it; of two
at the same distance the even one. -/
def Dyadic.onGrid? (d : Dyadic) (k : Int) : Option Nat :=
  let i := d.interval
  let (a, b) := scale d.exponent k
  let v := i.four * a
  let n := v / b
  match i.has a b n, i.has a b (n + 1) with
  | true, true =>
    let below := v - n * b
    let above := (n + 1) * b - v
    if below < above ∨ (below = above ∧ n % 2 = 0) then some n else some (n + 1)
  | true, false => some n
  | false, true => some (n + 1)
  | false, false => none

/-- Digits and exponent of the shortest decimal, looked for on ever finer grids. -/
def Dyadic.shortest? (d : Dyadic) : Option (Nat × Int) :=
  (List.range 640).findSome? fun (i : Nat) =>
    let k : Int := 310 - (i : Int)
    (d.onGrid? k).map fun n => (n, k)

end Workboard.Decimal
