import Workboard.Decimal.Shortest
import Workboard.Json.Node
import Workboard.Width

/-!
Numbers in JSON. Whole numbers that fit 64 bits, signed or not, are exact; every other number is a
double.
-/

namespace Workboard.Json

inductive Number where
  | int (n : Int)
  | real (bits : UInt64)
  deriving DecidableEq

namespace Number

def digitsOf (bs : Bytes) : List Nat := bs.map fun b => b.toNat - 48

def limit : Nat := Width.count 64 - 1

/-- Takes digits into a number as long as it fits 64 bits: the number and the digits left over. -/
def absorb (acc : Nat) : List Nat → Nat × List Nat
  | [] => (acc, [])
  | d :: ds => if acc * 10 + d ≤ limit then absorb (acc * 10 + d) ds else (acc, d :: ds)

/-- Powers of ten are exact doubles or the nearest ones. -/
def power (e : Nat) : Float := Float.ofScientific 1 false e

/-- Divides by ten to the `e`, at most 308 places at a time. -/
def shiftDown (f : Float) (e : Nat) : Float :=
  if e ≤ 308 then f / power e
  else if f == 0 then f
  else shiftDown (f / power 308) (e - 308)
termination_by e
decreasing_by omega

/-- The double for `significand · 10 ^ exponent`, unless it is too large. -/
def scaled? (negative : Bool) (significand : Nat) (exponent : Int) : Option Number :=
  let f := (UInt64.ofNat significand).toFloat
  let finish (g : Float) : Option Number := some (.real (if negative then -g else g).toBits)
  if 0 ≤ exponent then
    if 308 < exponent then (if f == 0 then finish f else none)
    else
      let g := f * power exponent.toNat
      if g.isInf then none else finish g
  else finish (shiftDown f exponent.natAbs)

/-- Exponents are kept in 32 bits. -/
def clampExponent (e : Int) : Int := max (-(Width.count 31 : Int)) (min e (Width.count 31 - 1 : Nat))

/-- A number with a fraction, an exponent or too many digits. Digits beyond the 64-bit significand
only move the point, and behind the point they are dropped. -/
def real? (negative : Bool) (whole fraction : List Nat) (exponent : Option (Bool × List Nat)) :
    Option Number :=
  let (n, rest) := absorb 0 whole
  let (m, unused) := absorb n fraction
  let start : Int := rest.length - (fraction.length - unused.length : Nat)
  match exponent with
  | none => scaled? negative m start
  | some (down, ds) =>
    let e := ofDigits 10 0 ds
    if Width.count 31 ≤ e then
      if m ≠ 0 ∧ ¬ down then none
      else some (.real (if negative then -0.0 else (0.0 : Float)).toBits)
    else scaled? negative m (clampExponent (if down then start - e else start + e))

/-- A whole number, exact if it fits; zero with a sign is the double. -/
def whole? (negative : Bool) (ds : List Nat) : Option Number :=
  let n := ofDigits 10 0 ds
  if negative then
    if 0 < n ∧ n ≤ Width.count 63 then some (.int (-n)) else real? true ds [] none
  else if n ≤ limit then some (.int n) else real? false ds [] none

/-- The digits of an exponent and whether it is negative. -/
def exponentOf? : Bytes → Option (Bool × List Nat)
  | _ :: s :: ds =>
    if s == 0x2B then some (false, digitsOf ds)
    else if s == 0x2D then some (true, digitsOf ds)
    else some (false, digitsOf (s :: ds))
  | _ => none

/-- The value of a number as it is written; `none` where it exceeds every double. -/
def ofWritten? (written : Bytes) : Option Number :=
  let negative := written.head? == some 0x2D
  let unsigned := if negative then written.drop 1 else written
  let whole := unsigned.takeWhile isDigit
  let rest := unsigned.dropWhile isDigit
  let fraction := if rest.head? == some 0x2E then (rest.drop 1).takeWhile isDigit else []
  let rest := if rest.head? == some 0x2E then (rest.drop 1).dropWhile isDigit else rest
  match fraction, exponentOf? rest with
  | [], none => whole? negative (digitsOf whole)
  | _, e => real? negative (digitsOf whole) (digitsOf fraction) e

/-- The places at which the text of a double changes its shape: the point stands inside the digits
or next to them while its position is from -4 to 16, and otherwise an exponent follows. -/
def positional (point : Int) : Bool := -5 < point && point ≤ 16

def signedExponent (e : Int) : List Char :=
  (if e < 0 then '-' else '+') :: decimal e.natAbs

/-- A positive double's digits with their point or exponent. -/
def realChars (digits : List Char) (k : Int) : List Char :=
  let point : Int := digits.length + k
  if positional point then
    if 0 ≤ k then digits ++ List.replicate k.toNat '0' ++ ['.', '0']
    else if 0 < point then digits.take point.toNat ++ '.' :: digits.drop point.toNat
    else '0' :: '.' :: List.replicate (-point).toNat '0' ++ digits
  else
    match digits with
    | [d] => d :: 'e' :: signedExponent (point - 1)
    | d :: ds => d :: '.' :: ds ++ 'e' :: signedExponent (point - 1)
    | [] => []

def chars : Number → List Char
  | .int n => (if n < 0 then ['-'] else []) ++ decimal n.natAbs
  | .real bits =>
    let sign := if bits.toNat / Width.count 63 = 1 then ['-'] else []
    match (Decimal.Dyadic.ofBits bits).mantissa, (Decimal.Dyadic.ofBits bits).shortest? with
    | 0, _ => sign ++ ['0', '.', '0']
    | _, some (n, k) => sign ++ realChars (decimal n) k
    | _, none => sign

def toBytes (n : Number) : Bytes := n.chars.map fun c => UInt8.ofNat c.toNat

end Number

end Workboard.Json
