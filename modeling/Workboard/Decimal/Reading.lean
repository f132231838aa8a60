import Workboard.Text.Basic

/-!
Decimal numerals with a point or an exponent, and the doubles nearest to them.
-/

namespace Workboard.Decimal

/-- Digits before and behind the point, and the exponent of ten. -/
structure Numeral where
  negative : Bool
  whole : List Nat
  fraction : List Nat
  exponent : Int

def digitRun (cs : List Char) : List Nat × List Char :=
  ((cs.takeWhile (digitValue? · |>.isSome)).filterMap digitValue?,
    cs.dropWhile (digitValue? · |>.isSome))

def exponent? : List Char → Option Int
  | [] => some 0
  | c :: cs => if c = 'e' ∨ c = 'E' then intOfDecimal? cs else none

def Numeral.unsigned? (negative : Bool) (cs : List Char) : Option Numeral := do
  let (whole, rest) := digitRun cs
  let (fraction, rest) := if rest.head? = some '.' then digitRun (rest.drop 1) else ([], rest)
  if whole.isEmpty && fraction.isEmpty then none
  else some ⟨negative, whole, fraction, ← exponent? rest⟩

/-- A numeral with digits before or behind its point. -/
def Numeral.ofChars? : List Char → Option Numeral
  | '-' :: cs => unsigned? true cs
  | '+' :: cs => unsigned? false cs
  | cs => unsigned? false cs

/-- The magnitude of the nearest double; beyond the range of doubles it is infinite or zero. -/
def Numeral.magnitude (n : Numeral) : Float :=
  let digits := ofDigits 10 0 (n.whole ++ n.fraction)
  let place : Int := n.exponent - n.fraction.length
  let top : Int := place + (decimalDigits digits).length
  if digits = 0 then 0.0
  else if top > 400 then 1.0 / 0.0
  else if top < -400 then 0.0
  else Float.ofScientific digits (decide (place < 0)) place.natAbs

def Numeral.toFloat (n : Numeral) : Float := if n.negative then -n.magnitude else n.magnitude

end Workboard.Decimal
