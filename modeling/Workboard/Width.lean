/-!
Whole numbers that fit so many binary digits, with a sign or without one.
-/

namespace Workboard.Width

/-- How many numbers there are of so many binary digits. -/
def count (bits : Nat) : Nat := Nat.pow 2 bits

/-- Whether a number without a sign fits. -/
def fits (bits n : Nat) : Bool := n < count bits

/-- Whether a number fits of which one binary digit is the sign. -/
def fitsSigned (bits : Nat) (n : Int) : Bool :=
  -(count (bits - 1) : Int) ≤ n && n < (count (bits - 1) : Int)

/-!
Calculations that are refused where the result does not fit.
-/

def product? (a b : UInt64) : Option UInt64 := if fits 64 (a.toNat * b.toNat) then some (a * b) else none

def sum? (a b : UInt64) : Option UInt64 := if fits 64 (a.toNat + b.toNat) then some (a + b) else none

def next? (n : UInt32) : Option UInt32 := if fits 32 (n.toNat + 1) then some (n + 1) else none

/-- A number moved to the left by less places than it has. -/
def shifted? (n places : UInt32) : Option UInt32 := if places < 32 then some (n <<< places) else none

end Workboard.Width
