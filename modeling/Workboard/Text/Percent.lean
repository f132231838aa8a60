import Workboard.Text.Basic

/-!
Texts in which a percent sign and two hexadecimal digits stand for a byte, and forms made of them: names
and values with `=` between and `&` after each.
-/

namespace Workboard.Percent

/-- A percent sign that no two digits follow stands for itself. -/
def decode : List Char → Bytes
  | '%' :: a :: b :: cs =>
    match hexValue? a, hexValue? b with
    | some x, some y => UInt8.ofNat (x * 16 + y) :: decode cs
    | _, _ => 0x25 :: decode (a :: b :: cs)
  | c :: cs => Bytes.ofText (String.singleton c) ++ decode cs
  | [] => []

def replacement : Char := '\uFFFD'

/-- The character that starts a byte string, by how many bytes it takes. -/
def firstChar? (bs : Bytes) : Option (Char × Nat) :=
  [1, 2, 3, 4].findSome? fun n =>
    if bs.length < n then none
    else
      match (Bytes.text? (bs.take n)).map String.toList with
      | some [c] => some (c, n)
      | _ => none

/-- The text of a byte string, with a mark for each byte that spells nothing. -/
def lossyChars : Nat → Bytes → List Char
  | _, [] => []
  | skipped + 1, _ :: bs => lossyChars skipped bs
  | 0, b :: bs =>
    match firstChar? (b :: bs) with
    | some (c, n) => c :: lossyChars (n - 1) bs
    | none => replacement :: lossyChars 0 bs

/-- A name or a value of a form, in which a plus sign stands for a blank. -/
def formText (cs : List Char) : String :=
  String.ofList (lossyChars 0 (decode (cs.map fun c => if c = '+' then ' ' else c)))

/-- The names and values of a form; a name alone has an empty value. -/
def form (cs : List Char) : List (String × String) :=
  (((String.ofList cs).splitOn "&").filter (!·.isEmpty)).map fun p =>
    let p := p.toList
    (formText (p.takeWhile (· != '=')), formText ((p.dropWhile (· != '=')).drop 1))

end Workboard.Percent
