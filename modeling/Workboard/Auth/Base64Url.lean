import Workboard.Text.Basic

/-!
Bytes as text of 64 characters that may stand in addresses, without padding at the end.
-/

namespace Workboard.Base64Url

def alphabet : List Char :=
  "ABCDEFGHIJKLMNOPQRSTUVWXYZabcdefghijklmnopqrstuvwxyz0123456789-_".toList

def charAt (n : Nat) : Char := (alphabet[n]?).getD 'A'

def valueOf? (c : Char) : Option Nat := alphabet.findIdx? (· == c)

/-- Three bytes make four characters; what is left at the end makes two or three. -/
def encodeChars : Bytes → List Char
  | a :: b :: c :: rest =>
    let n := a.toNat * 65536 + b.toNat * 256 + c.toNat
    charAt (n / 262144) :: charAt (n / 4096 % 64) :: charAt (n / 64 % 64) :: charAt (n % 64) ::
      encodeChars rest
  | [a, b] =>
    let n := (a.toNat * 256 + b.toNat) * 4
    [charAt (n / 4096), charAt (n / 64 % 64), charAt (n % 64)]
  | [a] =>
    let n := a.toNat * 16
    [charAt (n / 64), charAt (n % 64)]
  | [] => []

def encode (bs : Bytes) : String := String.ofList (encodeChars bs)

/-- The bits that are left over at the end must be zero. -/
def decodeValues? : List Nat → Option Bytes
  | a :: b :: c :: d :: rest => do
    let n := ((a * 64 + b) * 64 + c) * 64 + d
    let bs ← decodeValues? rest
    some (UInt8.ofNat (n / 65536) :: UInt8.ofNat (n / 256) :: UInt8.ofNat n :: bs)
  | [a, b, c] =>
    let n := (a * 64 + b) * 64 + c
    if n % 4 = 0 then some [UInt8.ofNat (n / 1024), UInt8.ofNat (n / 4)] else none
  | [a, b] =>
    let n := a * 64 + b
    if n % 16 = 0 then some [UInt8.ofNat (n / 16)] else none
  | [_] => none
  | [] => some []

def decode? (s : List Char) : Option Bytes := (s.mapM valueOf?).bind decodeValues?

end Workboard.Base64Url
