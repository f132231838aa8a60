import Workboard.Json.Node
import Workboard.Text.Basic

/-!
Strings inside JSON: the body that is written for a text, and the text that a body stands for.
-/

namespace Workboard.Json

def hexByte (n : Nat) : UInt8 := UInt8.ofNat (digitChar n).toNat

/-- Quotes, backslashes and control bytes are escaped, the latter by a letter where one exists. -/
def escapeByte (b : UInt8) : Bytes :=
  if b == 0x22 then [0x5C, 0x22]
  else if b == 0x5C then [0x5C, 0x5C]
  else if b == 0x08 then [0x5C, 0x62]
  else if b == 0x09 then [0x5C, 0x74]
  else if b == 0x0A then [0x5C, 0x6E]
  else if b == 0x0C then [0x5C, 0x66]
  else if b == 0x0D then [0x5C, 0x72]
  else if b < 0x20 then [0x5C, 0x75, 0x30, 0x30, hexByte (b.toNat / 16), hexByte (b.toNat % 16)]
  else [b]

def escape (bs : Bytes) : Bytes := bs.flatMap escapeByte

def quote (s : String) : Bytes := 0x22 :: escape (Bytes.ofText s) ++ [0x22]

/-- The number that four hexadecimal digits spell. -/
def hexUnit? (a b c d : UInt8) : Option Nat := do
  let w ← hexValue? (Char.ofNat a.toNat)
  let x ← hexValue? (Char.ofNat b.toNat)
  let y ← hexValue? (Char.ofNat c.toNat)
  let z ← hexValue? (Char.ofNat d.toNat)
  some (((w * 16 + x) * 16 + y) * 16 + z)

def shortEscape? (e : UInt8) : Option UInt8 :=
  if e == 0x22 || e == 0x5C || e == 0x2F then some e
  else if e == 0x62 then some 0x08
  else if e == 0x66 then some 0x0C
  else if e == 0x6E then some 0x0A
  else if e == 0x72 then some 0x0D
  else if e == 0x74 then some 0x09
  else none

/-- The bytes of a code point in UTF-8. -/
def codePoint (n : Nat) : Bytes := Bytes.ofText (String.singleton (Char.ofNat n))

/-- A leading unit of a surrogate pair. -/
def isHighSurrogate (n : Nat) : Bool := 0xD800 ≤ n && n ≤ 0xDBFF

def isLowSurrogate (n : Nat) : Bool := 0xDC00 ≤ n && n ≤ 0xDFFF

/-- Resolves the escapes of a string body. A surrogate must be part of a pair. -/
def unescape? : Bytes → Option Bytes
  | [] => some []
  | 0x5C :: 0x75 :: a :: b :: c :: d :: 0x5C :: 0x75 :: e :: f :: g :: h :: rest =>
    match hexUnit? a b c d, hexUnit? e f g h with
    | some hi, some lo =>
      if isLowSurrogate hi then none
      else if isHighSurrogate hi then
        if isLowSurrogate lo then
          (unescape? rest).map
            (codePoint (0x10000 + (hi - 0xD800) * 1024 + (lo - 0xDC00)) ++ ·)
        else none
      else (unescape? (0x5C :: 0x75 :: e :: f :: g :: h :: rest)).map (codePoint hi ++ ·)
    | _, _ => none
  | 0x5C :: 0x75 :: a :: b :: c :: d :: rest =>
    match hexUnit? a b c d with
    | some n =>
      if isHighSurrogate n || isLowSurrogate n then none
      else (unescape? rest).map (codePoint n ++ ·)
    | none => none
  | 0x5C :: e :: rest =>
    match shortEscape? e with
    | some b => (unescape? rest).map (b :: ·)
    | none => none
  | b :: rest => if b == 0x5C then none else (unescape? rest).map (b :: ·)

/-- The text a string body stands for. -/
def textOfBody? (body : Bytes) : Option String := (unescape? body).bind Bytes.text?

end Workboard.Json
