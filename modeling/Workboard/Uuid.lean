import Workboard.Text.Basic

/-!
Universally unique identifiers: 128-bit values, their hyphenated text, the four spellings that are read back, and
a supply of identifiers to be drawn one after another.
-/

namespace Workboard

structure Uuid where
  val : BitVec 128
  deriving DecidableEq

namespace Uuid

instance : Inhabited Uuid := ⟨⟨0⟩⟩

/-- The identifier whose bits are all zero. -/
def nil : Uuid := ⟨0⟩

/-- Identifiers are ordered by their bytes, so by the number those spell. -/
def lt (a b : Uuid) : Bool := a.val.toNat < b.val.toNat

def compare (a b : Uuid) : Ordering := Ord.compare a.val.toNat b.val.toNat

/-- Digits in groups of the given sizes, with a hyphen between groups. -/
def group : List Nat → List Char → List Char
  | [], cs => cs
  | [_], cs => cs
  | n :: ns, cs => cs.take n ++ '-' :: group ns (cs.drop n)

/-- The digits of a text that is grouped by exactly these sizes. -/
def ungroup? : List Nat → List Char → Option (List Char)
  | [], cs => if cs.isEmpty then some [] else none
  | [n], cs => if cs.length = n then some cs else none
  | n :: ns, cs =>
    match cs.drop n with
    | '-' :: rest => (ungroup? ns rest).map (cs.take n ++ ·)
    | _ => none

def groups : List Nat := [8, 4, 4, 4, 12]

def digits (u : Uuid) : List Char := (fixedDigits 16 32 u.val.toNat).map digitChar

/-- The text in lower case with hyphens, the only form that is written. -/
def toText (u : Uuid) : String := String.ofList (group groups u.digits)

/-- The identifier that 32 hexadecimal digits spell. -/
def ofDigits? (cs : List Char) : Option Uuid :=
  if cs.length = 32 then (cs.mapM hexValue?).map fun ds => ⟨BitVec.ofNat 128 (ofDigits 16 0 ds)⟩
  else none

def ofHyphenated? (cs : List Char) : Option Uuid := (ungroup? groups cs).bind ofDigits?

/-- A text without the scheme of the URN namespace, which is read in any letter case. -/
def dropUrn? (cs : List Char) : Option (List Char) :=
  if (cs.take 9).map Char.toLower = ['u', 'r', 'n', ':', 'u', 'u', 'i', 'd', ':'] then
    some (cs.drop 9)
  else none

/-- Reads 32 digits, the hyphenated form, and the hyphenated form in braces or as a URN. -/
def ofChars? (cs : List Char) : Option Uuid :=
  match cs.length with
  | 32 => ofDigits? cs
  | 36 => ofHyphenated? cs
  | 38 =>
    if cs.head? = some '{' ∧ cs.getLast? = some '}' then ofHyphenated? (cs.drop 1).dropLast
    else none
  | 45 => (dropUrn? cs).bind ofHyphenated?
  | _ => none

def ofText? (s : String) : Option Uuid := ofChars? s.toList

end Uuid

structure TodoId where
  uuid : Uuid
  deriving DecidableEq, Inhabited

/-- Identifies a workspace; its text is also the name of the workspace's room. -/
structure WorkspaceId where
  uuid : Uuid
  deriving DecidableEq, Inhabited

structure UserId where
  uuid : Uuid
  deriving DecidableEq, Inhabited

def TodoId.toText (id : TodoId) : String := id.uuid.toText

def WorkspaceId.toText (id : WorkspaceId) : String := id.uuid.toText

def UserId.toText (id : UserId) : String := id.uuid.toText

/-- The identifiers in the order in which they are drawn, and how many were drawn. -/
structure IdSupply where
  nth : Nat → Uuid
  used : Nat

namespace IdSupply

/-- Identifiers of the random kind in their version and variant bits, counted up. -/
def standardNth (n : Nat) : Uuid := ⟨BitVec.ofNat 128 (0xF1D5C0DEB0A74C1D8E5A000000000000 + n)⟩

def empty : IdSupply := ⟨standardNth, 0⟩

def fresh (s : IdSupply) : Uuid × IdSupply := (s.nth s.used, { s with used := s.used + 1 })

def Distinct (s : IdSupply) : Prop :=
  ∀ i j, i < s.used → j < s.used → s.nth i = s.nth j → i = j

end IdSupply

end Workboard
