import Workboard.Todo.Basic
import Workboard.Width

/-!
Compact binary forms of values. Numbers are written seven bits to a byte, least significant first; texts
and lists begin with their length.
-/

namespace Workboard

/-- A written form, and the value at the start of some bytes together with what follows it. -/
structure BinaryForm (α : Type) where
  write : α → Bytes
  read? : Bytes → Option (α × Bytes)

namespace BinaryForm

/-- The value of a body that holds nothing else. -/
def whole? {α : Type} (f : BinaryForm α) (body : Bytes) : Option α :=
  match f.read? body with
  | some (a, []) => some a
  | _ => none

def writeNat (n : Nat) : Bytes :=
  if n < 128 then [UInt8.ofNat n] else UInt8.ofNat (n % 128 + 128) :: writeNat (n / 128)
termination_by n
decreasing_by omega

def readNat? : Bytes → Option (Nat × Bytes)
  | [] => none
  | b :: rest =>
    if b.toNat < 128 then some (b.toNat, rest)
    else (readNat? rest).map fun (n, r) => (b.toNat - 128 + 128 * n, r)

def nat64 : BinaryForm Nat where
  write := writeNat
  read? bs := (readNat? bs).filter fun (n, _) => Width.fits 64 n

/-- Signs are folded in: 0, -1, 1, -2 and so on are numbered from zero. -/
def foldSign (n : Int) : Nat := if 0 ≤ n then 2 * n.toNat else 2 * (-n).toNat - 1

def unfoldSign (n : Nat) : Int := if n % 2 = 0 then (n / 2 : Nat) else -((n / 2 + 1 : Nat) : Int)

def int64 : BinaryForm Int where
  write n := nat64.write (foldSign n)
  read? bs := (nat64.read? bs).map fun (n, r) => (unfoldSign n, r)

def bool : BinaryForm Bool where
  write b := [if b then 1 else 0]
  read?
    | 0 :: r => some (false, r)
    | 1 :: r => some (true, r)
    | _ => none

def take? (n : Nat) (bs : Bytes) : Option (Bytes × Bytes) :=
  if n ≤ bs.length then some (bs.take n, bs.drop n) else none

def text : BinaryForm String where
  write s := writeNat (Bytes.ofText s).length ++ Bytes.ofText s
  read? bs := do
    let (n, r) ← readNat? bs
    let (body, r) ← take? n r
    let s ← Bytes.text? body
    some (s, r)

def option {α : Type} (f : BinaryForm α) : BinaryForm (Option α) where
  write
    | none => [0]
    | some a => 1 :: f.write a
  read?
    | 0 :: r => some (none, r)
    | 1 :: r => (f.read? r).map fun (a, r) => (some a, r)
    | _ => none

def readMany? {α : Type} (f : BinaryForm α) : Nat → Bytes → Option (List α × Bytes)
  | 0, bs => some ([], bs)
  | n + 1, bs => do
    let (a, r) ← f.read? bs
    let (as, r) ← readMany? f n r
    some (a :: as, r)

def list {α : Type} (f : BinaryForm α) : BinaryForm (List α) where
  write as := writeNat as.length ++ as.flatMap f.write
  read? bs := do
    let (n, r) ← readNat? bs
    if n ≤ r.length then readMany? f n r else none

def pair {α β : Type} (f : BinaryForm α) (g : BinaryForm β) : BinaryForm (α × β) where
  write p := f.write p.1 ++ g.write p.2
  read? bs := do
    let (a, r) ← f.read? bs
    let (b, r) ← g.read? r
    some ((a, b), r)

/-- The form of values that are given by other values. -/
def map {α β : Type} (f : BinaryForm α) (from' : β → α) (to? : α → Option β) : BinaryForm β where
  write b := f.write (from' b)
  read? bs := do
    let (a, r) ← f.read? bs
    let b ← to? a
    some (b, r)

def uuid : BinaryForm Uuid := text.map Uuid.toText Uuid.ofText?

def instant : BinaryForm Instant := text.map Instant.toText Instant.ofText?

def todo : BinaryForm Todo :=
  (pair uuid <| pair uuid <| pair text <| pair bool <| pair instant <| pair instant <|
    option instant).map
    (fun t => (t.id.uuid, t.workspaceId.uuid, t.title, t.completed, t.createdAt, t.updatedAt,
      t.completedAt))
    (fun (id, workspace, title, completed, created, updated, completedAt) =>
      some ⟨⟨id⟩, ⟨workspace⟩, title, completed, created, updated, completedAt⟩)

end BinaryForm

end Workboard
