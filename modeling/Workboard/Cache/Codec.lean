import Workboard.Cache.Binary
import Workboard.Cache.Error
import Workboard.Width

/-!
How values become the bytes that are cached. Binary frames carry their length in front, so that a damaged
frame is told from a whole one.
-/

namespace Workboard

structure Codec (α : Type) where
  encode : α → Except CodecError Bytes
  decode : Bytes → Except CodecError α

/-- How a library turns values into bytes and back, which may fail either way. -/
structure Packing (α : Type) where
  pack : α → Except String Bytes
  unpack : Bytes → Except String α

/-- A binary form as a packing; every value has one. -/
def BinaryForm.packing {α : Type} (f : BinaryForm α) : Packing α where
  pack a := .ok (f.write a)
  unpack body :=
    match f.whole? body with
    | some a => .ok a
    | none => .error "not a binary body of the type"

structure JsonForm (α : Type) where
  write : α → Json.Value
  read? : Json.Node → Option α

namespace JsonForm

open Json

def text : JsonForm String := ⟨.string, Node.text?⟩

def nat64 : JsonForm Nat := ⟨fun n => .int n, Node.nat64?⟩

def int64 : JsonForm Int := ⟨.int, Node.int64?⟩

def bool : JsonForm Bool := ⟨.bool, Node.bool?⟩

def list {α : Type} (f : JsonForm α) : JsonForm (List α) :=
  ⟨fun as => .array (as.map f.write), Node.items? f.read?⟩

def option {α : Type} (f : JsonForm α) : JsonForm (Option α) :=
  ⟨Value.optional f.write, Node.optional? f.read?⟩

def readMember? {α : Type} (f : JsonForm α) (m : Bytes × Node) : Option (String × α) := do
  let name ← textOfBody? m.1
  let a ← f.read? m.2
  some (name, a)

/-- Members sorted by name; of two with one name the last counts. -/
def members {α : Type} (f : JsonForm α) : JsonForm (List (String × α)) where
  write ms := .object (ms.map fun (name, a) => (name, f.write a))
  read?
    | .object ms => (ms.mapM f.readMember?).map sortMembers
    | _ => none

def todo : JsonForm Todo := ⟨Todo.toValue, Todo.ofNode?⟩

/-- Events that no one has stored yet are not written, and of a to-do that was read none are known. -/
def tracked : JsonForm TrackedTodo := ⟨fun t => t.todo.toValue, fun v => (Todo.ofNode? v).map .restore⟩

end JsonForm

namespace Codec

variable {α : Type}

def json (f : JsonForm α) : Codec α where
  encode a := .ok (f.write a).print
  decode bs :=
    match (Json.Node.ofBytes? bs).bind f.read? with
    | some a => .ok a
    | none => .error (.decode "not a JSON text of the type")

/-- The greatest length of a body unless another is given. -/
def standardLimit : Nat := 8 * 1024 * 1024

/-- A number below 2^32 in four bytes, most significant first. -/
def lengthBytes (n : Nat) : Bytes := (fixedDigits 256 4 n).map UInt8.ofNat

def lengthOfBytes (bs : Bytes) : Nat := ofDigits 256 0 (bs.map UInt8.toNat)

/-- The body of a frame that holds exactly what it declares. -/
def unframe (limit : Nat) (frame : Bytes) : Except CodecError Bytes :=
  if frame.length < 4 then .error (.truncated 4 frame.length)
  else
    let declared := lengthOfBytes (frame.take 4)
    let body := frame.drop 4
    if declared > limit then .error (.oversized declared)
    else if body.length ≠ declared then .error (.truncated declared body.length)
    else .ok body

/-- Bodies in frames. A body that is packed is not looked at before its frame is whole. -/
def framing (p : Packing α) (limit : Nat) : Codec α where
  encode a :=
    match p.pack a with
    | .error message => .error (.encode message)
    | .ok body =>
      if body.length > limit ∨ !Width.fits 32 body.length then .error (.oversized body.length)
      else .ok (lengthBytes body.length ++ body)
  decode bs :=
    match unframe limit bs with
    | .error e => .error e
    | .ok body =>
      match p.unpack body with
      | .ok a => .ok a
      | .error message => .error (.decode message)

def framed (f : BinaryForm α) (limit : Nat) : Codec α := framing f.packing limit

end Codec

end Workboard
