import Workboard.Json.Number
import Workboard.Json.Text

/-!
Free-form JSON values. The members of an object are sorted by name and of two with one name the last
counts; nesting is limited to 127 levels.
-/

namespace Workboard.Json

inductive Value where
  | null
  | bool (b : Bool)
  | number (n : Number)
  | string (s : String)
  | array (items : List Value)
  | object (members : List (String × Value))

instance : Inhabited Value := ⟨.null⟩

/-- Puts a member into a list sorted by name, in place of one with the same name. -/
def putMember {α : Type} (name : String) (v : α) : List (String × α) → List (String × α)
  | [] => [(name, v)]
  | (n, w) :: ms =>
    if name = n then (name, v) :: ms
    else if name < n then (name, v) :: (n, w) :: ms
    else (n, w) :: putMember name v ms

/-- The members sorted by name, where later ones replace earlier ones. -/
def sortMembers {α : Type} (ms : List (String × α)) : List (String × α) :=
  ms.foldl (fun acc (n, v) => putMember n v acc) []

namespace Value

/-- How deeply arrays and objects may be nested. -/
def maxDepth : Nat := 127

/-- The value of a tree that nests at most `depth` levels. -/
def ofNode? : Nat → Node → Option Value
  | _, .null => some .null
  | _, .bool b => some (.bool b)
  | _, .number w => (Number.ofWritten? w).map .number
  | _, .string body => (textOfBody? body).map .string
  | 0, _ => none
  | depth + 1, .array items => (items.mapM (ofNode? depth)).map .array
  | depth + 1, .object members =>
    (members.mapM fun (name, v) => do
      let name ← textOfBody? name
      let v ← ofNode? depth v
      some (name, v)).map fun ms => .object (sortMembers ms)

def ofBytes? (bs : Bytes) : Option Value := (Node.ofBytes? bs).bind (ofNode? maxDepth)

mutual

def print : Value → Bytes
  | .null => [0x6E, 0x75, 0x6C, 0x6C]
  | .bool true => [0x74, 0x72, 0x75, 0x65]
  | .bool false => [0x66, 0x61, 0x6C, 0x73, 0x65]
  | .number n => n.toBytes
  | .string s => quote s
  | .array items => 0x5B :: printItems items
  | .object members => 0x7B :: printMembers members

def printItems : List Value → Bytes
  | [] => [0x5D]
  | [v] => print v ++ [0x5D]
  | v :: vs => print v ++ 0x2C :: printItems vs

def printMembers : List (String × Value) → Bytes
  | [] => [0x7D]
  | [(name, v)] => quote name ++ 0x3A :: print v ++ [0x7D]
  | (name, v) :: ms => quote name ++ 0x3A :: print v ++ 0x2C :: printMembers ms

end

mutual

def toNode : Value → Node
  | .null => .null
  | .bool b => .bool b
  | .number n => .number n.toBytes
  | .string s => .string (escape (Bytes.ofText s))
  | .array items => .array (itemNodes items)
  | .object members => .object (memberNodes members)

def itemNodes : List Value → List Node
  | [] => []
  | v :: vs => toNode v :: itemNodes vs

def memberNodes : List (String × Value) → List (Bytes × Node)
  | [] => []
  | (name, v) :: ms => (escape (Bytes.ofText name), toNode v) :: memberNodes ms

end

/-- An object with its members put in order. -/
def ofMembers (ms : List (String × Value)) : Value := .object (sortMembers ms)

def int (n : Int) : Value := .number (.int n)

def member? (name : String) : Value → Option Value
  | .object ms => (ms.find? fun m => m.1 = name).map (·.2)
  | _ => none

end Value

/-!
What statements about JSON texts look at: the numbers that stand in a tree, whether a number is written as a whole
number of 64 bits, the members that an object is written with, and how deeply a value nests.
-/

/-- What members of a name hold, in order. -/
def membersNamed {α : Type} (name : String) (ms : List (String × α)) : List α :=
  (ms.filter fun m => m.1 = name).map (·.2)

/-- A whole number as it is written, with a sign or without one, that fits 64 bits in the one way or the other. -/
def Number.isWhole (written : Bytes) : Bool :=
  let negative := written.head? == some 0x2D
  let unsigned := if negative then written.drop 1 else written
  unsigned.all isDigit &&
    ofDigits 10 0 (digitsOf unsigned) ≤ (if negative then Width.count 63 else limit)

namespace Node

mutual

/-- All numbers of a tree as they are written. -/
def numbers : Node → List Bytes
  | .number written => [written]
  | .array items => itemNumbers items
  | .object members => memberNumbers members
  | _ => []

def itemNumbers : List Node → List Bytes
  | [] => []
  | v :: vs => numbers v ++ itemNumbers vs

def memberNumbers : List (Bytes × Node) → List Bytes
  | [] => []
  | (_, v) :: ms => numbers v ++ memberNumbers ms

end

end Node

namespace Value

def text? : Value → Option String
  | .string s => some s
  | _ => none

/-- A member with the text that its name stands for and with its value. -/
def ofMember? (depth : Nat) (m : Bytes × Node) : Option (String × Value) := do
  let name ← textOfBody? m.1
  let v ← ofNode? depth m.2
  some (name, v)

/-- The members of an object as they are written: in their order, and those that share a name all of them. -/
def written? (raw : Bytes) : Option (List (String × Value)) :=
  match Node.ofBytes? raw with
  | some (.object members) => members.mapM (ofMember? (maxDepth - 1))
  | _ => none

mutual

/-- How many arrays and objects stand around each other, those without items or members included. -/
def depth : Value → Nat
  | .array items => itemsDepth items + 1
  | .object members => membersDepth members + 1
  | _ => 0

def itemsDepth : List Value → Nat
  | [] => 0
  | v :: vs => max (depth v) (itemsDepth vs)

def membersDepth : List (String × Value) → Nat
  | [] => 0
  | (_, v) :: ms => max (depth v) (membersDepth ms)

end

/-- Empty arrays in each other, so many that the innermost of them stands in `n` others. -/
def nest : Nat → Value
  | 0 => .array []
  | n + 1 => .array [nest n]

end Value

end Workboard.Json
