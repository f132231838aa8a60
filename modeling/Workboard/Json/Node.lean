import Workboard.Text.Basic

/-!
JSON texts as trees. A node keeps numbers and string bodies as they are written, so that reading a
document decides only its grammar; what a number or a string means is decided where it is used.
-/

namespace Workboard.Json

inductive Node where
  | null
  | bool (b : Bool)
  | number (written : Bytes)
  | string (body : Bytes)
  | array (items : List Node)
  | object (members : List (Bytes × Node))

/-- The four blank bytes that may stand between tokens. -/
def isSpace (b : UInt8) : Bool := b == 0x20 || b == 0x0A || b == 0x0D || b == 0x09

def skipSpace (bs : Bytes) : Bytes := bs.dropWhile isSpace

def isDigit (b : UInt8) : Bool := 0x30 ≤ b && b ≤ 0x39

def isHexDigit (b : UInt8) : Bool :=
  isDigit b || (0x61 ≤ b && b ≤ 0x66) || (0x41 ≤ b && b ≤ 0x46)

/-- The letters that may follow a backslash and stand for one byte. -/
def isShortEscape (b : UInt8) : Bool :=
  b == 0x22 || b == 0x5C || b == 0x2F || b == 0x62 || b == 0x66 || b == 0x6E || b == 0x72 ||
    b == 0x74

/-- The body of a string up to its closing quote, and what follows. Control bytes are refused, and
so is a backslash that starts no escape. -/
def readString? : Bytes → Option (Bytes × Bytes)
  | [] => none
  | 0x22 :: rest => some ([], rest)
  | 0x5C :: 0x75 :: a :: b :: c :: d :: rest =>
    if isHexDigit a && isHexDigit b && isHexDigit c && isHexDigit d then
      (readString? rest).map fun (body, r) => (0x5C :: 0x75 :: a :: b :: c :: d :: body, r)
    else none
  | 0x5C :: e :: rest =>
    if isShortEscape e then (readString? rest).map fun (body, r) => (0x5C :: e :: body, r) else none
  | b :: rest =>
    if b < 0x20 || b == 0x5C then none
    else (readString? rest).map fun (body, r) => (b :: body, r)

/-- A run of at least one digit. -/
def readDigits? (bs : Bytes) : Option (Bytes × Bytes) :=
  match bs.takeWhile isDigit with
  | [] => none
  | ds => some (ds, bs.dropWhile isDigit)

/-- The whole part of a number has no leading zero. -/
def readWhole? : Bytes → Option (Bytes × Bytes)
  | 0x30 :: rest => if (rest.head?.map isDigit).getD false then none else some ([0x30], rest)
  | bs => readDigits? bs

def readFraction? : Bytes → Option (Bytes × Bytes)
  | 0x2E :: rest => (readDigits? rest).map fun (ds, r) => (0x2E :: ds, r)
  | bs => some ([], bs)

def readExponent? : Bytes → Option (Bytes × Bytes)
  | e :: rest =>
    if e == 0x65 || e == 0x45 then
      match rest with
      | s :: r =>
        if s == 0x2B || s == 0x2D then (readDigits? r).map fun (ds, r) => (e :: s :: ds, r)
        else (readDigits? rest).map fun (ds, r) => (e :: ds, r)
      | [] => none
    else some ([], e :: rest)
  | [] => some ([], [])

/-- A number as it is written, without its sign. -/
def readUnsigned? (bs : Bytes) : Option (Bytes × Bytes) := do
  let (whole, r) ← readWhole? bs
  let (fraction, r) ← readFraction? r
  let (exponent, r) ← readExponent? r
  some (whole ++ fraction ++ exponent, r)

def readNumber? : Bytes → Option (Bytes × Bytes)
  | 0x2D :: rest => (readUnsigned? rest).map fun (n, r) => (0x2D :: n, r)
  | bs => readUnsigned? bs

def readWord? (word : Bytes) (bs : Bytes) : Option Bytes :=
  if bs.take word.length = word then some (bs.drop word.length) else none

mutual

/-- Reads one value. The first argument bounds the steps; the length of the text is enough. -/
def readNode? : Nat → Bytes → Option (Node × Bytes)
  | 0, _ => none
  | fuel + 1, bs =>
    match skipSpace bs with
    | [] => none
    | b :: rest =>
      if b == 0x22 then (readString? rest).map fun (s, r) => (.string s, r)
      else if b == 0x7B then
        match skipSpace rest with
        | 0x7D :: r => some (.object [], r)
        | r => (readMembers? fuel r).map fun (ms, r) => (.object ms, r)
      else if b == 0x5B then
        match skipSpace rest with
        | 0x5D :: r => some (.array [], r)
        | r => (readItems? fuel r).map fun (vs, r) => (.array vs, r)
      else if b == 0x6E then (readWord? [0x75, 0x6C, 0x6C] rest).map fun r => (.null, r)
      else if b == 0x74 then (readWord? [0x72, 0x75, 0x65] rest).map fun r => (.bool true, r)
      else if b == 0x66 then
        (readWord? [0x61, 0x6C, 0x73, 0x65] rest).map fun r => (.bool false, r)
      else (readNumber? (b :: rest)).map fun (n, r) => (.number n, r)

/-- Reads the items of an array that has at least one, up to its closing bracket. -/
def readItems? : Nat → Bytes → Option (List Node × Bytes)
  | 0, _ => none
  | fuel + 1, bs =>
    match readNode? fuel bs with
    | none => none
    | some (v, rest) =>
      match skipSpace rest with
      | 0x2C :: r => (readItems? fuel r).map fun (vs, r) => (v :: vs, r)
      | 0x5D :: r => some ([v], r)
      | _ => none

/-- Reads the members of an object that has at least one, up to its closing brace. -/
def readMembers? : Nat → Bytes → Option (List (Bytes × Node) × Bytes)
  | 0, _ => none
  | fuel + 1, bs =>
    match skipSpace bs with
    | 0x22 :: rest =>
      match readString? rest with
      | none => none
      | some (key, rest) =>
        match skipSpace rest with
        | 0x3A :: rest =>
          match readNode? fuel rest with
          | none => none
          | some (v, rest) =>
            match skipSpace rest with
            | 0x2C :: r => (readMembers? fuel r).map fun (ms, r) => ((key, v) :: ms, r)
            | 0x7D :: r => some ([(key, v)], r)
            | _ => none
        | _ => none
    | _ => none

end

/-- The tree of a text that is one JSON value with blanks around it. -/
def Node.ofBytes? (bs : Bytes) : Option Node :=
  match readNode? (2 * bs.length + 1) bs with
  | some (v, rest) => if (skipSpace rest).isEmpty then some v else none
  | none => none

end Workboard.Json
