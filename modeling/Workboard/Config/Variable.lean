import Workboard.Config.Tree
import Workboard.Decimal.Reading
import Workboard.Text.Basic
import Workboard.Width

/-!
The settings that variables of the environment stand for. The name of a variable is a path into the tree,
and its text is a boolean, a number, a list in brackets, a table in braces or a quoted text; every other
text stands for itself.
-/

namespace Workboard.Config

open Json

namespace Written

def isSpace (c : Char) : Bool :=
  c == ' ' || c == '\t' || c == '\n' || c == '\x0c' || c == '\r'

def isSeparator (c : Char) : Bool :=
  c == ',' || c == '\x7b' || c == '\x7d' || c == '[' || c == ']'

def isNameChar (c : Char) : Bool := c.isAlphanum || c == '_' || c == '-'

def skip (cs : List Char) : List Char := cs.dropWhile isSpace

/-- Whole numbers are signed or not, of 64 bits. -/
def wholeInRange (n : Int) : Bool := -(Width.count 63 : Int) ≤ n && n < (Width.count 64 : Int)

/-- A word without brackets, braces, commas and quotes. -/
def word (cs : List Char) : Value :=
  let cs := trimChars cs
  match if cs.contains '.' then Decimal.Numeral.ofChars? cs else none with
  | some n => .number (.real n.toFloat.toBits)
  | none =>
    match (intOfDecimal? cs).filter wholeInRange with
    | some n => .int n
    | none => .string (String.ofList cs)

def hexNumber? (cs : List Char) : Option Nat := (cs.mapM hexValue?).map (ofDigits 16 0)

def charOfCode? (n : Nat) : Option Char :=
  if h : n.isValidChar then some (Char.ofNatAux n h) else none

/-- The character of an escape with so many hexadecimal digits. -/
def coded? (digits : Nat) (cs : List Char) : Option Char :=
  if cs.length < digits then none else (hexNumber? (cs.take digits)).bind charOfCode?

def escaped? : Char → Option Char
  | '"' => some '"'
  | '\\' => some '\\'
  | 'b' => some '\x08'
  | 'f' => some '\x0c'
  | 'n' => some '\n'
  | 'r' => some '\r'
  | 't' => some '\t'
  | _ => none

/-- What stands before the closing quote, and what follows it. -/
def body : List Char → Option (List Char × List Char)
  | [] => none
  | '"' :: cs => some ([], cs)
  | '\\' :: c :: cs => (body cs).map fun (b, rest) => ('\\' :: c :: b, rest)
  | c :: cs => (body cs).map fun (b, rest) => (c :: b, rest)

def isPlain (c : Char) : Bool := c == '\t' || (0x20 ≤ c.toNat && c.toNat != 0x7F)

/-- The text of a quoted body; `skipped` counts characters that an escape has taken. -/
def unescape (skipped : Nat) : List Char → Option (List Char)
  | [] => some []
  | c :: cs =>
    match skipped with
    | n + 1 => unescape n cs
    | 0 =>
      if c = '\\' then
        match cs with
        | 'u' :: ds => do some ((← coded? 4 ds) :: (← unescape 5 cs))
        | 'U' :: ds => do some ((← coded? 8 ds) :: (← unescape 9 cs))
        | e :: _ => do some ((← escaped? e) :: (← unescape 1 cs))
        | [] => none
      else if isPlain c then (unescape 0 cs).map (c :: ·)
      else none

def quoted (cs : List Char) : Option (String × List Char) := do
  let (b, rest) ← body cs
  some (String.ofList (← unescape 0 b), rest)

/-- The name of a table's entry, and what follows its equals sign. -/
def entryName (cs : List Char) : Option (String × List Char) := do
  let (name, rest) ←
    match skip cs with
    | '"' :: cs => quoted cs
    | cs =>
      let name := cs.takeWhile isNameChar
      if name.isEmpty then none else some (String.ofList name, cs.dropWhile isNameChar)
  match skip rest with
  | '=' :: rest => some (name, rest)
  | _ => none

mutual

/-- The value at the start of a text, and what follows it and its blanks. -/
def value : Nat → List Char → Option (Value × List Char)
  | 0, _ => none
  | fuel + 1, cs => do
    let (v, rest) ←
      match skip cs with
      | 't' :: 'r' :: 'u' :: 'e' :: rest => some (.bool true, rest)
      | 'f' :: 'a' :: 'l' :: 's' :: 'e' :: rest => some (.bool false, rest)
      | '\x7b' :: rest => entries fuel [] rest
      | '[' :: rest => items fuel [] rest
      | '"' :: rest => (quoted rest).map fun (s, rest) => (.string s, rest)
      | '\'' :: c :: '\'' :: rest => some (.string (String.singleton c), rest)
      | '\'' :: _ => none
      | cs => some (word (cs.takeWhile (!isSeparator ·)), cs.dropWhile (!isSeparator ·))
    some (v, skip rest)

/-- The rest of a list; a comma may stand before its end. -/
def items : Nat → List Value → List Char → Option (Value × List Char)
  | 0, _, _ => none
  | _ + 1, found, ']' :: rest => some (.array found, rest)
  | fuel + 1, found, cs => do
    let (v, rest) ← value fuel cs
    match rest with
    | ']' :: rest => some (.array (found ++ [v]), rest)
    | ',' :: rest => items fuel (found ++ [v]) rest
    | _ => none

def entries : Nat → List (String × Value) → List Char → Option (Value × List Char)
  | 0, _, _ => none
  | _ + 1, found, '\x7d' :: rest => some (.object found, rest)
  | fuel + 1, found, cs => do
    let (name, rest) ← entryName cs
    let (v, rest) ← value fuel rest
    match rest with
    | '\x7d' :: rest => some (.object (putMember name v found), rest)
    | ',' :: rest => entries fuel (putMember name v found) rest
    | _ => none

end

/-- The setting that a variable's text stands for. -/
def ofText (s : String) : Value :=
  match value (2 * s.length + 2) s.toList with
  | some (v, []) => v
  | _ => .string s

end Written

/-- The marks at which a name divides into its levels. -/
def levels (name : List Char) : List (List Char) :=
  let dotted := (String.ofList name).replace "__" "."
  (dotted.splitOn ".").map String.toList

/-- The value below a path; an empty level ends it. -/
def nest (v : Value) : List (List Char) → Value
  | [] => v
  | [] :: _ => v
  | level :: rest => .object [(String.ofList level, nest v rest)]

def variableMark : String := "taskhub_"

/-- The path of a variable whose name starts with the mark, in any letter case. -/
def path? (name : String) : Option (List (List Char)) :=
  let cs := (trimChars name.toList).map Char.toLower
  if variableMark.toList.isPrefixOf cs then
    let rest := trimChars (cs.drop variableMark.length)
    if rest.isEmpty then none else some (levels rest)
  else none

end Workboard.Config
