import Workboard.Config.Variable

/-!
Settings written as a YAML document: block and flow collections, plain and quoted scalars, and block
scalars. Anchors, tags and documents after the first are refused.
-/

namespace Workboard.Config.Yaml

open Json

/-- A line with its indentation taken off. -/
structure Line where
  indent : Nat
  text : List Char

namespace Line

def ofChars (cs : List Char) : Line :=
  ⟨(cs.takeWhile (· = ' ')).length, cs.dropWhile (· = ' ')⟩

def toChars (l : Line) : List Char := List.replicate l.indent ' ' ++ l.text

end Line

def isGap (c : Char) : Bool := c == ' ' || c == '\t'

def isBreak (c : Char) : Bool := c == '\n' || c == '\r'

/-- The lines of a text, ended by a line feed, a carriage return or both. -/
def splitLines (current : List Char) : List Char → List (List Char)
  | [] => [current.reverse]
  | '\r' :: '\n' :: cs => current.reverse :: splitLines [] cs
  | c :: cs => if isBreak c then current.reverse :: splitLines [] cs else splitLines (c :: current) cs

def linesOf (cs : List Char) : List Line := (splitLines [] cs).map .ofChars

/-- The text of a place in the middle of a line and of the lines after it. -/
def joined (text : List Char) (ls : List Line) : List Char :=
  text ++ ls.flatMap fun l => '\n' :: l.toChars

def isVoid (cs : List Char) : Bool :=
  match cs.dropWhile isGap with
  | [] => true
  | c :: _ => c == '#'

/-- The lines after the rest of a line that must be void. -/
def afterVoid (cs : List Char) : Option (List Line) :=
  let rest := cs.takeWhile (!isBreak ·)
  if !isVoid rest || (rest.head? == some '#') then none
  else
    match cs.dropWhile (!isBreak ·) with
    | [] => some []
    | _ :: cs => some (linesOf cs)

def skipVoid (ls : List Line) : List Line := ls.dropWhile fun l => isVoid l.text

/-- Whether a text ends here for what stands before it: nothing or white space follows. -/
def endsHere : List Char → Bool
  | [] => true
  | c :: _ => isGap c || isBreak c

def isItem : List Char → Bool
  | '-' :: cs => endsHere cs
  | _ => false

/-- What a plain scalar must not start with. -/
def isIndicator (c : Char) : Bool := ",[]\x7b\x7d#&*!|>'\"%@`".toList.contains c

def startsPlain : List Char → Bool
  | [] => false
  | c :: cs =>
    if c == '-' || c == '?' || c == ':' then !endsHere cs
    else !isIndicator c

/-- The plain text of a line before a comment. -/
def beforeComment : List Char → List Char
  | [] => []
  | c :: cs =>
    if isGap c && cs.head? == some '#' then [] else c :: beforeComment cs

/-- Divides a text at the first colon that white space follows. -/
def atColon : List Char → Option (List Char × List Char)
  | [] => none
  | c :: cs =>
    if c = ':' ∧ endsHere cs then some ([], cs)
    else (atColon cs).map fun (before, after) => (c :: before, after)

def trimGaps (cs : List Char) : List Char :=
  ((cs.dropWhile isGap).reverse.dropWhile isGap).reverse

def isNull (s : String) : Bool := ["", "~", "null", "Null", "NULL"].contains s

def bool? (s : String) : Option Bool :=
  if ["true", "True", "TRUE"].contains s then some true
  else if ["false", "False", "FALSE"].contains s then some false
  else none

def digitsIn? (base : Nat) (cs : List Char) : Option Nat :=
  if cs.isEmpty then none
  else
    (cs.mapM hexValue?).bind fun ds =>
      if ds.all (· < base) then some (ofDigits base 0 ds) else none

/-- Digits behind a leading zero make a text. -/
def hasLeadingZero : List Char → Bool
  | '0' :: c :: cs => (c :: cs).all Char.isDigit
  | _ => false

def unsigned? : List Char → Option Nat
  | '0' :: 'x' :: cs => digitsIn? 16 cs
  | '0' :: 'o' :: cs => digitsIn? 8 cs
  | '0' :: 'b' :: cs => digitsIn? 2 cs
  | cs => if hasLeadingZero cs then none else digitsIn? 10 cs

/-- Whole numbers are decimal, hexadecimal, octal or binary. -/
def whole? : List Char → Option Int
  | '-' :: cs => (unsigned? cs).map fun n => -(n : Int)
  | '+' :: cs => (unsigned? cs).map fun n => (n : Int)
  | cs => (unsigned? cs).map fun n => (n : Int)

def special? (s : String) : Option Float :=
  if [".inf", ".Inf", ".INF", "+.inf", "+.Inf", "+.INF"].contains s then some (1.0 / 0.0)
  else if ["-.inf", "-.Inf", "-.INF"].contains s then some (-1.0 / 0.0)
  else if [".nan", ".NaN", ".NAN"].contains s then some (0.0 / 0.0)
  else none

/-- Numbers with a point or an exponent that a double can hold. -/
def real? (cs : List Char) : Option Float :=
  match special? (String.ofList cs) with
  | some f => some f
  | none =>
    let digits := if cs.head? == some '-' || cs.head? == some '+' then cs.drop 1 else cs
    if hasLeadingZero digits then none
    else ((Decimal.Numeral.ofChars? cs).map (·.toFloat)).filter (·.isFinite)

def plainValue (cs : List Char) : Value :=
  let s := String.ofList cs
  if isNull s then .null
  else
    match bool? s, whole? cs, real? cs with
    | some b, _, _ => .bool b
    | none, some n, _ => .int n
    | none, none, some f => .number (.real f.toBits)
    | none, none, none => .string s

/-- Takes the line breaks at the start of a text: one is a space, and of more than one the first is
left out. -/
def fold (cs : List Char) : List Char × List Char :=
  let gap := cs.takeWhile fun c => isGap c || isBreak c
  let breaks := (gap.filter isBreak).length
  let folded := if breaks ≤ 1 then [' '] else List.replicate (breaks - 1) '\n'
  (folded, cs.dropWhile fun c => isGap c || isBreak c)

/-- Whether blanks and then a line break come next. -/
def breaksNext (cs : List Char) : Bool := ((cs.dropWhile isGap).head?.map isBreak).getD false

/-- A text in single quotes after its opening one; a quote inside is written twice. -/
def single : Nat → List Char → Option (List Char × List Char)
  | 0, _ => none
  | _ + 1, [] => none
  | fuel + 1, '\'' :: '\'' :: cs => (single fuel cs).map fun (t, rest) => ('\'' :: t, rest)
  | _ + 1, '\'' :: cs => some ([], cs)
  | fuel + 1, c :: cs =>
    if breaksNext (c :: cs) then
      let (folded, rest) := fold (c :: cs)
      (single fuel rest).map fun (t, rest) => (folded ++ t, rest)
    else (single fuel cs).map fun (t, rest) => (c :: t, rest)

def escape? : Char → Option Char
  | '0' => some '\x00'
  | 'a' => some '\x07'
  | 'b' => some '\x08'
  | 't' => some '\t'
  | '\t' => some '\t'
  | 'n' => some '\n'
  | 'v' => some '\x0b'
  | 'f' => some '\x0c'
  | 'r' => some '\r'
  | 'e' => some '\x1b'
  | ' ' => some ' '
  | '"' => some '"'
  | '/' => some '/'
  | '\\' => some '\\'
  | 'N' => some '\u0085'
  | '_' => some '\u00a0'
  | 'L' => some '\u2028'
  | 'P' => some '\u2029'
  | _ => none

/-- How many hexadecimal digits follow the letter of an escape. -/
def codeWidth? : Char → Option Nat
  | 'x' => some 2
  | 'u' => some 4
  | 'U' => some 8
  | _ => none

/-- A text in double quotes after its opening one. -/
def double : Nat → List Char → Option (List Char × List Char)
  | 0, _ => none
  | _ + 1, [] => none
  | _ + 1, '"' :: cs => some ([], cs)
  | _ + 1, ['\\'] => none
  | fuel + 1, '\\' :: e :: cs =>
    if isBreak e then
      let rest := cs.dropWhile fun c => isGap c || isBreak c
      double fuel rest
    else
      match codeWidth? e with
      | some width => do
        let c ← Written.coded? width cs
        (double fuel (cs.drop width)).map fun (t, rest) => (c :: t, rest)
      | none => do
        let c ← escape? e
        (double fuel cs).map fun (t, rest) => (c :: t, rest)
  | fuel + 1, c :: cs =>
    if breaksNext (c :: cs) then
      let (folded, rest) := fold (c :: cs)
      (double fuel rest).map fun (t, rest) => (folded ++ t, rest)
    else (double fuel cs).map fun (t, rest) => (c :: t, rest)

/-- A text in quotes of either kind, and what follows it. -/
def quoted? : List Char → Option (List Char × List Char)
  | '\'' :: cs => single (cs.length + 1) cs
  | '"' :: cs => double (cs.length + 1) cs
  | _ => none

/-- The key at the start of a line, and what follows its colon. -/
def key? (text : List Char) : Option (String × List Char) :=
  match quoted? text with
  | some (name, rest) =>
    match rest.dropWhile isGap with
    | ':' :: after => if endsHere after then some (String.ofList name, after) else none
    | _ => none
  | none =>
    if !startsPlain text then none
    else
      match atColon (beforeComment text) with
      | some (name, _) => some (String.ofList (trimGaps name), text.drop (name.length + 1))
      | none => none

/-- White space and comments between the parts of a flow collection. -/
def skipFlow (afterGap : Bool) : List Char → List Char
  | [] => []
  | c :: cs =>
    if isGap c || isBreak c then skipFlow true cs
    else if c = '#' ∧ afterGap then dropComment cs
    else c :: cs
where
  dropComment : List Char → List Char
  | [] => []
  | c :: cs => if isBreak c then skipFlow true cs else dropComment cs

def isFlowMark (c : Char) : Bool :=
  c == ',' || c == '[' || c == ']' || c == '\x7b' || c == '\x7d'

/-- A plain scalar inside a flow collection on one line. -/
def flowPlain : List Char → List Char × List Char
  | [] => ([], [])
  | c :: cs =>
    if isFlowMark c || isBreak c || (c == ':' && endsHere cs) || (isGap c && cs.head? == some '#') then
      ([], c :: cs)
    else
      let (word, rest) := flowPlain cs
      (c :: word, rest)

/-- A scalar inside a flow collection: its text, whether it is plain, and what follows. -/
def flowScalar (cs : List Char) : Option (List Char × Bool × List Char) :=
  match quoted? cs with
  | some (t, rest) => some (t, false, rest)
  | none =>
    if !startsPlain cs then none
    else
      let (word, rest) := flowPlain cs
      some (trimGaps word, true, rest)

def scalarValue (t : List Char) (plain : Bool) : Value :=
  if plain then plainValue t else .string (String.ofList t)

/-- Whether a colon that divides key and value comes next. -/
def afterFlowColon? (plain : Bool) (cs : List Char) : Option (List Char) :=
  match skipFlow false cs with
  | ':' :: rest => if !plain || endsHere rest || (rest.head?.map isFlowMark).getD false then some rest else none
  | _ => none

mutual

/-- A value inside a flow collection, or a collection itself. -/
def flow : Nat → List Char → Option (Value × List Char)
  | 0, _ => none
  | fuel + 1, cs =>
    match cs with
    | '[' :: cs => flowItems fuel [] cs
    | '\x7b' :: cs => flowMembers fuel [] cs
    | cs => (flowScalar cs).map fun (t, plain, rest) => (scalarValue t plain, rest)

def flowItems : Nat → List Value → List Char → Option (Value × List Char)
  | 0, _, _ => none
  | fuel + 1, found, cs =>
    match skipFlow true cs with
    | ']' :: rest => some (.array found, rest)
    | cs => do
      let (v, rest) ← flowEntry fuel cs
      match skipFlow false rest with
      | ',' :: rest => flowItems fuel (found ++ [v]) rest
      | ']' :: rest => some (.array (found ++ [v]), rest)
      | _ => none

/-- An item of a list; a key with a value is a table of one member. -/
def flowEntry : Nat → List Char → Option (Value × List Char)
  | 0, _ => none
  | fuel + 1, cs =>
    match flowScalar cs with
    | none => flow fuel cs
    | some (t, plain, rest) =>
      match afterFlowColon? plain rest with
      | none => some (scalarValue t plain, rest)
      | some rest => (flowValue fuel rest).map fun (v, rest) => (.object [(String.ofList t, v)], rest)

/-- What follows a colon: a value, or nothing before the entry ends. -/
def flowValue : Nat → List Char → Option (Value × List Char)
  | 0, _ => none
  | fuel + 1, cs =>
    match skipFlow true cs with
    | [] => none
    | c :: cs =>
      if c == ',' || c == ']' || c == '\x7d' then some (.null, c :: cs) else flow fuel (c :: cs)

def flowMembers : Nat → List (String × Value) → List Char → Option (Value × List Char)
  | 0, _, _ => none
  | fuel + 1, found, cs =>
    match skipFlow true cs with
    | '\x7d' :: rest => some (.object found, rest)
    | cs => do
      let (t, plain, rest) ← flowScalar cs
      let (v, rest) ←
        match afterFlowColon? plain rest with
        | none => some (.null, rest)
        | some rest => flowValue fuel rest
      let found := putMember (String.ofList t) v found
      match skipFlow false rest with
      | ',' :: rest => flowMembers fuel found rest
      | '\x7d' :: rest => some (.object found, rest)
      | _ => none

end

/-- How a block scalar ends: with one line feed, with none, or with all of them. -/
inductive Chomping where
  | clip
  | strip
  | keep

/-- The header of a block scalar: chomping and extra indentation in either order. -/
def header? (cs : List Char) : Option (Chomping × Option Nat) :=
  let marks := cs.takeWhile fun c => !isGap c
  let rest := cs.dropWhile fun c => !isGap c
  let width? (c : Char) : Option Nat := (digitValue? c).filter (0 < ·)
  let chomping? (c : Char) : Option Chomping :=
    if c = '-' then some .strip else if c = '+' then some .keep else none
  if !isVoid rest then none
  else
    match marks with
    | [] => some (.clip, none)
    | [a] =>
      match chomping? a with
      | some k => some (k, none)
      | none => (width? a).map fun w => (.clip, some w)
    | [a, b] =>
      match chomping? a with
      | some k => (width? b).map fun w => (k, some w)
      | none => do some (← chomping? b, some (← width? a))
    | _ => none

/-- The lines of a block scalar without their common indentation. -/
def blockLines (indent : Nat) : List Line → List (List Char) × List Line
  | [] => ([], [])
  | l :: ls =>
    if l.text.isEmpty || indent ≤ l.indent then
      let (taken, rest) := blockLines indent ls
      (l.toChars.drop indent :: taken, rest)
    else ([], l :: ls)

/-- Joins folded lines: single breaks between lines that are not indented become spaces. -/
def foldLines : List (List Char) → List Char
  | [] => []
  | [a] => a
  | a :: b :: ls =>
    let indented (l : List Char) : Bool := (l.head?.map isGap).getD false
    if a.isEmpty then '\n' :: foldLines (b :: ls)
    else if b.isEmpty then
      if indented a then a ++ '\n' :: foldLines (b :: ls) else a ++ foldLines (b :: ls)
    else if indented a || indented b then a ++ '\n' :: foldLines (b :: ls)
    else a ++ ' ' :: foldLines (b :: ls)

/-- The text of a block scalar whose lines follow its header. -/
def blockScalar (folded : Bool) (least : Nat) (mark : List Char) (ls : List Line) :
    Option (Value × List Line) := do
  let (chomping, width) ← header? mark
  let first := (ls.dropWhile (·.text.isEmpty)).head?.map (·.indent)
  let indent := match width with
    | some w => least - 1 + w
    | none => max (max 1 least) (first.getD 0)
  let (taken, rest) := blockLines indent ls
  let body := (taken.reverse.dropWhile List.isEmpty).reverse
  let extra := taken.length - body.length
  let text := if folded then foldLines body else ['\n'].intercalate body
  let ended := match chomping with
    | .strip => text
    | .clip => if body.isEmpty then [] else text ++ ['\n']
    | .keep => if body.isEmpty then List.replicate extra '\n' else text ++ List.replicate (extra + 1) '\n'
  some (.string (String.ofList ended), rest)

/-- The further lines of a plain scalar, which are indented and hold no key. -/
def plainLines (least blanks : Nat) (text : List Char) : List Line → Option (List Char × List Line)
  | [] => some (text, [])
  | l :: ls =>
    if l.text.isEmpty then plainLines least (blanks + 1) text ls
    else if l.indent < least ∨ l.text.head? = some '#' then some (text, l :: ls)
    else if (atColon (beforeComment l.text)).isSome then none
    else
      let gap := if blanks = 0 then [' '] else List.replicate blanks '\n'
      let more := trimGaps (beforeComment l.text)
      let hasComment := (beforeComment l.text).length < l.text.length
      if hasComment then some (text ++ gap ++ more, ls) else plainLines least 0 (text ++ gap ++ more) ls

/-- A scalar or flow collection that starts in a line. -/
def inline (least : Nat) (text : List Char) (ls : List Line) : Option (Value × List Line) :=
  match text with
  | '|' :: mark => blockScalar false least mark ls
  | '>' :: mark => blockScalar true least mark ls
  | '[' :: _ | '\x7b' :: _ => do
    let all := joined text ls
    let (v, rest) ← flow (4 * all.length + 4) all
    some (v, ← afterVoid rest)
  | '\'' :: _ | '"' :: _ => do
    let (t, rest) ← quoted? (joined text ls)
    some (.string (String.ofList t), ← afterVoid rest)
  | _ =>
    if !startsPlain text then none
    else
      let line := beforeComment text
      if (atColon line).isSome then none
      else if line.length < text.length then some (plainValue (trimGaps line), ls)
      else (plainLines least 0 (trimGaps line) ls).map fun (t, rest) => (plainValue t, rest)

mutual

/-- The node in the next lines that are indented by at least `least`. -/
def node : Nat → Nat → List Line → Option (Value × List Line)
  | 0, _, _ => none
  | fuel + 1, least, lines =>
    match skipVoid lines with
    | [] => some (.null, [])
    | l :: ls =>
      if l.indent < least then some (.null, l :: ls)
      else if (l.text.head?.map isGap).getD false then none
      else if isItem l.text then items fuel l.indent [] (l :: ls)
      else if (key? l.text).isSome then members fuel l.indent [] (l :: ls)
      else inline least l.text ls

/-- The items of a block list at one indentation. -/
def items : Nat → Nat → List Value → List Line → Option (Value × List Line)
  | 0, _, _, _ => none
  | fuel + 1, indent, found, lines =>
    match skipVoid lines with
    | [] => some (.array found, [])
    | l :: ls =>
      if l.indent < indent ∨ (l.indent = indent ∧ !isItem l.text) then some (.array found, l :: ls)
      else if l.indent ≠ indent then none
      else do
        let rest := l.text.drop 1
        let gap := (rest.takeWhile (· = ' ')).length
        let own : List Line := if isVoid rest then [] else [⟨indent + 1 + gap, rest.drop gap⟩]
        let (v, ls) ← node fuel (indent + 1) (own ++ ls)
        items fuel indent (found ++ [v]) ls

/-- The members of a block table at one indentation; of two with one name the last counts. -/
def members : Nat → Nat → List (String × Value) → List Line → Option (Value × List Line)
  | 0, _, _, _ => none
  | fuel + 1, indent, found, lines =>
    match skipVoid lines with
    | [] => some (.object found, [])
    | l :: ls =>
      if l.indent < indent then some (.object found, l :: ls)
      else if l.indent ≠ indent then none
      else do
        let (name, rest) ← key? l.text
        let ownList := (skipVoid ls).head?.any fun l => l.indent = indent ∧ isItem l.text
        let (v, ls) ←
          if !isVoid rest then inline (indent + 1) (rest.dropWhile isGap) ls
          else if ownList then items fuel indent [] ls
          else node fuel (indent + 1) ls
        members fuel indent (putMember name v found) ls

end

def isMark (mark : List Char) (l : Line) : Bool :=
  l.indent == 0 && mark.isPrefixOf l.text && endsHere (l.text.drop 3)

def isStart (l : Line) : Bool := isMark ['-', '-', '-'] l

def isEnd (l : Line) : Bool := isMark ['.', '.', '.'] l

def isDirective (l : Line) : Bool := l.indent == 0 && l.text.head? == some '%'

def only? (ls : List Line) : Option (List Line) :=
  let directives := ls.takeWhile fun l => isVoid l.text || isDirective l
  let rest := ls.dropWhile fun l => isVoid l.text || isDirective l
  let content :=
    match rest with
    | l :: more =>
      if isStart l then some ((⟨3, l.text.drop 3⟩ : Line) :: more)
      else if directives.any isDirective then none
      else some (l :: more)
    | [] => if directives.any isDirective then none else some []
  content.bind fun ls =>
    let body := ls.takeWhile fun l => !isStart l && !isEnd l
    match ls.dropWhile fun l => !isStart l && !isEnd l with
    | [] => some body
    | l :: more => if isEnd l && more.all (fun l => isVoid l.text || isEnd l) then some body else none

def isPrintable (c : Char) : Bool :=
  let n := c.toNat
  n == 0x9 || n == 0xA || n == 0xD || (0x20 ≤ n && n ≤ 0x7E) || n == 0x85 ||
    (0xA0 ≤ n && n ≤ 0xFFFD && n != 0xFEFF) || 0x10000 ≤ n

/-- The table that a document holds; an empty document is an empty table. -/
def table? (s : String) : Option Value := do
  let cs := s.toList
  let cs := if cs.head? == some '\uFEFF' then cs.drop 1 else cs
  if !cs.all isPrintable then none
  else
    let ls ← only? (linesOf cs)
    if (skipVoid ls).isEmpty then some (.object [])
    else
      let (v, rest) ← node (4 * cs.length + 16) 0 ls
      match v, skipVoid rest with
      | .object ms, [] => some (.object ms)
      | _, _ => none

end Workboard.Config.Yaml
