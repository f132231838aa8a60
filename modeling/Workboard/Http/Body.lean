import Workboard.Json.Fields

/-!
The body of requests that name a to-do: an object with a title, or an array that holds just the title. It
is read from left to right, and the first thing that is wrong decides how the body is refused.
-/

namespace Workboard

open Json

inductive BodyFault where
  | malformed
  /-- It is not a value of the right shape. -/
  | unfit
  deriving DecidableEq

namespace TitleBody

/-- How a value is refused that is no text: its shape counts as soon as it shows. -/
def refuse (bs : Bytes) : BodyFault :=
  match bs with
  | 0x5B :: _ => .unfit
  | 0x7B :: _ => .unfit
  | bs =>
    match readNode? 1 bs with
    | some (.number w, _) => if (Number.ofWritten? w).isSome then .unfit else .malformed
    | some (.string body, _) => if (textOfBody? body).isSome then .unfit else .malformed
    | some _ => .unfit
    | none => .malformed

def text (bs : Bytes) : Except BodyFault (String × Bytes) :=
  match skipSpace bs with
  | 0x22 :: rest =>
    match readString? rest with
    | some (body, rest) =>
      match textOfBody? body with
      | some s => .ok (s, rest)
      | none => .error .malformed
    | none => .error .malformed
  | bs => .error (refuse bs)

def afterColon (bs : Bytes) : Except BodyFault Bytes :=
  match skipSpace bs with
  | 0x3A :: rest => .ok rest
  | _ => .error .malformed

def key (bs : Bytes) : Except BodyFault (String × Bytes) :=
  match skipSpace bs with
  | 0x22 :: rest => text (0x22 :: rest)
  | _ => .error .malformed

/-- A value that nobody looks at has to be JSON only. -/
def skipValue (bs : Bytes) : Except BodyFault Bytes :=
  match readNode? (2 * bs.length + 1) bs with
  | some (_, rest) => .ok rest
  | none => .error .malformed

def titleName : String := "title"

/-- The members of an object; a title must be there, and only once. -/
def members : Nat → Option String → Bytes → Except BodyFault (String × Bytes)
  | 0, _, _ => .error .malformed
  | fuel + 1, title, bs => do
    let (name, rest) ← key bs
    let (title, rest) ←
      if name = titleName then
        if title.isSome then .error .unfit
        else do
          let (s, rest) ← text (← afterColon rest)
          .ok (some s, rest)
      else do
        let rest ← skipValue (← afterColon rest)
        .ok (title, rest)
    match skipSpace rest, title with
    | 0x2C :: rest, title => members fuel title rest
    | 0x7D :: rest, some s => .ok (s, rest)
    | 0x7D :: _, none => .error .unfit
    | _, _ => .error .malformed

def items (bs : Bytes) : Except BodyFault (String × Bytes) :=
  match skipSpace bs with
  | 0x5D :: _ => .error .unfit
  | bs => do
    let (s, rest) ← text bs
    match skipSpace rest with
    | 0x5D :: rest => .ok (s, rest)
    | _ => .error .malformed

def read (bs : Bytes) : Except BodyFault String := do
  let (s, rest) ←
    match skipSpace bs with
    | 0x7B :: rest =>
      match skipSpace rest with
      | 0x7D :: _ => .error .unfit
      | rest => members (rest.length + 1) none rest
    | 0x5B :: rest => items rest
    | bs => .error (refuse bs)
  if (skipSpace rest).isEmpty then .ok s else .error .malformed

end TitleBody

end Workboard
