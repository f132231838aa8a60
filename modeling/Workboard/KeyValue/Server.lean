import Workboard.Fault
import Workboard.Text.Basic
import Workboard.Width

/-!
A key-value server as its clients see it: commands with their replies over texts, sets and counters, and
transactions whose replies come together at their end.
-/

namespace Workboard.KeyValue

inductive Command where
  | get (key : String)
  | set (key : String) (value : Bytes) (ttl : Nat)
  | del (keys : List String)
  | multi
  | sadd (key item : String)
  | pexpire (key : String) (ttl : Nat)
  | exec
  | smembers (key : String)
  | incr (key : String)
  | publish (channel : String) (payload : Bytes)
  | subscribe (channels : List String)

namespace Command

def name : Command → String
  | .get _ => "GET"
  | .set _ _ _ => "SET"
  | .del _ => "DEL"
  | .multi => "MULTI"
  | .sadd _ _ => "SADD"
  | .pexpire _ _ => "PEXPIRE"
  | .exec => "EXEC"
  | .smembers _ => "SMEMBERS"
  | .incr _ => "INCR"
  | .publish _ _ => "PUBLISH"
  | .subscribe _ => "SUBSCRIBE"

def natBytes (n : Nat) : Bytes := Bytes.ofText (String.ofList (decimal n))

def arguments : Command → List Bytes
  | .get key => [Bytes.ofText key]
  | .set key value ttl => [Bytes.ofText key, value, Bytes.ofText "PX", natBytes ttl]
  | .del keys => keys.map Bytes.ofText
  | .multi => []
  | .sadd key item => [Bytes.ofText key, Bytes.ofText item]
  | .pexpire key ttl => [Bytes.ofText key, natBytes ttl]
  | .exec => []
  | .smembers key => [Bytes.ofText key]
  | .incr key => [Bytes.ofText key]
  | .publish channel payload => [Bytes.ofText channel, payload]
  | .subscribe channels => channels.map Bytes.ofText

def toWords (c : Command) : List Bytes := Bytes.ofText c.name :: c.arguments

end Command

inductive Reply where
  | done
  | nothing
  | number (n : Int)
  | text (b : Bytes)
  | texts (items : List Bytes)
  | error (message : String)
  | replies (rs : List Reply)

inductive Held where
  | text (b : Bytes)
  | items (items : List String)

structure Server where
  held : List (String × Held)
  /-- Replies of the transaction that is open. -/
  transaction : Option (List Reply)
  /-- How many subscribers a publisher is told of. -/
  receivers : Nat
  /-- Commands to fail, and commands to answer with a list in place of their own reply. -/
  faults : Faults String
  oddities : Faults String
  /-- What was received, the latest first. -/
  log : List Command

namespace Server

def empty : Server := ⟨[], none, 0, .none, .none, []⟩

def find? (s : Server) (key : String) : Option Held := (s.held.find? fun e => e.1 = key).map (·.2)

def put (s : Server) (key : String) (h : Held) : Server :=
  { s with held := (key, h) :: s.held.filter fun e => e.1 ≠ key }

def remove (s : Server) (key : String) : Server :=
  { s with held := s.held.filter fun e => e.1 ≠ key }

def wrongType : Reply := .error "WRONGTYPE"

/-- The whole number of 64 bits that a text spells. -/
def number? (b : Bytes) : Option Int :=
  (Bytes.text? b).bind fun s =>
    (intOfDecimal? s.toList).filter (Width.fitsSigned 64)

def numberBytes (n : Int) : Bytes :=
  Bytes.ofText (String.ofList ((if n < 0 then ['-'] else []) ++ decimal n.natAbs))

def insertSorted (item : String) : List String → List String
  | [] => [item]
  | x :: xs => if item = x then x :: xs else if item < x then item :: x :: xs else x :: insertSorted item xs

/-- Runs a command that is neither failing nor about transactions. -/
def run (s : Server) : Command → Reply × Server
  | .get key =>
    match s.find? key with
    | some (.text b) => (.text b, s)
    | some (.items _) => (wrongType, s)
    | none => (.nothing, s)
  | .set key value _ => (.done, s.put key (.text value))
  | .del keys =>
    let found := (s.held.filter fun e => keys.contains e.1).length
    (.number found, keys.foldl remove s)
  | .sadd key item =>
    match s.find? key with
    | some (.items items) =>
      (.number (if items.contains item then 0 else 1), s.put key (.items (insertSorted item items)))
    | some (.text _) => (wrongType, s)
    | none => (.number 1, s.put key (.items [item]))
  | .pexpire key _ => (.number (if (s.find? key).isSome then 1 else 0), s)
  | .smembers key =>
    match s.find? key with
    | some (.items items) => (.texts (items.map Bytes.ofText), s)
    | some (.text _) => (wrongType, s)
    | none => (.texts [], s)
  | .incr key =>
    match s.find? key with
    | some (.items _) => (wrongType, s)
    | some (.text b) =>
      match number? b with
      | some n =>
        if Width.fitsSigned 64 (n + 1) then (.number (n + 1), s.put key (.text (numberBytes (n + 1))))
        else (.error "ERR increment would overflow", s)
      | none => (.error "ERR value is not an integer", s)
    | none => (.number 1, s.put key (.text (numberBytes 1)))
  | .publish _ _ => (.number s.receivers, s)
  | .subscribe _ => (.done, s)
  | .multi => (.done, { s with transaction := some [] })
  | .exec =>
    match s.transaction with
    | some rs => (.replies rs, { s with transaction := none })
    | none => (.error "ERR EXEC without MULTI", s)

/-- What a command that was told to misbehave replies; the end of a transaction discards it. -/
def disturbed? (s : Server) (c : Command) : Option (Reply × Server) :=
  let closed (s : Server) : Server := match c with
    | .exec => { s with transaction := none }
    | _ => s
  match s.faults.strike c.name with
  | (true, faults) => some (.error "ERR fault", closed { s with faults := faults })
  | (false, _) =>
    match s.oddities.strike c.name with
    | (true, faults) => some (.texts [Bytes.ofText "x"], closed { s with oddities := faults })
    | (false, _) => none

/-- Within a transaction the reply of a command waits for its end. -/
def reply (s : Server) (c : Command) : Reply × Server :=
  let s := { s with log := c :: s.log }
  let (r, s') := (s.disturbed? c).getD (s.run c)
  match c, s.transaction with
  | .exec, _ => (r, s')
  | .multi, _ => (r, s')
  | _, some rs => (.done, { s' with transaction := some (rs ++ [r]) })
  | _, none => (r, s')

/-- The replies to commands that are sent together. -/
def replyAll (s : Server) : List Command → List Reply × Server
  | [] => ([], s)
  | c :: cs =>
    let (r, s) := s.reply c
    let (rs, s) := s.replyAll cs
    (r :: rs, s)

/-- What was received since the last time, in order. -/
def takeLog (s : Server) : List Command × Server := (s.log.reverse, { s with log := [] })

end Server

end Workboard.KeyValue
