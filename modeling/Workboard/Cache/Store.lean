import Workboard.Cache.Error
import Workboard.Fault
import Workboard.Text.Basic
import Workboard.Width

/-!
A store of cached values, of tags that name sets of keys, and of counters. Values and tags live until
their time; a counter lives until it is deleted. A call that gives a time whose end the clock cannot name
breaks off.
-/

namespace Workboard

inductive CacheCall where
  | get
  | set
  | delete
  | addToTag
  | tagMembers
  | incr
  | counter
  deriving DecidableEq

namespace CacheCall

def name : CacheCall → String
  | .get => "get"
  | .set => "set"
  | .delete => "delete"
  | .addToTag => "add_to_tag"
  | .tagMembers => "tag_members"
  | .incr => "incr"
  | .counter => "counter"

def all : List CacheCall := [.get, .set, .delete, .addToTag, .tagMembers, .incr, .counter]

end CacheCall

/-- Something that can be read before a point of time. -/
structure Expiring (α : Type) where
  content : α
  expires : Nat

/-- Entries by key; at most one for each. -/
abbrev Entries (α : Type) := List (String × α)

namespace Entries

variable {α : Type}

def get? (m : Entries α) (key : String) : Option α := (m.find? fun e => e.1 = key).map (·.2)

def erase (m : Entries α) (key : String) : Entries α := m.filter fun e => e.1 ≠ key

def insert (m : Entries α) (key : String) (a : α) : Entries α := (key, a) :: m.erase key

end Entries

structure MemoryStore where
  values : Entries (Expiring Bytes)
  tags : Entries (Expiring (List String))
  counters : Entries Int
  failing : Bool
  faults : Faults CacheCall

namespace MemoryStore

def empty : MemoryStore := ⟨[], [], [], false, .none⟩

/-- How many values are held, those whose time is over included. -/
def size (s : MemoryStore) : Nat := s.values.length

/-- Whether a value can be read under a key. -/
def contains (s : MemoryStore) (now : Nat) (key : String) : Bool :=
  match s.values.get? key with
  | some v => decide (now < v.expires)
  | none => false

/-- The error that a call meets now, if it is to fail. -/
def check (s : MemoryStore) (call : CacheCall) : Except CacheError Unit × MemoryStore :=
  let (hit, faults) := s.faults.strike call
  let s := { s with faults := faults }
  if hit then (.error (.store (call.name ++ " unavailable")), s)
  else if s.failing then (.error (.store "memory cache unavailable"), s)
  else (.ok (), s)

/-- Runs a call unless it is to fail. -/
def guarded {α : Type} (s : MemoryStore) (call : CacheCall) (run : MemoryStore → α × MemoryStore) :
    Except CacheError α × MemoryStore :=
  match s.check call with
  | (.error e, s) => (.error e, s)
  | (.ok (), s) => let (a, s) := run s; (.ok a, s)

/-- Runs a call that may break off, unless it is to fail. -/
def risked {α : Type} (s : MemoryStore) (call : CacheCall)
    (run : MemoryStore → Ending CacheError α × MemoryStore) : Ending CacheError α × MemoryStore :=
  match s.check call with
  | (.error e, s) => (.failed e, s)
  | (.ok (), s) => run s

/-- The clock counts seconds in 63 bits. This is the first millisecond that it cannot name. -/
def horizon : Nat := Width.count 63 * 1000

/-- What is said of a time whose end the clock cannot name. -/
def pastHorizon : String := "overflow when adding duration to instant"

/-- A value whose time is over is removed when it is looked for. -/
def read (now : Nat) (key : String) (s : MemoryStore) : Option Bytes × MemoryStore :=
  match s.values.get? key with
  | some v =>
    if now < v.expires then (some v.content, s) else (none, { s with values := s.values.erase key })
  | none => (none, s)

def get (s : MemoryStore) (now : Nat) (key : String) :
    Except CacheError (Option Bytes) × MemoryStore :=
  s.guarded .get (read now key)

def set (s : MemoryStore) (now : Nat) (key : String) (value : Bytes) (ttl : Nat) :
    Ending CacheError Unit × MemoryStore :=
  s.risked .set fun s =>
    if now + ttl < horizon then
      (.returned (), { s with values := s.values.insert key ⟨value, now + ttl⟩ })
    else (.panicked pastHorizon, s)

/-- Removes whatever has the name, be it a value, a tag or a counter. -/
def remove (s : MemoryStore) (key : String) : MemoryStore :=
  { s with
    values := s.values.erase key
    tags := s.tags.erase key
    counters := s.counters.erase key }

def delete (s : MemoryStore) (keys : List String) : Except CacheError Unit × MemoryStore :=
  s.guarded .delete fun s => ((), keys.foldl remove s)

/-- The members of a tag that are still known. -/
def members (s : MemoryStore) (now : Nat) (tag : String) : List String :=
  match s.tags.get? tag with
  | some t => if now < t.expires then t.content else []
  | none => []

/-- The members of a tag once a key has joined those that are still known. -/
def joined (s : MemoryStore) (now : Nat) (tag key : String) : List String :=
  let held := s.members now tag
  if held.contains key then held else held ++ [key]

/-- Adds a key to a tag and sets the tag's time anew. The key is there before the time is set: where the end of
that time cannot be named the tag keeps the time that it had, which for a new tag is over. -/
def addToTag (s : MemoryStore) (now : Nat) (tag key : String) (ttl : Nat) :
    Ending CacheError Unit × MemoryStore :=
  s.risked .addToTag fun s =>
    let held := s.joined now tag key
    if now + ttl < horizon then (.returned (), { s with tags := s.tags.insert tag ⟨held, now + ttl⟩ })
    else
      let expires := (s.tags.get? tag).elim now (·.expires)
      (.panicked pastHorizon, { s with tags := s.tags.insert tag ⟨held, expires⟩ })

def tagMembers (s : MemoryStore) (now : Nat) (tag : String) :
    Except CacheError (List String) × MemoryStore :=
  s.guarded .tagMembers fun s => (s.members now tag, s)

/-- A counter that does not exist counts as zero. -/
def count (s : MemoryStore) (key : String) : Int := (s.counters.get? key).getD 0

def incr (s : MemoryStore) (key : String) : Except CacheError Int × MemoryStore :=
  s.guarded .incr fun s =>
    (s.count key + 1, { s with counters := s.counters.insert key (s.count key + 1) })

def counter (s : MemoryStore) (key : String) : Except CacheError Int × MemoryStore :=
  s.guarded .counter fun s => (s.count key, s)

end MemoryStore

end Workboard
