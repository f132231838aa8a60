import Workboard.Cache.Error
import Workboard.KeyValue.Server
import Workboard.Width

/-!
The cache store on a key-value server: values live for a time, tags are sets, and counters are numbers
that the server adds to.
-/

namespace Workboard.KeyValue.Store

open KeyValue

/-- Times are given in nanoseconds and sent in whole milliseconds, of which there is at least one. -/
def milliseconds (ttl : Nat) : Nat := min (max (ttl / 1000000) 1) (Width.count 64 - 1)

def refused : CacheError := .store "the server replied with an error"

def unexpected : CacheError := .store "the reply has another type"

/-- Sends a command and reads its reply. -/
def call {α : Type} (s : Server) (c : Command) (read : Reply → Option α) : Except CacheError α × Server :=
  let (r, s) := s.reply c
  match r with
  | .error _ => (.error refused, s)
  | r =>
    match read r with
    | some a => (.ok a, s)
    | none => (.error unexpected, s)

def text? : Reply → Option (Option Bytes)
  | .nothing => some none
  | .text b => some (some b)
  | _ => none

def any (_ : Reply) : Option Unit := some ()

def number? : Reply → Option Int
  | .number n => some n
  | .text b => Server.number? b
  | _ => none

/-- A number that may not be there. -/
def count? : Reply → Option Int
  | .nothing => some 0
  | r => number? r

def names? : Reply → Option (List String)
  | .texts items => items.mapM Bytes.text?
  | .nothing => some []
  | _ => none

def get (s : Server) (key : String) : Except CacheError (Option Bytes) × Server :=
  call s (.get key) text?

def set (s : Server) (key : String) (value : Bytes) (ttl : Nat) : Except CacheError Unit × Server :=
  call s (.set key value (milliseconds ttl)) any

/-- Nothing is sent for no keys. -/
def delete (s : Server) (keys : List String) : Except CacheError Unit × Server :=
  if keys.isEmpty then (.ok (), s) else call s (.del keys) any

def isError : Reply → Bool
  | .error _ => true
  | _ => false

/-- Whether a transaction went through: no command of it failed. -/
def wentThrough (rs : List Reply) : Bool :=
  !rs.any isError &&
    match rs.getLast? with
    | some (.replies inner) => !inner.any isError
    | some (.texts _) => true
    | some .nothing => true
    | _ => false

/-- Adds a key to a tag and sets the tag's time anew, both or neither. -/
def addToTag (s : Server) (tag key : String) (ttl : Nat) : Except CacheError Unit × Server :=
  let (rs, s) := s.replyAll [.multi, .sadd tag key, .pexpire tag (milliseconds ttl), .exec]
  (if wentThrough rs then .ok () else .error refused, s)

def tagMembers (s : Server) (tag : String) : Except CacheError (List String) × Server :=
  call s (.smembers tag) names?

def incr (s : Server) (key : String) : Except CacheError Int × Server := call s (.incr key) number?

/-- A counter that does not exist counts as zero. -/
def counter (s : Server) (key : String) : Except CacheError Int × Server := call s (.get key) count?

end Workboard.KeyValue.Store
