import Workboard.Cache.Codec
import Workboard.Cache.SingleFlight
import Workboard.Cache.Store

/-!
Reading through a cache, under names that tell kinds of values apart. A read that finds nothing fetches the value,
gives it to the caller at once, and leaves a fill that stores it later. Changes invalidate keys. Each of these goes
step by step, so that the steps of several can come in any order.
-/

namespace Workboard

namespace CacheKey

def entity (kind id : String) : String := kind ++ ":" ++ id

/-- The key of an answer to a query; the order of the parameters counts. -/
def query (name : String) (params : List String) : String :=
  params.foldl (fun key p => key ++ ":" ++ p) ("q:" ++ name)

def tag (kind id : String) : String := "tag:" ++ kind ++ ":" ++ id

/-- The counter of committed changes in a scope. -/
def revision (scope : String) : String := "rev:" ++ scope

/-- A key below the first part that all keys of one cache share; an empty part is left out. -/
def full (root key : String) : String := if root.isEmpty then key else root ++ ":" ++ key

end CacheKey

/-- Values of type `α` are cached below one root. -/
structure CacheAside (α : Type) where
  store : MemoryStore
  root : String
  tagTtl : Nat
  /-- Counts invalidations. A fill that has seen an older number is given up. -/
  epoch : Nat
  flights : SingleFlight α
  hits : Nat
  misses : Nat

namespace CacheAside

variable {α : Type}

/-- Tags live an hour unless another time is given, in milliseconds. -/
def standardTagTtl : Nat := 3600000

def empty (root : String) (tagTtl : Nat) : CacheAside α :=
  ⟨.empty, root, tagTtl, 0, .empty, 0, 0⟩

def fullKey (c : CacheAside α) (key : String) : String := CacheKey.full c.root key

def revision (c : CacheAside α) (scope : String) : Except CacheError Int × CacheAside α :=
  let (r, store) := c.store.counter (c.fullKey (CacheKey.revision scope))
  (r, { c with store := store })

end CacheAside

/-- A value on its way into the cache, with full names. -/
structure Fill (α : Type) where
  key : String
  value : α
  codec : Codec α
  ttl : Nat
  tags : List String
  tagTtl : Nat
  observed : Nat

inductive FillPhase where
  | check
  | encode
  | set (bytes : Bytes)
  | tag (rest : List String)
  | done
  | panicked
  deriving DecidableEq

namespace Fill

variable {α : Type}

/-- One step of a fill. It ends early if something was invalidated since the miss, or at an error, and it breaks
off where the store does. -/
def step (f : Fill α) (now : Nat) (c : CacheAside α) : FillPhase → CacheAside α × FillPhase
  | .check => if c.epoch = f.observed then (c, .encode) else (c, .done)
  | .encode =>
    match f.codec.encode f.value with
    | .ok bytes => (c, .set bytes)
    | .error _ => (c, .done)
  | .set bytes =>
    match c.store.set now f.key bytes f.ttl with
    | (.returned (), store) => ({ c with store := store }, .tag f.tags)
    | (.failed _, store) => ({ c with store := store }, .done)
    | (.panicked _, store) => ({ c with store := store }, .panicked)
  | .tag [] => (c, .done)
  | .tag (t :: ts) =>
    match c.store.addToTag now t f.key f.tagTtl with
    | (.returned (), store) => ({ c with store := store }, .tag ts)
    | (.failed _, store) => ({ c with store := store }, .done)
    | (.panicked _, store) => ({ c with store := store }, .panicked)
  | .done => (c, .done)
  | .panicked => (c, .panicked)

def runTags (f : Fill α) (now : Nat) (c : CacheAside α) : List String → CacheAside α
  | [] => c
  | t :: ts =>
    match f.step now c (.tag (t :: ts)) with
    | (c, .tag _) => runTags f now c ts
    | (c, _) => c

/-- All steps of a fill. The clock shows `now` when the value is stored and `later` when it is tagged. -/
def runSlowly (f : Fill α) (now later : Nat) (c : CacheAside α) : CacheAside α :=
  match f.step now c .check with
  | (c, .encode) =>
    match f.step now c .encode with
    | (c, .set bytes) =>
      match f.step now c (.set bytes) with
      | (c, .tag ts) => f.runTags later c ts
      | (c, _) => c
    | (c, _) => c
  | (c, _) => c

/-- All steps of a fill without a pause. -/
def run (f : Fill α) (now : Nat) (c : CacheAside α) : CacheAside α := f.runSlowly now now c

end Fill

/-- What a caller asks of the cache. -/
structure Reading (α : Type) where
  key : String
  ttl : Nat
  codec : Codec α
  tagsFor : α → List String
  /-- Whether a value shared by another caller is of this caller's type. -/
  accepts : α → Bool

inductive ReadPhase (ε α : Type) where
  | lookup
  | observe
  /-- It joins those who read the same key, having seen a number of invalidations. -/
  | joined (observed : Nat) (phase : FlightPhase ε α)
  | hit (value : α)

namespace ReadPhase

variable {ε α : Type}

def result? : ReadPhase ε α → Option (Except ε α)
  | .hit a => some (.ok a)
  | .joined _ (.done r) => some r
  | _ => none

end ReadPhase

namespace Reading

variable {ε α : Type}

/-- Looks a key up. A value that cannot be read counts as missing. -/
def lookup (r : Reading α) (now : Nat) (c : CacheAside α) : Option α × CacheAside α :=
  let (found, store) := c.store.get now (c.fullKey r.key)
  let c := { c with store := store }
  match found with
  | .ok (some bytes) =>
    match r.codec.decode bytes with
    | .ok a => (some a, { c with hits := c.hits + 1 })
    | .error _ => (none, { c with misses := c.misses + 1 })
  | _ => (none, { c with misses := c.misses + 1 })

/-- One step of a read, unless it has to wait. -/
def step (r : Reading α) (now : Nat) (c : CacheAside α) :
    ReadPhase ε α → Option (CacheAside α × ReadPhase ε α)
  | .lookup =>
    match r.lookup now c with
    | (some a, c) => some (c, .hit a)
    | (none, c) => some (c, .observe)
  | .observe => some (c, .joined c.epoch .enter)
  | .joined observed phase =>
    (c.flights.step (c.fullKey r.key) r.accepts phase).map fun (flights, phase) =>
      ({ c with flights := flights }, .joined observed phase)
  | .hit _ => none

/-- The fill of a fetched value. Its tags live at least as long as the value. -/
def fill (r : Reading α) (c : CacheAside α) (observed : Nat) (a : α) : Fill α where
  key := c.fullKey r.key
  value := a
  codec := r.codec
  ttl := r.ttl
  tags := (r.tagsFor a).map c.fullKey
  tagTtl := max c.tagTtl r.ttl
  observed := observed

def runFrom {ω : Type} (r : Reading α) (now : Nat) (fetch : ω → Except ε α × ω) :
    Nat → ReadPhase ε α → CacheAside α → ω → Option (Except ε α) × Option (Fill α) × CacheAside α × ω
  | 0, phase, c, w => (phase.result?, none, c, w)
  | n + 1, phase, c, w =>
    match phase with
    | .joined observed (.fetching flight) =>
      let (result, w) := fetch w
      let (answer, _, c, w) := runFrom r now fetch n (.joined observed (.fetched flight result)) c w
      (answer, result.toOption.map (r.fill c observed), c, w)
    | phase =>
      match r.step now c phase with
      | none => (phase.result?, none, c, w)
      | some (c, phase) => runFrom r now fetch n phase c w

/-- A whole read without a pause; it takes at most seven steps. -/
def run {ω : Type} (r : Reading α) (now : Nat) (fetch : ω → Except ε α × ω) (c : CacheAside α)
    (w : ω) : Option (Except ε α) × Option (Fill α) × CacheAside α × ω :=
  r.runFrom now fetch 8 .lookup c w

/-- A read that is given up leaves its flight. -/
def abandon (r : Reading α) (c : CacheAside α) : ReadPhase ε α → CacheAside α
  | .joined _ phase => { c with flights := c.flights.abandon (c.fullKey r.key) phase }
  | _ => c

end Reading

inductive Invalidation where
  | keys (keys : List String)
  | tag (tag : String)
  /-- The key of a thing, whose scope counts the change. -/
  | entity (key scope : String)

inductive InvalidationPhase where
  | bump
  | members
  | delete (names : List String)
  | incr
  | done (result : Except CacheError (Option Int))

namespace Invalidation

variable {α : Type}

/-- No keys, nothing to do. -/
def start : Invalidation → InvalidationPhase
  | .keys [] => .done (.ok none)
  | _ => .bump

/-- One step of an invalidation. It ends at the first error. -/
def step (i : Invalidation) (now : Nat) (c : CacheAside α) :
    InvalidationPhase → CacheAside α × InvalidationPhase
  | .bump =>
    let c := { c with epoch := c.epoch + 1 }
    match i with
    | .keys ks => (c, .delete (ks.map c.fullKey))
    | .tag _ => (c, .members)
    | .entity key _ => (c, .delete [c.fullKey key])
  | .members =>
    match i with
    | .tag t =>
      match c.store.tagMembers now (c.fullKey t) with
      | (.ok names, store) => ({ c with store := store }, .delete (names ++ [c.fullKey t]))
      | (.error e, store) => ({ c with store := store }, .done (.error e))
    | _ => (c, .done (.ok none))
  | .delete names =>
    match c.store.delete names with
    | (.ok (), store) =>
      match i with
      | .entity _ _ => ({ c with store := store }, .incr)
      | _ => ({ c with store := store }, .done (.ok none))
    | (.error e, store) => ({ c with store := store }, .done (.error e))
  | .incr =>
    match i with
    | .entity _ scope =>
      match c.store.incr (c.fullKey (CacheKey.revision scope)) with
      | (.ok n, store) => ({ c with store := store }, .done (.ok (some n)))
      | (.error e, store) => ({ c with store := store }, .done (.error e))
    | _ => (c, .done (.ok none))
  | .done result => (c, .done result)

/-- Takes up to `n` steps. -/
def runFrom (i : Invalidation) (now : Nat) : Nat → CacheAside α → InvalidationPhase →
    Except CacheError (Option Int) × CacheAside α
  | _, c, .done result => (result, c)
  | 0, c, _ => (.ok none, c)
  | n + 1, c, phase =>
    let (c, phase) := i.step now c phase
    runFrom i now n c phase

/-- All steps of an invalidation without a pause; there are at most three. -/
def run (i : Invalidation) (now : Nat) (c : CacheAside α) :
    Except CacheError (Option Int) × CacheAside α :=
  i.runFrom now 3 c i.start

end Invalidation

end Workboard
