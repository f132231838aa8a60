import Workboard.Cache.FlightScript
import Workboard.Scenario.Report
import Workboard.Service.CachedTodos
import Workboard.Width

/-!
Scenarios of the cache: its keys, codecs and store, and reads through it.
-/

namespace Workboard.Scenario

open Json

def runKeys (v : Value) : Got Value := do
  let id := get v "id" asText
  let uuidId := get v "id" asUuid
  match ← get v "fn" asText with
  | "entity" => return str (CacheKey.entity (← get v "kind" asText) (← id))
  | "tag" => return str (CacheKey.tag (← get v "kind" asText) (← id))
  | "revision" => return str (CacheKey.revision (← id))
  | "query" => return str (CacheKey.query (← get v "name" asText) (← texts v "params"))
  | "todo_key" => return str (CachedTodos.todoKey ⟨← uuidId⟩)
  | "workspace_list_key" => return str (CachedTodos.listKey ⟨← uuidId⟩)
  | "workspace_tag" => return str (CachedTodos.workspaceTag ⟨← uuidId⟩)
  | "full_key" => return str (CacheKey.full (← get v "prefix" asText) (← id))
  | s => .error ("fn " ++ s)

/-- What an operation on cached values of some type needs. -/
structure Cached (α : Type) where
  json : JsonForm α
  binary : BinaryForm α

def jsonThroughNode {α : Type} (f : JsonForm α) (v : Value) : Option α := f.read? v.toNode

/-- Runs something for the type that is named. -/
def withType (name : String) (run : (α : Type) → Cached α → Got Value) : Got Value :=
  match name with
  | "string" => run String ⟨.text, .text⟩
  | "u64" => run Nat ⟨.nat64, .nat64⟩
  | "i64" => run Int ⟨.int64, .int64⟩
  | "bool" => run Bool ⟨.bool, .bool⟩
  | "strings" => run (List String) ⟨.list .text, .list .text⟩
  | "opt_string" => run (Option String) ⟨.option .text, .option .text⟩
  | "map" => run (List (String × Int)) ⟨.members .int64, .list (.pair .text .int64)⟩
  | "todo" => run Todo ⟨.todo, .todo⟩
  | "todos" => run (List Todo) ⟨.list .todo, .list .todo⟩
  | s => .error ("type " ++ s)

def codecFailure (e : CodecError) : Value := failure (codecKind e) e.message

def runCodecJson (v : Value) : Got Value := do
  withType (← get v "type" asText) fun _ c => do
    let codec := Codec.json c.json
    match codec.decode (← get v "text" asBytes) with
    | .error e => return codecFailure e
    | .ok a => return result codecFailure bytes (codec.encode a)

/-- The first damage that is asked for, then the others. -/
def damage (v : Value) (frame : Bytes) : Got Bytes := do
  let frame := frame.take (frame.length - (← getD v "cut" asNat 0))
  let frame := frame.take (← getD v "keep" asNat frame.length)
  let frame := frame ++ List.replicate (← getD v "grow" asNat 0) 0
  match ← opt v "declare" asInt with
  | none => return frame
  | some d =>
    let declared := ((Codec.lengthOfBytes (frame.take 4) : Int) + d) % (Width.count 32 : Int)
    return Codec.lengthBytes declared.toNat ++ frame.drop 4

def runCodecBinary (v : Value) : Got Value := do
  withType (← get v "type" asText) fun _ c => do
    let codec := Codec.framed c.binary (← getD v "max" asNat Codec.standardLimit)
    let a ← need "value" (jsonThroughNode c.json (← get v "value" some))
    match codec.encode a with
    | .error e => return kindOnly (codecKind e)
    | .ok frame =>
      let fits := Codec.lengthOfBytes (frame.take 4) == frame.length - 4
      let decoded := match codec.decode (← damage v frame) with
        | .ok a => ok (sorted (c.json.write a))
        | .error (.truncated expected actual) =>
          obj [("error", str "Truncated"), ("missing", .int ((expected : Int) - actual))]
        | .error e => kindOnly (codecKind e)
      return obj [("prefix_ok", .bool fits), ("decoded", decoded)]

def runCodecFrame (v : Value) : Got Value := do
  withType (← get v "type" asText) fun _ c => do
    let codec := Codec.framed c.binary (← getD v "max" asNat Codec.standardLimit)
    return result codecFailure (fun a => sorted (c.json.write a)) (codec.decode (← get v "frame" asBytes))

def readTtl (v : Value) : Got Nat := do return (← getD v "ttl" asNat 60) * 1000

/-- What a call of the store answers, unless it panics. -/
def answered? : Ending CacheError Unit → Option Value
  | .returned a => some (ok (unit a))
  | .failed e => some (cacheFailure e)
  | .panicked _ => none

def runMemoryStep (s : MemoryStore) (v : Value) : Got (MemoryStore × Option Value) := do
  let name (field : String) : Got String := getD v field asText ""
  let shown {α : Type} (f : α → Value) (r : Except CacheError α × MemoryStore) : MemoryStore × Option Value :=
    (r.2, some (result cacheFailure f r.1))
  let ended (r : Ending CacheError Unit × MemoryStore) : MemoryStore × Option Value := (r.2, answered? r.1)
  match ← get v "do" asText with
  | "get" => return shown (option bytes) (s.get 0 (← name "key"))
  | "set" => return ended (s.set 0 (← name "key") (← getD v "value" asBytes []) (← readTtl v))
  | "delete" => return shown unit (s.delete (← texts v "keys"))
  | "add_to_tag" => return ended (s.addToTag 0 (← name "tag") (← name "key") (← readTtl v))
  | "tag_members" => return shown (fun ms => list str (sortTexts ms)) (s.tagMembers 0 (← name "tag"))
  | "incr" => return shown .int (s.incr (← name "key"))
  | "counter" => return shown .int (s.counter (← name "key"))
  | "failing" => return (⟨s.values, s.tags, s.counters, ← flag v "on", s.faults⟩, some .null)
  | "contains" => return (s, some (.bool (s.contains 0 (← name "key"))))
  | d => .error ("step " ++ d)

def runMemoryCache (v : Value) : Got Value := do
  let (shown, _, broken) ← steps (fun (s, broken) w => do
    let (s, r) ← runMemoryStep s w
    return ((s, broken || r.isNone),
      obj [("r", r.getD .null), ("len", nat s.size), ("empty", .bool (s.size == 0))]))
    (MemoryStore.empty, false) (← listOf v "steps" .ok)
  return if broken then kindOnly "Panic" else .array shown

def cacheCall? (name : String) : Option CacheCall := CacheCall.all.find? fun c => c.name = name

def readFetch {α : Type} (v : Value) (value : Got α) : Got (ScriptedFetch α) := do
  let result ← match ← opt v "fail" asText with
    | some what => pure (.error (.notFound what))
    | none => do pure (.ok (← value))
  return ⟨← get v "as" asText, ← opt v "delay" asNat, result⟩

def readReading (v : Value) : Got (Reading String) := do
  let tags ← texts v "tags"
  let codec : Codec String ← match ← getD v "codec" asText "json" with
    | "json" => pure (.json .text)
    | "binary" => pure (.framed .text Codec.standardLimit)
    | "tiny" => pure (.framed .text 0)
    | s => .error ("codec " ++ s)
  let byValue ← flag v "tag_by_value"
  let tagsFor := fun s => if byValue then [CacheKey.tag "v" s] else tags
  return ⟨← get v "key" asText, ← readTtl v, codec, tagsFor, fun _ => true⟩

def readCacheStep (v : Value) : Got CacheStep := do
  let fetch := readFetch v (get v "value" asText)
  match ← get v "do" asText with
  | "get" => return .read (← readReading v) (← fetch) true
  | "spawn" => return .read (← readReading v) (← fetch) false
  | "abort" => return .abort (← get v "as" asText)
  | "advance" => return .advance (← get v "ms" asNat)
  | "invalidate_keys" => return .invalidate (.keys (← texts v "keys"))
  | "invalidate_tag" => return .invalidate (.tag (← get v "tag" asText))
  | "invalidate_entity" => return .invalidate (.entity (← get v "key" asText) (← get v "scope" asText))
  | "revision" => return .revision (← get v "scope" asText)
  | "failing" => return .failing (← flag v "on")
  | "fault" => return .fault (← need "on" (cacheCall? (← get v "on" asText))) (← getD v "times" asNat 1)
  | "put" => return .put (← get v "key" asText) (← getD v "value" asBytes []) (← readTtl v)
  | "peek" => return .peek (← get v "key" asText)
  | "peek_bytes" => return .peekBytes (← get v "key" asText)
  | "tag_members" => return .tagMembers (← get v "tag" asText)
  | s => .error ("step " ++ s)

def cacheAnswer? : CacheAnswer → Option Value
  | .none | .read none => some .null
  | .read (some r) => some (result serviceFailure str r)
  | .invalidated r => some (result cacheFailure (option .int) r)
  | .counted r => some (result cacheFailure .int r)
  | .put r => answered? r
  | .peeked r => some (result cacheFailure .bool r)
  | .bytes r => some (result cacheFailure (option bytes) r)
  | .members r => some (result cacheFailure (fun ms => list str (sortTexts ms)) r)

def cacheMetrics (hits misses : Nat) : List (String × Value) :=
  let series (result : String) (n : Nat) : List (String × Value) :=
    if n = 0 then []
    else [("cache_requests_total\x7bresult=\"" ++ result ++ "\"\x7d", str (toString n))]
  series "hit" hits ++ series "miss" misses

def runCacheAside (v : Value) : Got Value := do
  let root ← getD v "prefix" asText "test"
  let tagTtl := ((← opt v "tag_ttl" asNat).map (· * 1000)).getD CacheAside.standardTagTtl
  let bench : CacheStep.Bench := ⟨⟨.empty root tagTtl, [], [], none⟩, [], 0⟩
  let (shown, s, broken) ← steps (fun (s, broken) w => do
    let (r, s) := CacheStep.runSettled s (← readCacheStep w) (← settles w)
    let r := cacheAnswer? r
    return ((s, broken || r.isNone), obj [("r", r.getD .null), ("fetched", list str (sortTexts s.world.fetched)),
      ("done", doneList str s.world.done), ("len", nat s.world.cache.store.size)]))
    (bench, false) (← listOf v "steps" .ok)
  let c := s.world.cache
  return if broken then kindOnly "Panic"
    else obj [("metrics", obj (cacheMetrics c.hits c.misses)), ("steps", .array shown)]

def readFlightStep (v : Value) : Got FlightStep := do
  match ← get v "do" asText with
  | "run" =>
    let wantsText := (← opt v "type" asText) != some "int"
    let value : Got SharedValue := do
      let s ← get v "value" asText
      return if wantsText then .text s else .number (s.utf8ByteSize : Int)
    return .call (← get v "key" asText) (← readFetch v value) wantsText
  | "abort" => return .abort (← get v "as" asText)
  | "advance" => return .advance (← get v "ms" asNat)
  | s => .error ("step " ++ s)

def sharedValue : SharedValue → Value
  | .text s => str s
  | .number n => .int n

def runSingleFlight (v : Value) : Got Value := do
  let bench : FlightStep.Bench := ⟨⟨.empty, [], []⟩, [], 0⟩
  let (shown, _) ← steps (fun s w => do
    let s := FlightStep.runSettled s (← readFlightStep w) (← settles w)
    return (s, obj [("fetched", list str (sortTexts s.world.fetched)),
      ("done", doneList sharedValue s.world.done), ("inflight", nat s.world.flights.inflight)]))
    bench (← listOf v "steps" .ok)
  return .array shown

end Workboard.Scenario
