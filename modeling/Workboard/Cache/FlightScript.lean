import Workboard.Cache.Script

/-!
Scripts of callers that join each other by key, some of which want a text and some a number.
-/

namespace Workboard

inductive SharedValue where
  | text (s : String)
  | number (n : Int)
  deriving DecidableEq

def SharedValue.isText : SharedValue → Bool
  | .text _ => true
  | .number _ => false

structure FlightTask where
  key : String
  fetch : ScriptedFetch SharedValue
  wantsText : Bool
  cancelled : Bool
  phase : FlightPhase ServiceError SharedValue
  wake : Option Nat

inductive FlightBenchTask where
  | call (t : FlightTask)
  | rest (wake : Nat)

structure FlightBench where
  flights : SingleFlight SharedValue
  fetched : List String
  done : List (String × Except ServiceError SharedValue)

namespace FlightBench

def accepts (t : FlightTask) (v : SharedValue) : Bool := v.isText == t.wantsText

/-- Takes up to `n` steps of a caller, until it waits or ends. A caller takes at most eight. -/
def advance (now : Nat) : Nat → FlightBench → FlightTask → FlightBench × Option FlightBenchTask
  | 0, b, t => (b, some (.call t))
  | n + 1, b, t =>
    match t.phase with
    | .done r => ({ b with done := b.done ++ [(t.fetch.name, r)] }, none)
    | .fetching flight =>
      match t.fetch.poll now t.wake with
      | (wake, none) => (b, some (.call { t with wake := wake }))
      | (_, some r) => advance now n b { t with phase := .fetched flight r }
    | phase =>
      match b.flights.step t.key (accepts t) phase with
      | none => (b, some (.call t))
      | some (f, next) =>
        let fetched := match phase with
          | .start _ => b.fetched ++ [t.fetch.name]
          | _ => b.fetched
        advance now n { b with flights := f, fetched := fetched } { t with phase := next }

def run (now : Nat) (b : FlightBench) :
    FlightBenchTask → FlightBench × Option FlightBenchTask × List FlightBenchTask
  | .call t =>
    if t.cancelled then ({ b with flights := b.flights.abandon t.key t.phase }, none, [])
    else
      let (b, rest) := advance now 16 b t
      (b, rest, [])
  | .rest _ => (b, none, [])

def ready (now : Nat) (b : FlightBench) : FlightBenchTask → Bool
  | .call t =>
    t.cancelled ||
      match t.phase with
      | .fetching _ => t.fetch.arrived now t.wake
      | .follow n => (b.flights.outcome? n).isSome
      | _ => true
  | .rest wake => wake ≤ now

def wakeAt : FlightBenchTask → Option Nat
  | .call t =>
    match t.phase with
    | .fetching _ => t.wake
    | _ => none
  | .rest wake => some wake

def kind : TaskKind FlightBench FlightBenchTask := ⟨ready, run, wakeAt⟩

end FlightBench

inductive FlightStep where
  | call (key : String) (fetch : ScriptedFetch SharedValue) (wantsText : Bool)
  | abort (name : String)
  | advance (ms : Nat)

namespace FlightStep

abbrev Bench := Tasks FlightBench FlightBenchTask

/-- Marks the latest caller of a name as given up. -/
def cancelLast (name : String) (tasks : List FlightBenchTask) : List FlightBenchTask :=
  (modifyLast tasks.reverse).reverse
where
  modifyLast : List FlightBenchTask → List FlightBenchTask
    | [] => []
    | .call t :: ts =>
      if t.fetch.name = name then .call { t with cancelled := true } :: ts
      else .call t :: modifyLast ts
    | t :: ts => t :: modifyLast ts

def run (s : Bench) : FlightStep → Bench
  | .call key fetch wantsText =>
    { s with tasks := s.tasks ++ [.call ⟨key, fetch, wantsText, false, .enter, none⟩] }
  | .abort name => { s with tasks := cancelLast name s.tasks }
  | .advance ms => (Tasks.runMain FlightBench.kind Tasks.enough s (.rest (s.clock + ms))).1

def runSettled (s : Bench) (step : FlightStep) (settle : Bool) : Bench :=
  let s := step.run { s with world := { s.world with fetched := [], done := [] } }
  if settle then s.settle FlightBench.kind Tasks.enough else s

end FlightStep

end Workboard
