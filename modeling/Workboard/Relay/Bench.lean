import Workboard.Relay.Poll
import Workboard.Broker.Publisher
import Workboard.Relay.Reports

/-!
A relay whose handlers answer by a script, on a clock that moves only while the relay waits. What else is
due in that time happens in the order of its times; of two things due at one time the one that was
planned first happens first.
-/

namespace Workboard

/-- What a handler does when it is called. -/
structure ScriptedReply where
  sleepMs : Nat
  cancels : Bool
  delivery : Delivery

def ScriptedReply.accept : ScriptedReply := ⟨0, false, .accepted⟩

structure ScriptedHandler where
  name : String
  replies : List ScriptedReply
  calls : Nat

/-- A handler that publishes to brokers, or one that follows a script. -/
inductive BenchHandler where
  | publisher
  | scripted (index : Nat)

inductive RelayCall where
  | handled (name : String) (id : Uuid) (retries ms : Nat)
  | broker (call : BrokerCall)

/-- What may be due at some time. The number is that of the script's step that planned it. -/
inductive DueAction where
  | cancel (step : Nat)
  | append (records : List NewRecord)
  | report (step : Nat)

/-- Something that is due; the rank orders what is due at one time. -/
structure Due where
  at_ : Nat
  rank : Nat
  action : DueAction

/-- What was reported last: how many rows waited, and for how long the oldest did. -/
structure BacklogGauges where
  pending : Nat
  oldestAge : Nat

structure RelayBench where
  handlers : List ScriptedHandler
  publisher : Publisher
  reader : Option BroadcastReader
  claims : List (String × Transaction Empty)
  calls : List RelayCall
  clock : Nat
  started : Nat
  due : List Due
  nextRank : Nat
  step : Nat
  cancelled : Bool
  /-- Whether the loop that reports the backlog is alive. -/
  reporting : Bool
  gauges : Option BacklogGauges

abbrev BenchWorld := RelayWorld RelayBench

namespace RelayWorld

/-- Whether a thing that is due comes before another. -/
def comesFirst (a b : Due) : Bool := a.at_ < b.at_ || (a.at_ == b.at_ && a.rank < b.rank)

def firstDue (due : List Due) : Option Due :=
  due.foldl (fun best d =>
    match best with
    | none => some d
    | some b => if comesFirst d b then some d else some b) none

def change (w : BenchWorld) (f : RelayBench → RelayBench) : BenchWorld := { w with state := f w.state }

def drawRank (w : BenchWorld) : Nat × BenchWorld :=
  (w.state.nextRank, w.change fun b => { b with nextRank := b.nextRank + 1 })

def plan (w : BenchWorld) (ms : Nat) (action : DueAction) : BenchWorld :=
  let (rank, w) := w.drawRank
  w.change fun b => { b with due := b.due ++ [⟨b.clock + ms, rank, action⟩] }

def cancel (w : BenchWorld) : BenchWorld := w.change fun b => { b with cancelled := true }

def appendRows (w : BenchWorld) (records : List NewRecord) : BenchWorld :=
  { w with store := { w.store with records := w.store.records ++ records.map .ofNew } }

/-- Reports the backlog, unless that is to fail now. -/
def report (w : BenchWorld) (now : Instant) : Except BatchError Unit × BenchWorld :=
  match w.store.strike .backlogPanic with
  | (true, store) => (.error (.panicked "backlog panicked"), { w with store := store })
  | (false, store) =>
    match store.strike .backlog with
    | (true, store) => (.error (.outbox OutboxCall.backlog.fault), { w with store := store })
    | (false, store) =>
      let b := store.backlog
      (.ok (), { w with store := store }.change fun s =>
        { s with gauges := some ⟨b.pending, b.oldestAge now⟩ })

/-- One turn of the loop that reports the backlog. It stops when it is told to, or by a panic. -/
def reportTurn (w : BenchWorld) (now : Instant) (everyMs : Nat) : BenchWorld :=
  if w.state.cancelled then w.change fun b => { b with reporting := false }
  else
    match w.report now with
    | (.error (.panicked _), w) => w.change fun b => { b with reporting := false }
    | (_, w) => w.plan everyMs (.report w.state.step)

def perform (w : BenchWorld) (now : Instant) (everyMs : Nat) : DueAction → BenchWorld
  | .cancel step => if step = w.state.step then w.cancel else w
  | .append records => w.appendRows records
  | .report step => if step = w.state.step then w.reportTurn now everyMs else w

/-- Lets time pass until a time, or until `stop` holds. What is due at the end is done only if its rank is
below `rank`. -/
def elapse (now : Instant) (everyMs : Nat) (stop : BenchWorld → Bool) (until_ rank : Nat) :
    Nat → BenchWorld → BenchWorld
  | 0, w => w
  | fuel + 1, w =>
    if stop w then w
    else
      match firstDue w.state.due with
      | some d =>
        if d.at_ < until_ || (d.at_ == until_ && d.rank < rank) then
          let w := w.change fun b =>
            { b with clock := max b.clock d.at_, due := b.due.filter fun e => e.rank != d.rank }
          elapse now everyMs stop until_ rank fuel (w.perform now everyMs d.action)
        else w.change fun b => { b with clock := max b.clock until_ }
      | none => w.change fun b => { b with clock := max b.clock until_ }

/-- More than one script plans. -/
def enough : Nat := 1000000

end RelayWorld

/-- The relay of a script: whether it takes turns with other tasks, or goes first. -/
structure BenchRelay where
  registry : HandlerRegistry BenchHandler
  timing : RelayTiming
  now : Instant

namespace BenchRelay

def never (_ : BenchWorld) : Bool := false

def cancelled (w : BenchWorld) : Bool := w.state.cancelled

/-- Sleeps; `yields` tells whether what was planned before and is due at the same time comes first. -/
def sleep (r : BenchRelay) (yields : Bool) (stop : BenchWorld → Bool) (ms : Nat) (w : BenchWorld) :
    BenchWorld :=
  let (rank, w) := w.drawRank
  w.elapse r.now r.timing.metricsMs stop (w.state.clock + ms) (if yields then rank else 0)
    RelayWorld.enough

def handle (r : BenchRelay) (yields : Bool) (h : BenchHandler) (row : OutboxRecord) (w : BenchWorld) :
    Delivery × BenchWorld :=
  match h with
  | .publisher =>
    let (result, p, calls) := w.state.publisher.publish (.ofRecord row)
    let w := w.change fun b => { b with publisher := p, calls := b.calls ++ calls.map .broker }
    match result with
    | .ok () => (.accepted, w)
    | .error e => (.refused e.message, w)
  | .scripted i =>
    match w.state.handlers[i]? with
    | none => (.accepted, w)
    | some h =>
      let reply := (nthReply h.replies h.calls).getD .accept
      let w := w.change fun b =>
        { b with
          handlers := b.handlers.set i { h with calls := h.calls + 1 }
          calls := b.calls ++ [.handled h.name row.id row.retries (b.clock - b.started)] }
      let w := if reply.sleepMs = 0 then w else r.sleep yields never reply.sleepMs w
      (reply.delivery, if reply.cancels then w.cancel else w)

def polling (r : BenchRelay) (yields : Bool) : PollingRelay RelayBench BenchHandler where
  registry := r.registry
  handle := r.handle yields
  batchSize := r.timing.batchSize
  now := r.now
  cancelled := cancelled
  wait := r.sleep yields cancelled r.timing.pollMs

/-- Lets time pass until the step is cancelled. -/
def awaitCancel (r : BenchRelay) (stop : BenchWorld → Bool) (w : BenchWorld) : BenchWorld :=
  match (w.state.due.map (·.at_)).max? with
  | none => w
  | some _ =>
    w.elapse r.now r.timing.metricsMs stop (w.state.clock + RelayWorld.enough) 0 RelayWorld.enough

def settle (r : BenchRelay) (w : BenchWorld) : BenchWorld :=
  w.elapse r.now r.timing.metricsMs never w.state.clock w.state.nextRank RelayWorld.enough

/-- Begins a step of the script with a token of its own. -/
def startStep (w : BenchWorld) (cancelAfter : Option Nat) (cancelledNow : Bool) : BenchWorld :=
  let w := w.change fun b =>
    { b with
      step := b.step + 1, started := b.clock, calls := [], cancelled := cancelledNow, reporting := false }
  match cancelAfter with
  | some ms => w.plan ms (.cancel w.state.step)
  | none => w

def elapsed (w : BenchWorld) : Nat := w.state.clock - w.state.started

def processBatch (r : BenchRelay) (w : BenchWorld) : Except BatchError BatchReport × BenchWorld :=
  (r.polling false).toRelay.processBatch w

def run (r : BenchRelay) (w : BenchWorld) : LoopEnd × BenchWorld :=
  (r.polling false).run RelayWorld.enough w

/-- The clock of the loop that reports the backlog. Without a time between its ticks the loop breaks down at once. -/
def reportClock (r : BenchRelay) (w : BenchWorld) : Option Ticker :=
  Ticker.every? r.timing.metricsMs w.state.clock

/-- The loop that reports the backlog, on its own. -/
def runReports (r : BenchRelay) (w : BenchWorld) : BenchWorld :=
  match r.reportClock w with
  | none => w
  | some t =>
    let w := w.change fun b =>
      { b with reporting := true, due := ⟨t.next, 0, .report b.step⟩ :: b.due }
    r.awaitCancel (fun w => w.state.cancelled || !w.state.reporting) w

/-- Both loops side by side. It ends when both have ended; a panic ends one of them alone. -/
def runBoth (r : BenchRelay) (w : BenchWorld) : BenchWorld :=
  let w := r.settle w
  let w :=
    match r.reportClock w with
    | none => w
    | some t =>
      (w.change fun b => { b with reporting := true }).plan (t.next - w.state.clock) (.report w.state.step)
  match (r.polling true).run RelayWorld.enough w with
  | (.stopped, w) => w
  | (_, w) => r.awaitCancel (fun w => w.state.cancelled || !w.state.reporting) w

end BenchRelay

end Workboard
