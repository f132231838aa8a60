import Workboard.Relay.Batch

/-!
The loop that reports the backlog at the ticks of a clock, step by step. A clock ticks at regular times, the first time
at once; a tick that is taken late delays those behind it. A report that fails is made up for by the next one; one
that panics ends the loop.
-/

namespace Workboard

/-- Times are in milliseconds. -/
structure Ticker where
  period : Nat
  positive : 0 < period
  next : Nat

namespace Ticker

/-- There is no clock without a time between its ticks; whoever asks for one breaks down. -/
def every? (period now : Nat) : Option Ticker :=
  if positive : 0 < period then some ⟨period, positive, now⟩ else none

def isDue (t : Ticker) (now : Nat) : Bool := decide (t.next ≤ now)

def tick (t : Ticker) (now : Nat) : Ticker := { t with next := now + t.period }

end Ticker

inductive ReportPlace where
  | waiting (t : Ticker)
  | stopped
  | panicked

structure ReportLoop (σ : Type) where
  place : ReportPlace
  now : Nat
  /-- Whether the loop has been told to stop. -/
  cancelled : Bool
  world : σ

/-- A step of the loop, or something that others do. -/
inductive ReportAct (σ : Type) where
  | step
  | cancel
  | pass (time : Nat)
  | others (change : σ → σ)

namespace ReportLoop

variable {σ : Type}

/-- The loop has just been started; its clock is set before it looks whether it is to stop. -/
def begin (periodMs now : Nat) (cancelled : Bool) (world : σ) : ReportLoop σ :=
  match Ticker.every? periodMs now with
  | some t => ⟨.waiting t, now, cancelled, world⟩
  | none => ⟨.panicked, now, cancelled, world⟩

/-- One step; `report` is what a report at a time does. To stop comes before to report. -/
def step (report : Nat → σ → Except BatchError Unit × σ) (l : ReportLoop σ) : ReportLoop σ :=
  match l.place with
  | .waiting t =>
    if l.cancelled then { l with place := .stopped }
    else if t.isDue l.now then
      match report l.now l.world with
      | (.error (.panicked _), w) => { l with place := .panicked, world := w }
      | (_, w) => { l with place := .waiting (t.tick l.now), world := w }
    else l
  | _ => l

def act (report : Nat → σ → Except BatchError Unit × σ) (l : ReportLoop σ) : ReportAct σ → ReportLoop σ
  | .step => l.step report
  | .cancel => { l with cancelled := true }
  | .pass time => { l with now := l.now + time }
  | .others change => { l with world := change l.world }

def after (report : Nat → σ → Except BatchError Unit × σ) (l : ReportLoop σ) (acts : List (ReportAct σ)) :
    ReportLoop σ :=
  acts.foldl (act report) l

end ReportLoop

end Workboard
