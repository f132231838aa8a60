/-!
Tasks that take turns on one thread. A task runs until it waits or ends; time stands still while any
task can go on, and then jumps to the earliest time that a task waits for.
-/

namespace Workboard

/-- What tasks of type `τ` do in a world of type `ω`. -/
structure TaskKind (ω τ : Type) where
  /-- Whether a task can go on at a time. -/
  ready : Nat → ω → τ → Bool
  /-- Runs a task until it waits, or ends without a rest. It may start others. -/
  run : Nat → ω → τ → ω × Option τ × List τ
  /-- The time that a task waits for. -/
  wakeAt : τ → Option Nat

structure Tasks (ω τ : Type) where
  world : ω
  tasks : List τ
  clock : Nat

namespace Tasks

variable {ω τ : Type}

/-- One turn for each task that can go on, in order. Tell whether there was one. -/
def turns (k : TaskKind ω τ) (now : Nat) : List τ → ω → Bool × ω × List τ × List τ
  | [], w => (false, w, [], [])
  | t :: ts, w =>
    if k.ready now w t then
      let (w, rest, new) := k.run now w t
      let (_, w, kept, more) := turns k now ts w
      (true, w, rest.toList ++ kept, new ++ more)
    else
      let (ran, w, kept, more) := turns k now ts w
      (ran, w, t :: kept, more)

/-- More rounds than tasks of one script take. -/
def enough : Nat := 1000000

/-- Lets the tasks go on until each of them waits. -/
def settle (k : TaskKind ω τ) : Nat → Tasks ω τ → Tasks ω τ
  | 0, s => s
  | fuel + 1, s =>
    let (ran, w, kept, new) := turns k s.clock s.tasks s.world
    let s := { s with world := w, tasks := kept ++ new }
    if ran then settle k fuel s else s

def earliest (times : List (Option Nat)) : Option Nat :=
  times.foldl (fun best t =>
    match best, t with
    | some a, some b => some (min a b)
    | none, t => t
    | some a, none => some a) none

/-- Runs a task to its end while the others take their turns. It goes first whenever its own time has
come. The rest of it is left if nothing can happen any more. -/
def runMain (k : TaskKind ω τ) : Nat → Tasks ω τ → τ → Tasks ω τ × Option τ
  | 0, s, main => (s, some main)
  | fuel + 1, s, main =>
    if k.ready s.clock s.world main then
      let (w, rest, new) := k.run s.clock s.world main
      let s := { s with world := w, tasks := s.tasks ++ new }
      match rest with
      | none => (s, none)
      | some main => runMain k fuel s main
    else
      let s := settle k enough s
      if k.ready s.clock s.world main then runMain k fuel s main
      else
        match earliest (k.wakeAt main :: s.tasks.map k.wakeAt) with
        | none => (s, some main)
        | some t => runMain k fuel { s with clock := max s.clock t } main

end Tasks

end Workboard
