import Workboard.Cache.Aside

/-!
What a whole read does: it answers with what is cached, or fetches and leaves a fill.
-/

namespace Workboard.Reading

variable {ε α ω : Type}

/-- A read changes its source by fetching only. -/
theorem runFrom_source (r : Reading α) (now : Nat) {fetch : ω → Except ε α × ω} {P : ω → Prop}
    (keeps : ∀ w, P w → P (fetch w).2) (n : Nat) (phase : ReadPhase ε α) (c : CacheAside α) {w : ω}
    (h : P w) : P (r.runFrom now fetch n phase c w).2.2.2 := by
  induction n generalizing phase c w with
  | zero => exact h
  | succ n ih =>
    unfold runFrom
    split
    next => exact ih _ _ (keeps w h)
    next =>
      split
      next => exact h
      next => exact ih _ _ h

variable {r : Reading α} {now : Nat} {fetch : ω → Except ε α × ω} {c after : CacheAside α}

theorem runFrom_step {phase next : ReadPhase ε α} (h : r.step now c phase = some (after, next)) (n : Nat)
    (w : ω) : r.runFrom now fetch (n + 1) phase c w = r.runFrom now fetch n next after w := by
  have waits : ∀ observed flight, phase = .joined observed (.fetching flight) → False := by
    rintro observed flight rfl
    cases h
  rw [runFrom, h]
  exact waits

theorem runFrom_done {result : Except ε α} (observed n : Nat) (w : ω) :
    r.runFrom now fetch n (.joined observed (.done result)) c w = (some result, none, c, w) := by
  cases n <;> rfl

theorem run_of_hit {a : α} (h : r.lookup now c = (some a, after)) (w : ω) :
    r.run now fetch c w = (some (.ok a), none, after, w) := by
  have found : r.step now c (.lookup : ReadPhase ε α) = some (after, .hit a) := by rw [step, h]
  rw [run, runFrom_step found]
  rfl

/-- With no read of the same key under way, a read that finds nothing fetches for itself, and its own flight
has landed when it ends. -/
theorem run_of_miss (fetch : ω → Except ε α × ω) (h : r.lookup now c = (none, after))
    (grounded : after.flights.opened = []) (w : ω) :
    ∃ flights : SingleFlight α, flights.opened = [] ∧
      r.run now fetch c w = (some (fetch w).1, (fetch w).1.toOption.map (r.fill after after.epoch),
        { after with flights := flights }, (fetch w).2) := by
  let key := after.fullKey r.key
  let flight := after.flights.next
  let entered : SingleFlight α := { after.flights with next := flight + 1, opened := [(key, flight)] }
  have alone : after.flights.enter key = (.leader flight, entered) := by
    simp [SingleFlight.enter, SingleFlight.flightOf?, grounded, entered, flight]
  let flown : CacheAside α := { after with flights := entered }
  let landed := (entered.leave key).announce flight (fetch w).1.toOption
  refine ⟨landed, by simp [landed, entered, SingleFlight.leave, SingleFlight.announce], ?_⟩
  have misses : r.step now c (.lookup : ReadPhase ε α) = some (after, .observe) := by rw [step, h]
  have enters : r.step now after (.joined after.epoch .enter : ReadPhase ε α) =
      some (flown, .joined after.epoch (.start (some flight))) := by
    have first : after.flights.step key r.accepts (.enter : FlightPhase ε α) =
        some (entered, .start (some flight)) := by rw [SingleFlight.step, alone]
    rw [step, first]
    rfl
  rw [run, runFrom_step misses, runFrom_step rfl, runFrom_step enters, runFrom_step rfl, runFrom]
  dsimp only [FlightPhase.fetched]
  rw [runFrom_step rfl, runFrom_step rfl, runFrom_done]
  rfl

end Workboard.Reading
