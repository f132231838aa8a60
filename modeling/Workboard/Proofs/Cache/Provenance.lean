import Workboard.Cache.Interleaving
import Workboard.Proofs.Cache.Flights
import Workboard.Proofs.Cache.Race

/-!
Whose values reads return after an invalidation. A read fetches for itself, finds what a fill has stored, or
follows the flight of another read; the last of these nothing guards.
-/

namespace Workboard

variable {ε α : Type}

theorem Fill.flights_step (f : Fill α) (now : Nat) (c : CacheAside α) (phase : FillPhase) :
    (f.step now c phase).1.flights = c.flights := by
  cases phase with
  | tag rest =>
    cases rest with
    | nil => rfl
    | cons t rest =>
      simp only [step]
      split <;> rfl
  | done | panicked => rfl
  | _ =>
    simp only [step]
    split <;> rfl

theorem Invalidation.flights_step (i : Invalidation) (now : Nat) (c : CacheAside α) (phase : InvalidationPhase) :
    (i.step now c phase).1.flights = c.flights := by
  cases phase <;> cases i <;> simp only [step] <;> first | rfl | (split <;> rfl)

namespace CacheWorld

variable {w : CacheWorld ε α} {e : CacheEvent ε α} {m : Nat} {r : Reading α} {begun : Nat}

/-- How a read comes to stand where it does after an event. -/
inductive Reaches (w : CacheWorld ε α) (e : CacheEvent ε α) (m : Nat) (r : Reading α) : ReadPhase ε α → Nat → Prop
  | stays {phase : ReadPhase ε α} {begun : Nat} (stood : w.actors[m]? = some (.reading r phase begun)) :
    Reaches w e m r phase begun
  | comes (new : m = w.actors.length) : Reaches w e m r .lookup 0
  | looks {phase : ReadPhase ε α} {begun : Nat} (stood : w.actors[m]? = some (.reading r .lookup begun))
    (found : phase = .observe ∨ ∃ a, phase = .hit a ∧ (r.lookup w.clock w.cache).1 = some a) :
    Reaches w e m r phase begun
  | observes {begun : Nat} (stood : w.actors[m]? = some (.reading r .observe begun)) :
    Reaches w e m r (.joined w.cache.epoch .enter) begun
  | steps {observed : Nat} {p q : FlightPhase ε α} {begun : Nat}
    (stood : w.actors[m]? = some (.reading r (.joined observed p) begun))
    {flights : SingleFlight α} (stepped : w.cache.flights.Steps (w.cache.fullKey r.key) r.accepts p flights q)
    (left : (w.after e).cache.flights = flights) :
    Reaches w e m r (.joined observed q) (if (ReadPhase.joined observed q).isFetching then w.time else begun)
  | answered {observed : Nat} {flight : Option Nat} {begun : Nat} {result : Except ε α} {phase : FlightPhase ε α}
    (stood : w.actors[m]? = some (.reading r (.joined observed (.fetching flight)) begun))
    (fetched : phase = .fetched flight result) : Reaches w e m r (.joined observed phase) begun

theorem getElem?_append_singleton {β : Type} {l : List β} {a b : β} (h : (l ++ [a])[m]? = some b) :
    l[m]? = some b ∨ m = l.length ∧ a = b := by
  rw [List.getElem?_append] at h
  split at h
  · exact .inl h
  · rw [List.getElem?_singleton] at h
    split at h
    · exact .inr ⟨by omega, Option.some.inj h⟩
    · cases h

/-- A step of a read that has not joined yet leaves the flights. -/
theorem reaches_of_step {a : CacheActor ε α} {c : CacheAside α} {phase : ReadPhase ε α}
    (found : w.actors[m]? = some a) (stepped : a.step w.clock w.time w.cache = some (c, .reading r phase begun))
    (cache : (w.after e).cache = c) : w.Reaches e m r phase begun := by
  obtain ⟨old, before, rfl, moved, rfl⟩ := CacheActor.step_reading stepped
  cases old with
  | lookup =>
    rcases looked : r.lookup w.clock w.cache with ⟨_ | a, d⟩ <;> simp only [Reading.step, looked] at moved <;>
      cases moved
    · exact .looks found (.inl rfl)
    · exact .looks found (.inr ⟨a, rfl, by rw [looked]⟩)
  | observe =>
    cases moved
    exact .observes found
  | joined observed p =>
    obtain ⟨⟨flights, q⟩, flown, moved⟩ := Option.map_eq_some_iff.mp moved
    cases moved
    exact .steps found (SingleFlight.steps_of_step flown) (by rw [cache])
  | hit a => cases moved

variable {phase : ReadPhase ε α}

theorem reaches_after_step {n : Nat} (h : (w.after (.step n)).actors[m]? = some (.reading r phase begun)) :
    w.Reaches (.step n) m r phase begun := by
  rcases found : w.actors[n]? with _ | a
  · simp only [after, perform, found] at h
    exact .stays h
  rcases stepped : a.step w.clock w.time w.cache with _ | ⟨c, b⟩
  · simp only [after, perform, found, stepped] at h
    exact .stays h
  have cache : (w.after (.step n)).cache = c := by simp only [after, perform, found, stepped]
  simp only [after, perform, found, stepped, List.getElem?_set] at h
  split at h
  next own =>
    subst own
    obtain rfl : b = .reading r phase begun := by
      split at h
      · exact Option.some.inj h
      · cases h
    exact reaches_of_step found stepped cache
  next => exact .stays h

theorem reaches_after_answer {n : Nat} {result : Except ε α}
    (h : (w.after (.answer n result)).actors[m]? = some (.reading r phase begun)) :
    w.Reaches (.answer n result) m r phase begun := by
  simp only [after, perform] at h
  split at h
  next r' observed flight old found =>
    rw [List.getElem?_append] at h
    split at h
    · rw [List.getElem?_set] at h
      split at h
      next own =>
        subst own
        split at h
        · cases h
          exact .answered found rfl
        · cases h
      next => exact .stays h
    · obtain ⟨f, -, same⟩ := List.mem_map.mp (List.mem_of_getElem? h)
      cases same
  next => exact .stays h

theorem reaches_after_abandon {n : Nat} (h : (w.after (.abandon n)).actors[m]? = some (.reading r phase begun)) :
    w.Reaches (.abandon n) m r phase begun := by
  have stays : (w.actors.set n .gone)[m]? = some (.reading r phase begun) →
      w.actors[m]? = some (.reading r phase begun) := by
    intro kept
    rw [List.getElem?_set] at kept
    split at kept
    · split at kept <;> cases kept
    · exact kept
  simp only [after, perform] at h
  split at h
  · exact .stays (stays h)
  · exact .stays (stays h)
  · exact .stays h

theorem reaches_after (h : (w.after e).actors[m]? = some (.reading r phase begun)) : w.Reaches e m r phase begun := by
  cases e with
  | read r' =>
    rcases getElem?_append_singleton h with old | ⟨rfl, new⟩
    · exact .stays old
    · cases new
      exact .comes rfl
  | invalidate i =>
    rcases getElem?_append_singleton h with old | ⟨rfl, new⟩
    · exact .stays old
    · cases new
  | step n => exact reaches_after_step h
  | answer n result => exact reaches_after_answer h
  | abandon n => exact reaches_after_abandon h
  | wait ms => exact .stays h
  | failing on => exact .stays h
  | fault call times => exact .stays h

end CacheWorld

namespace CacheTrace

variable {t : CacheTrace ε α} {e : CacheEvent ε α}

/-- A read that stands somewhere in its flight. -/
def Flies (t : CacheTrace ε α) (r : Reading α) (p : FlightPhase ε α) (begun : Nat) : Prop :=
  ∃ (m observed : Nat), t.world.actors[m]? = some (.reading r (.joined observed p) begun)

/-- What an event does to flights, and what it takes down of them. -/
inductive Changes (t : CacheTrace ε α) : SingleFlight α → (Nat → Option Nat) → Prop
  | stays : Changes t t.world.cache.flights t.flown
  | opens {r : Reading α} (closed : t.world.cache.flights.flightOf? (t.world.cache.fullKey r.key) = none) :
    Changes t { t.world.cache.flights with
      next := t.world.cache.flights.next + 1
      opened := t.world.cache.flights.opened ++
        [(t.world.cache.fullKey r.key, t.world.cache.flights.next)] } t.flown
  | leaves {r : Reading α} :
    Changes t (t.world.cache.flights.leave (t.world.cache.fullKey r.key)) t.flown
  | tells {r : Reading α} {n : Nat} {a : α} {begun : Nat} (flies : t.Flies r (.announce n (.ok a)) begun) :
    Changes t (t.world.cache.flights.announce n (some a)) fun m => if m = n then some begun else t.flown m
  | fails {n : Nat} : Changes t (t.world.cache.flights.announce n none) t.flown
  | crashes {r : Reading α} {n : Nat} :
    Changes t ((t.world.cache.flights.leave (t.world.cache.fullKey r.key)).announce n none) t.flown

theorem changes_after_step (t : CacheTrace ε α) (n : Nat) :
    t.Changes (t.after (.step n)).world.cache.flights (t.after (.step n)).flown := by
  rcases found : t.world.actors[n]? with _ | a
  · simp only [after, CacheWorld.after, CacheWorld.perform, found]
    exact .stays
  cases a with
  | filling f phase begun =>
    have same := f.flights_step t.world.clock t.world.cache phase
    simp only [after, CacheWorld.after, CacheWorld.perform, found, CacheActor.step, same]
    exact .stays
  | invalidating i phase begun =>
    have same := i.flights_step t.world.clock t.world.cache phase
    simp only [after, CacheWorld.after, CacheWorld.perform, found, CacheActor.step, same]
    exact .stays
  | gone =>
    simp only [after, CacheWorld.after, CacheWorld.perform, found, CacheActor.step]
    exact .stays
  | reading r phase begun =>
    cases phase with
    | lookup =>
      have same : (r.lookup t.world.clock t.world.cache).2.flights = t.world.cache.flights := by
        obtain ⟨hits, misses, same⟩ := r.lookup_cache t.world.clock t.world.cache
        rw [same]
      rcases looked : r.lookup t.world.clock t.world.cache with ⟨_ | a, c⟩
      all_goals
        rw [looked] at same
        simp only [after, CacheWorld.after, CacheWorld.perform, found, CacheActor.step, Reading.step, looked,
          Option.map_some, show c.flights = _ from same]
        exact .stays
    | observe | hit a =>
      simp only [after, CacheWorld.after, CacheWorld.perform, found, CacheActor.step, Reading.step, Option.map_some,
        Option.map_none]
      exact .stays
    | joined observed p =>
      rcases stepped : t.world.cache.flights.step (t.world.cache.fullKey r.key) r.accepts p with _ | ⟨flights, q⟩
      · cases p with
        | leave m result | announce m result => cases stepped
        | _ =>
          simp only [after, CacheWorld.after, CacheWorld.perform, found, CacheActor.step, Reading.step, stepped,
            Option.map_none]
          exact .stays
      · simp only [after, CacheWorld.after, CacheWorld.perform, found, CacheActor.step, Reading.step, stepped,
          Option.map_some]
        cases SingleFlight.steps_of_step stepped with
        | follows | shares | parts | starts => exact .stays
        | opens closed => exact .opens closed
        | leaves => exact .leaves
        | @announces m result =>
          cases result with
          | ok a => exact .tells ⟨n, observed, found⟩
          | error e => exact .fails

theorem changes_after (t : CacheTrace ε α) (e : CacheEvent ε α) :
    t.Changes (t.after e).world.cache.flights (t.after e).flown := by
  cases e with
  | step n => exact t.changes_after_step n
  | answer n result =>
    simp only [after, CacheWorld.after, CacheWorld.perform]
    split <;> exact .stays
  | abandon n =>
    simp only [after, CacheWorld.after, CacheWorld.perform]
    split
    next r phase begun found =>
      cases phase with
      | joined observed p =>
        cases p with
        | start flight | fetching flight =>
          cases flight with
          | none => exact .stays
          | some n => exact .crashes
        | leave n result => exact .crashes
        | announce n result => exact .fails
        | _ => exact .stays
      | _ => exact .stays
    next => exact .stays
    next => exact .stays
  | _ => exact .stays

namespace Changes

variable {f : SingleFlight α} {g : Nat → Option Nat} {n : Nat}

theorem next_le (h : t.Changes f g) : t.world.cache.flights.next ≤ f.next := by
  cases h with
  | opens => exact Nat.le_succ _
  | _ => exact Nat.le_refl _

/-- A flight that is open was open, or opens. -/
theorem of_flightOf? (h : t.Changes f g) {key : String} (found : f.flightOf? key = some n) :
    t.world.cache.flights.flightOf? key = some n ∨
      n = t.world.cache.flights.next ∧ f.next = t.world.cache.flights.next + 1 := by
  cases h with
  | opens closed =>
    rw [SingleFlight.flightOf?_opened closed] at found
    split at found
    · exact .inr ⟨(Option.some.inj found).symm, rfl⟩
    · exact .inl found
  | leaves =>
    rw [SingleFlight.flightOf?_leave] at found
    split at found
    · cases found
    · exact .inl found
  | crashes =>
    rw [SingleFlight.flightOf?_announce, SingleFlight.flightOf?_leave] at found
    split at found
    · cases found
    · exact .inl found
  | _ => exact .inl found

theorem of_flown (h : t.Changes f g) {begun : Nat} (noted : g n = some begun) :
    t.flown n = some begun ∨ ∃ r a, t.Flies r (.announce n (.ok a)) begun := by
  cases h with
  | @tells r m a old flies =>
    dsimp only at noted
    split at noted
    next own =>
      subst own
      cases noted
      exact .inr ⟨r, a, flies⟩
    next => exact .inl noted
  | _ => exact .inl noted

theorem flown (h : t.Changes f g) {begun : Nat} (noted : t.flown n = some begun) : ∃ begun, g n = some begun := by
  cases h with
  | tells =>
    dsimp only
    split
    · exact ⟨_, rfl⟩
    · exact ⟨begun, noted⟩
  | _ => exact ⟨begun, noted⟩

/-- Whose flight was told a value is taken down. -/
theorem told (h : t.Changes f g)
    (noted : ∀ n a, t.world.cache.flights.outcome? n = some (some a) → ∃ begun, t.flown n = some begun) {a : α}
    (told : f.outcome? n = some (some a)) : ∃ begun, g n = some begun := by
  have stays : t.world.cache.flights.outcome? n = some (some a) → ∃ begun, g n = some begun := fun old =>
    have ⟨_, old⟩ := noted n a old
    h.flown old
  cases h with
  | tells =>
    rcases SingleFlight.of_outcome?_announce told with old | ⟨rfl, -⟩
    · exact stays old
    · exact ⟨_, if_pos rfl⟩
  | fails | crashes =>
    rcases SingleFlight.of_outcome?_announce told with old | ⟨-, other⟩
    · exact stays old
    · cases other
  | _ => exact stays told

end Changes

/-- What is taken down fits the flights: it is of flights that have been, an open flight has yet to be told, and
only who leads an open flight carries it. -/
structure Sound (t : CacheTrace ε α) : Prop where
  flight : ∀ r p begun n, t.Flies r p begun → p.flight? = some n → n < t.world.cache.flights.next
  opened : ∀ key n, t.world.cache.flights.flightOf? key = some n → n < t.world.cache.flights.next ∧ t.flown n = none
  led : ∀ key n r p begun, t.world.cache.flights.flightOf? key = some n → t.Flies r p begun → p.carries? = some n →
    p.leads? = some n ∧ t.world.cache.fullKey r.key = key
  flown : ∀ n begun, t.flown n = some begun → n < t.world.cache.flights.next
  told : ∀ n a, t.world.cache.flights.outcome? n = some (some a) → ∃ begun, t.flown n = some begun

theorem sound_begin {c : CacheAside α} (idle : c.flights = .empty) : (begin c : CacheTrace ε α).Sound := by
  constructor
  · rintro r p begun n ⟨m, observed, stood⟩
    cases stood
  · intro key n found
    rw [begin, CacheWorld.begin, idle] at found
    cases found
  · rintro key n r p begun - ⟨m, observed, stood⟩
    cases stood
  · exact fun n begun noted => nomatch noted
  · intro n a told
    rw [begin, CacheWorld.begin, idle] at told
    cases told

theorem fullKey_after (t : CacheTrace ε α) (e : CacheEvent ε α) (key : String) :
    (t.after e).world.cache.fullKey key = t.world.cache.fullKey key := by
  rw [CacheAside.fullKey, CacheAside.fullKey]
  exact congrArg (CacheKey.full · key) (t.world.after_cache e).1

theorem Sound.flight_after (h : t.Sound) (e : CacheEvent ε α) {r : Reading α} {p : FlightPhase ε α} {begun n : Nat}
    (flies : (t.after e).Flies r p begun) (flight : p.flight? = some n) :
    n < (t.after e).world.cache.flights.next := by
  have more := (t.changes_after e).next_le
  have old : ∀ {q} {begun}, t.Flies r q begun → q.flight? = some n → n < (t.after e).world.cache.flights.next :=
    fun flies flight => Nat.lt_of_lt_of_le (h.flight _ _ _ _ flies flight) more
  obtain ⟨m, observed, stands⟩ := flies
  cases CacheWorld.reaches_after stands with
  | stays stood => exact old ⟨m, observed, stood⟩ flight
  | looks _ found => rcases found with same | ⟨a, same, -⟩ <;> cases same
  | observes => cases flight
  | steps stood stepped left =>
    rcases stepped.of_flight? flight with flight | found | ⟨rfl, next⟩
    · exact old ⟨m, observed, stood⟩ flight
    · exact Nat.lt_of_lt_of_le (h.opened _ n found).1 more
    · rw [← left] at next
      exact Nat.lt_of_lt_of_le (Nat.lt_succ_self _) (Nat.le_of_eq next.symm)
  | @answered _ own _ _ _ stood fetched =>
    subst fetched
    refine old ⟨m, observed, stood⟩ ?_
    cases own with
    | none => cases flight
    | some k => exact flight

theorem Sound.opened_after (h : t.Sound) (e : CacheEvent ε α) {key : String} {n : Nat}
    (found : (t.after e).world.cache.flights.flightOf? key = some n) :
    n < (t.after e).world.cache.flights.next ∧ (t.after e).flown n = none := by
  have changes := t.changes_after e
  rcases changes.of_flightOf? found with old | ⟨rfl, next⟩
  · obtain ⟨below, untold⟩ := h.opened key n old
    refine ⟨Nat.lt_of_lt_of_le below changes.next_le, ?_⟩
    rcases noted : (t.after e).flown n with _ | begun
    · rfl
    · rcases changes.of_flown noted with noted | ⟨r, a, flies⟩
      · cases untold.symm.trans noted
      · cases (h.led key n r _ begun old flies rfl).1
  · refine ⟨Nat.lt_of_lt_of_le (Nat.lt_succ_self _) (Nat.le_of_eq next.symm), ?_⟩
    rcases noted : (t.after e).flown t.world.cache.flights.next with _ | begun
    · rfl
    · rcases changes.of_flown noted with noted | ⟨r, a, flies⟩
      · exact (Nat.lt_irrefl _ (h.flown _ _ noted)).elim
      · exact (Nat.lt_irrefl _ (h.flight _ _ _ _ flies rfl)).elim

theorem Sound.led_after (h : t.Sound) (e : CacheEvent ε α) {key : String} {n : Nat} {r : Reading α}
    {p : FlightPhase ε α} {begun : Nat} (found : (t.after e).world.cache.flights.flightOf? key = some n)
    (flies : (t.after e).Flies r p begun) (carries : p.carries? = some n) :
    p.leads? = some n ∧ t.world.cache.fullKey r.key = key := by
  have old : ∀ {q} {begun}, t.Flies r q begun → q.carries? = some n →
      q.leads? = some n ∧ t.world.cache.fullKey r.key = key := by
    intro q begun flies carries
    rcases (t.changes_after e).of_flightOf? found with found | ⟨rfl, -⟩
    · exact h.led key n r q begun found flies carries
    · exact (Nat.lt_irrefl _ (h.flight r q begun _ flies (FlightPhase.flight?_of_carries? carries))).elim
  obtain ⟨m, observed, stands⟩ := flies
  cases CacheWorld.reaches_after stands with
  | stays stood => exact old ⟨m, observed, stood⟩ carries
  | looks _ found => rcases found with same | ⟨a, same, -⟩ <;> cases same
  | observes => cases carries
  | steps stood stepped left =>
    cases stepped with
    | opens closed =>
      cases carries
      rw [CacheTrace.after, left, SingleFlight.flightOf?_opened closed] at found
      split at found
      next own => exact ⟨rfl, own.symm⟩
      next => exact (Nat.lt_irrefl _ (h.opened _ _ found).1).elim
    | @starts own => exact old (q := .start own) ⟨m, observed, stood⟩ carries
    | leaves =>
      -- who has left a flight finds it closed
      cases carries
      obtain ⟨-, own⟩ := old ⟨m, observed, stood⟩ rfl
      rw [CacheTrace.after, left, SingleFlight.flightOf?_leave, if_pos own.symm] at found
      cases found
    | _ => cases carries
  | @answered _ own _ _ _ stood fetched =>
    subst fetched
    cases own with
    | none => cases carries
    | some k => exact old (q := .fetching (some k)) ⟨m, observed, stood⟩ carries

theorem Sound.after (h : t.Sound) (e : CacheEvent ε α) : (t.after e).Sound := by
  have changes := t.changes_after e
  have more := changes.next_le
  refine ⟨fun _ _ _ _ => h.flight_after e, fun _ _ => h.opened_after e, ?_, ?_, fun _ _ => changes.told h.told⟩
  · intro key n r p begun found flies carries
    rw [t.fullKey_after]
    exact h.led_after e found flies carries
  · intro n begun noted
    rcases changes.of_flown noted with noted | ⟨r, a, flies⟩
    · exact Nat.lt_of_lt_of_le (h.flown n begun noted) more
    · exact Nat.lt_of_lt_of_le (h.flight _ _ _ _ flies rfl) more

theorem Sound.run (h : t.Sound) (events : List (CacheEvent ε α)) : (t.run events).Sound := by
  induction events generalizing t with
  | nil => exact h
  | cons e events ih => exact ih (h.after e)

theorem world_run (t : CacheTrace ε α) (events : List (CacheEvent ε α)) :
    (t.run events).world = t.world.run events := by
  induction events generalizing t with
  | nil => rfl
  | cons e events ih => exact ih (t.after e)

end CacheTrace

end Workboard
