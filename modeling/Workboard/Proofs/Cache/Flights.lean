import Workboard.Cache.Flights

/-!
What one event does around a single flight, and what holds of the flights at every moment: a key has an open
flight while one caller leads it, and a flight has not landed while someone carries it.
-/

namespace Workboard

variable {ε α : Type}

theorem FlightPhase.flight?_of_carries? {p : FlightPhase ε α} {n : Nat} (carries : p.carries? = some n) :
    p.flight? = some n := by
  cases p with
  | follow m => cases carries
  | _ => exact carries

namespace SingleFlight

theorem flightOf?_opened {f : SingleFlight α} {key : String} (closed : f.flightOf? key = none) (other : String) :
    flightOf? { f with next := f.next + 1, opened := f.opened ++ [(key, f.next)] } other =
      if other = key then some f.next else f.flightOf? other := by
  have absent : f.opened.find? (fun e => e.1 = key) = none := Option.map_eq_none_iff.mp closed
  rw [flightOf?, flightOf?, List.find?_append]
  split
  next same => simp [same, absent]
  next differs => simp [Ne.symm differs]

theorem flightOf?_leave (f : SingleFlight α) (key other : String) :
    (f.leave key).flightOf? other = if other = key then none else f.flightOf? other := by
  rw [flightOf?, flightOf?, leave, List.find?_filter]
  split
  next same => simp [same]
  next differs =>
    congr 2
    funext e
    by_cases own : e.1 = other
    · simp [own, differs]
    · simp [own]

/-- What a flight is told first stays. -/
theorem outcome?_announce {f : SingleFlight α} {n : Nat} (flying : f.outcome? n = none) (v : Option α) (m : Nat) :
    (f.announce n v).outcome? m = if m = n then some v else f.outcome? m := by
  have absent : f.landed.find? (fun e => e.1 = n) = none := Option.map_eq_none_iff.mp flying
  rw [outcome?, outcome?, announce, List.find?_append]
  split
  next same => simp [same, absent]
  next differs => simp [Ne.symm differs]

theorem of_outcome?_announce {f : SingleFlight α} {n m : Nat} {v left : Option α}
    (told : (f.announce n v).outcome? m = some left) : f.outcome? m = some left ∨ m = n ∧ left = v := by
  rw [outcome?, announce, List.find?_append] at told
  rcases found : f.landed.find? (fun e => e.1 = m) with _ | x
  · rw [found, Option.none_or] at told
    by_cases own : n = m
    · have same : v = left := by simpa [own] using told
      exact .inr ⟨own.symm, same.symm⟩
    · simp [own] at told
  · rw [found, Option.some_or] at told
    rw [outcome?, found]
    exact .inl told

@[simp] theorem outcome?_leave (f : SingleFlight α) (key : String) (n : Nat) :
    (f.leave key).outcome? n = f.outcome? n := rfl

@[simp] theorem flightOf?_announce (f : SingleFlight α) (n : Nat) (v : Option α) (key : String) :
    (f.announce n v).flightOf? key = f.flightOf? key := rfl

/-- What a step of a caller does. -/
inductive Steps (f : SingleFlight α) (key : String) (accepts : α → Bool) :
    FlightPhase ε α → SingleFlight α → FlightPhase ε α → Prop
  | follows {n : Nat} (found : f.flightOf? key = some n) : Steps f key accepts .enter f (.follow n)
  | opens (closed : f.flightOf? key = none) : Steps f key accepts .enter
    { f with next := f.next + 1, opened := f.opened ++ [(key, f.next)] } (.start (some f.next))
  | shares {n : Nat} {a : α} (told : f.outcome? n = some (some a)) (fits : accepts a = true) :
    Steps f key accepts (.follow n) f (.done (.ok a))
  | parts {n : Nat} {left : Option α} (told : f.outcome? n = some left) (unfit : left.any accepts = false) :
    Steps f key accepts (.follow n) f (.start none)
  | starts {flight : Option Nat} : Steps f key accepts (.start flight) f (.fetching flight)
  | leaves {n : Nat} {result : Except ε α} :
    Steps f key accepts (.leave n result) (f.leave key) (.announce n result)
  | announces {n : Nat} {result : Except ε α} :
    Steps f key accepts (.announce n result) (f.announce n result.toOption) (.done result)

theorem steps_of_step {f g : SingleFlight α} {key : String} {accepts : α → Bool} {p q : FlightPhase ε α}
    (h : f.step key accepts p = some (g, q)) : f.Steps key accepts p g q := by
  cases p with
  | enter =>
    rcases found : f.flightOf? key with _ | n <;> simp only [step, enter, found] at h <;> cases h
    · exact .opens found
    · exact .follows found
  | follow n =>
    rcases told : f.outcome? n with _ | _ | a <;> simp only [step, told] at h <;> cases h
    · exact .parts told rfl
    · split
      next fits => exact .shares told fits
      next unfit => exact .parts told (Bool.not_eq_true _ ▸ unfit)
  | start flight => cases h; exact .starts
  | fetching flight => cases h
  | leave n result => cases h; exact .leaves
  | announce n result => cases h; exact .announces
  | done result => cases h

/-- The flight that a caller has in mind after a step. -/
theorem Steps.of_flight? {f g : SingleFlight α} {key : String} {accepts : α → Bool} {p q : FlightPhase ε α} {n : Nat}
    (h : f.Steps key accepts p g q) (flight : q.flight? = some n) :
    p.flight? = some n ∨ f.flightOf? key = some n ∨ n = f.next ∧ g.next = f.next + 1 := by
  cases h with
  | follows found =>
    cases flight
    exact .inr (.inl found)
  | opens closed =>
    cases flight
    exact .inr (.inr ⟨rfl, rfl⟩)
  | starts | leaves => exact .inl flight
  | _ => cases flight

end SingleFlight

namespace FlightWorld

variable {who : Nat → FlightCaller α} {w v : FlightWorld ε α} {i : Nat}

@[simp] theorem phases_move (w : FlightWorld ε α) (i : Nat) (p : Option (FlightPhase ε α)) (j : Nat) :
    (w.move i p).phases j = if j = i then p else w.phases j := rfl

@[simp] theorem flights_move (w : FlightWorld ε α) (i : Nat) (p : Option (FlightPhase ε α)) :
    (w.move i p).flights = w.flights := rfl

@[simp] theorem fetches_move (w : FlightWorld ε α) (i : Nat) (p : Option (FlightPhase ε α)) :
    (w.move i p).fetches = w.fetches := rfl

@[simp] theorem answers_move (w : FlightWorld ε α) (i : Nat) (p : Option (FlightPhase ε α)) :
    (w.move i p).answers = w.answers := rfl

/-- What an event of a caller does. -/
inductive Moves (who : Nat → FlightCaller α) (w : FlightWorld ε α) (i : Nat) : FlightWorld ε α → Prop
  | stays : Moves who w i w
  | follows {n : Nat} (phase : w.phases i = some .enter) (found : w.flights.flightOf? (who i).key = some n) :
    Moves who w i (w.move i (some (.follow n)))
  | opens (phase : w.phases i = some .enter) (closed : w.flights.flightOf? (who i).key = none) :
    Moves who w i { w.move i (some (.start (some w.flights.next))) with flights := { w.flights with
      next := w.flights.next + 1
      opened := w.flights.opened ++ [((who i).key, w.flights.next)] } }
  | shares {n : Nat} {a : α} (phase : w.phases i = some (.follow n))
    (told : w.flights.outcome? n = some (some a)) (fits : (who i).accepts a = true) :
    Moves who w i (w.move i (some (.done (.ok a))))
  | parts {n : Nat} {left : Option α} (phase : w.phases i = some (.follow n))
    (told : w.flights.outcome? n = some left) (unfit : left.any (who i).accepts = false) :
    Moves who w i (w.move i (some (.start none)))
  | starts {flight : Option Nat} (phase : w.phases i = some (.start flight)) :
    Moves who w i { w.move i (some (.fetching flight)) with fetches := w.fetches ++ [i] }
  | fetched {flight : Option Nat} {result : Except ε α} (phase : w.phases i = some (.fetching flight)) :
    Moves who w i { w.move i (some (.fetched flight result)) with answers := w.answers ++ [(i, result)] }
  | leaves {n : Nat} {result : Except ε α} (phase : w.phases i = some (.leave n result)) :
    Moves who w i { w.move i (some (.announce n result)) with flights := w.flights.leave (who i).key }
  | announces {n : Nat} {result : Except ε α} (phase : w.phases i = some (.announce n result)) :
    Moves who w i { w.move i (some (.done result)) with
      flights := w.flights.announce n result.toOption }
  /-- Someone without a flight of its own is gone. -/
  | quits {p : FlightPhase ε α} (phase : w.phases i = some p) (free : p.carries? = none)
    (under_way : p.isDone = false) : Moves who w i (w.move i none)
  | crashes {p : FlightPhase ε α} {n : Nat} (phase : w.phases i = some p) (leads : p.leads? = some n) :
    Moves who w i { w.move i none with
      flights := (w.flights.leave (who i).key).announce n none }
  | drops {n : Nat} {result : Except ε α} (phase : w.phases i = some (.announce n result)) :
    Moves who w i { w.move i none with flights := w.flights.announce n none }

theorem after_step_moves (who : Nat → FlightCaller α) (w : FlightWorld ε α) (i : Nat) :
    w.Moves who i (w.after who (.step i)) := by
  rcases phase : w.phases i with _ | p
  · simp only [after, phase]
    exact .stays
  rcases stepped : w.flights.step (who i).key (who i).accepts p with _ | ⟨flights, next⟩
  · simp only [after, phase, stepped]
    exact .stays
  simp only [after, phase, stepped]
  cases SingleFlight.steps_of_step stepped with
  | follows found => exact .follows phase found
  | opens closed => exact .opens phase closed
  | shares told fits => exact .shares phase told fits
  | parts told unfit => exact .parts phase told unfit
  | starts => exact .starts phase
  | leaves => exact .leaves phase
  | announces => exact .announces phase

theorem after_abandon_moves (who : Nat → FlightCaller α) (w : FlightWorld ε α) (i : Nat) :
    w.Moves who i (w.after who (.abandon i)) := by
  rcases phase : w.phases i with _ | p
  · simp only [after, phase]
    exact .stays
  cases p with
  | done result =>
    simp only [after, phase, FlightPhase.isDone]
    exact .stays
  | enter | follow n =>
    simp only [after, phase, FlightPhase.isDone]
    exact .quits phase rfl rfl
  | start flight | fetching flight =>
    simp only [after, phase, FlightPhase.isDone]
    cases flight with
    | none => exact .quits phase rfl rfl
    | some n => exact .crashes phase rfl
  | leave n result =>
    simp only [after, phase, FlightPhase.isDone]
    exact .crashes phase rfl
  | announce n result =>
    simp only [after, phase, FlightPhase.isDone]
    exact .drops phase

theorem after_moves (who : Nat → FlightCaller α) (w : FlightWorld ε α) (e : FlightEvent ε α) :
    w.Moves who e.caller (w.after who e) := by
  cases e with
  | step i => exact w.after_step_moves who i
  | abandon i => exact w.after_abandon_moves who i
  | answer i result =>
    simp only [after]
    split
    next flight phase => exact .fetched phase
    next => exact .stays

@[simp] theorem leads?_move (w : FlightWorld ε α) (i : Nat) (p : Option (FlightPhase ε α)) (j : Nat) :
    (w.move i p).leads? j = if j = i then p.bind FlightPhase.leads? else w.leads? j := by
  rw [leads?, leads?, phases_move, apply_ite (Option.bind · _)]

@[simp] theorem carries?_move (w : FlightWorld ε α) (i : Nat) (p : Option (FlightPhase ε α)) (j : Nat) :
    (w.move i p).carries? j = if j = i then p.bind FlightPhase.carries? else w.carries? j := by
  rw [carries?, carries?, phases_move, apply_ite (Option.bind · _)]

theorem leads?_of_phase {p : FlightPhase ε α} (phase : w.phases i = some p) : w.leads? i = p.leads? := by
  rw [leads?, phase]
  rfl

theorem carries?_of_phase {p : FlightPhase ε α} (phase : w.phases i = some p) : w.carries? i = p.carries? := by
  rw [carries?, phase]
  rfl

theorem leads?_move_of_eq {p : FlightPhase ε α} {q : Option (FlightPhase ε α)} (phase : w.phases i = some p)
    (same : q.bind FlightPhase.leads? = p.leads?) (j : Nat) : (w.move i q).leads? j = w.leads? j := by
  rw [leads?_move, same]
  split
  next own => rw [own, leads?_of_phase phase]
  next => rfl

theorem carries?_move_of_eq {p : FlightPhase ε α} {q : Option (FlightPhase ε α)} (phase : w.phases i = some p)
    (same : q.bind FlightPhase.carries? = p.carries?) (j : Nat) : (w.move i q).carries? j = w.carries? j := by
  rw [carries?_move, same]
  split
  next own => rw [own, carries?_of_phase phase]
  next => rfl

/-- Who does not begin to follow leaves those who follow as they are. -/
theorem follow_of_move {p : Option (FlightPhase ε α)} (other : ∀ n, p ≠ some (.follow n)) (j n : Nat)
    (phase : (w.move i p).phases j = some (.follow n)) : w.phases j = some (.follow n) := by
  rw [phases_move] at phase
  split at phase
  · exact absurd phase (other n)
  · exact phase

theorem carries?_of_leads? {n : Nat} (leads : w.leads? i = some n) : w.carries? i = some n := by
  obtain ⟨p, phase, leads⟩ := Option.bind_eq_some_iff.mp leads
  rw [carries?, phase]
  cases p with
  | announce m result => cases leads
  | _ => exact leads

/-- Open flights are those that someone leads; no two carry one flight, and what is carried has not landed. -/
structure Sound (who : Nat → FlightCaller α) (w : FlightWorld ε α) : Prop where
  entry : ∀ key n, w.flights.flightOf? key = some n ↔ ∃ i, (who i).key = key ∧ w.leads? i = some n
  single : ∀ i j n, w.carries? i = some n → w.carries? j = some n → i = j
  flying : ∀ i n, w.carries? i = some n → n < w.flights.next ∧ w.flights.outcome? n = none
  fresh : ∀ n, w.flights.next ≤ n → w.flights.outcome? n = none
  followed : ∀ i n, w.phases i = some (.follow n) → n < w.flights.next

theorem sound_begin (who : Nat → FlightCaller α) : Sound who (begin : FlightWorld ε α) := by
  constructor
  · exact fun key n => ⟨nofun, fun ⟨_, _, leads⟩ => nomatch leads⟩
  · exact fun i j n carries => nomatch carries
  · exact fun i n carries => nomatch carries
  · exact fun n _ => rfl
  · exact fun i n phase => nomatch phase

/-- A caller goes from one phase to another, and the flights stay. -/
theorem Sound.keeps (h : Sound who w) (flights : v.flights = w.flights) (leads : ∀ j, v.leads? j = w.leads? j)
    (carries : ∀ j, v.carries? j = w.carries? j)
    (followed : ∀ j n, v.phases j = some (.follow n) → n < w.flights.next) : Sound who v := by
  constructor
  · simpa only [flights, leads] using h.entry
  · simpa only [carries] using h.single
  · simpa only [flights, carries] using h.flying
  · simpa only [flights] using h.fresh
  · simpa only [flights] using followed

theorem Sound.opens (h : Sound who w) (closed : w.flights.flightOf? (who i).key = none)
    (flights : v.flights = { w.flights with
      next := w.flights.next + 1, opened := w.flights.opened ++ [((who i).key, w.flights.next)] })
    (leads : ∀ j, v.leads? j = if j = i then some w.flights.next else w.leads? j)
    (carries : ∀ j, v.carries? j = if j = i then some w.flights.next else w.carries? j)
    (follows : ∀ j n, v.phases j = some (.follow n) → w.phases j = some (.follow n)) : Sound who v := by
  have unled : ∀ j n, (who j).key = (who i).key → w.leads? j ≠ some n := fun j n own leads => by
    rw [(h.entry _ n).mpr ⟨j, own, leads⟩] at closed
    cases closed
  have flying := h.flying
  have flightOf? := SingleFlight.flightOf?_opened closed
  have outcome? : ∀ n, v.flights.outcome? n = w.flights.outcome? n := by rw [flights]; exact fun n => rfl
  have next : v.flights.next = w.flights.next + 1 := by rw [flights]
  rw [← flights] at flightOf?
  constructor
  · intro key n
    have := h.entry key n
    grind
  · have := h.single
    grind
  · have := h.fresh
    grind
  · exact fun n le => (outcome? n).trans (h.fresh n (by omega))
  · intro j n phase
    have := h.followed j n (follows j n phase)
    omega

/-- Who leads a flight of a key is the only one to lead the key. -/
theorem Sound.alone (h : Sound who w) {m n j : Nat} (mine : w.leads? i = some n) (other : w.leads? j = some m)
    (own : (who j).key = (who i).key) : j = i := by
  have entry := (h.entry (who i).key n).mpr ⟨i, rfl, mine⟩
  rw [(h.entry (who i).key m).mpr ⟨j, own, other⟩] at entry
  cases entry
  exact h.single j i m (carries?_of_leads? other) (carries?_of_leads? mine)

/-- A leader takes its flight off. -/
theorem Sound.leaves (h : Sound who w) {n : Nat} (led : w.leads? i = some n)
    (flights : v.flights = w.flights.leave (who i).key)
    (leads : ∀ j, v.leads? j = if j = i then none else w.leads? j) (carries : ∀ j, v.carries? j = w.carries? j)
    (follows : ∀ j n, v.phases j = some (.follow n) → w.phases j = some (.follow n)) : Sound who v := by
  constructor
  · intro key m
    rw [flights, SingleFlight.flightOf?_leave]
    have entry := h.entry key m
    have alone := fun j => h.alone (j := j) (m := m) led
    grind
  · simpa only [carries] using h.single
  · simp only [flights, carries]
    exact h.flying
  · rw [flights]
    exact h.fresh
  · rw [flights]
    exact fun j n phase => h.followed j n (follows j n phase)

/-- Someone tells the followers of its flight. -/
theorem Sound.tells (h : Sound who w) {n : Nat} (carried : w.carries? i = some n) {value : Option α}
    (flights : v.flights = w.flights.announce n value) (leads : ∀ j, v.leads? j = w.leads? j)
    (carries : ∀ j, v.carries? j = if j = i then none else w.carries? j)
    (follows : ∀ j n, v.phases j = some (.follow n) → w.phases j = some (.follow n)) : Sound who v := by
  have flying := h.flying
  have single := h.single
  have outcome? := SingleFlight.outcome?_announce (flying i n carried).2 value
  have next : v.flights.next = w.flights.next := by rw [flights]; rfl
  rw [← flights] at outcome?
  constructor
  · simp only [flights, leads]
    exact h.entry
  · grind
  · grind
  · have := h.fresh
    grind
  · rw [next]
    exact fun j n phase => h.followed j n (follows j n phase)

/-- A leader is gone, and its followers get nothing. -/
theorem Sound.crashes (h : Sound who w) {n : Nat} (led : w.leads? i = some n)
    (flights : v.flights = (w.flights.leave (who i).key).announce n none)
    (leads : ∀ j, v.leads? j = if j = i then none else w.leads? j)
    (carries : ∀ j, v.carries? j = if j = i then none else w.carries? j)
    (follows : ∀ j n, v.phases j = some (.follow n) → w.phases j = some (.follow n)) : Sound who v := by
  have carried := carries?_of_leads? led
  have flying := h.flying
  have single := h.single
  have outcome? := SingleFlight.outcome?_announce (f := w.flights.leave (who i).key) (flying i n carried).2 none
  have next : v.flights.next = w.flights.next := by rw [flights]; rfl
  simp only [SingleFlight.outcome?_leave, ← flights] at outcome?
  constructor
  · intro key m
    rw [flights, SingleFlight.flightOf?_announce, SingleFlight.flightOf?_leave]
    have entry := h.entry key m
    have alone := fun j => h.alone (j := j) (m := m) led
    grind
  · grind
  · grind
  · have := h.fresh
    grind
  · rw [next]
    exact fun j n phase => h.followed j n (follows j n phase)

theorem Sound.after (h : Sound who w) (e : FlightEvent ε α) : Sound who (w.after who e) := by
  have moves := w.after_moves who e
  generalize w.after who e = v at moves
  cases moves with
  | stays => exact h
  | @follows n phase found =>
    refine h.keeps rfl (leads?_move_of_eq phase rfl) (carries?_move_of_eq phase rfl) fun j m followed => ?_
    rw [phases_move] at followed
    split at followed
    · cases followed
      obtain ⟨leader, -, leads⟩ := (h.entry _ n).mp found
      exact (h.flying leader n (carries?_of_leads? leads)).1
    · exact h.followed j m followed
  | opens phase closed =>
    exact h.opens closed rfl (leads?_move w _ _) (carries?_move w _ _)
      (follow_of_move (by nofun))
  | shares phase told fits | parts phase told unfit | starts phase =>
    exact h.keeps rfl (leads?_move_of_eq phase rfl) (carries?_move_of_eq phase rfl) fun j m followed =>
      h.followed j m (follow_of_move (by nofun) j m followed)
  | @fetched flight result phase =>
    cases flight <;>
    exact h.keeps rfl (leads?_move_of_eq phase rfl) (carries?_move_of_eq phase rfl) fun j m followed =>
      h.followed j m (follow_of_move (by nofun) j m followed)
  | leaves phase =>
    exact h.leaves (leads?_of_phase phase) rfl (leads?_move w _ _) (carries?_move_of_eq phase rfl)
      (follow_of_move (by nofun))
  | announces phase | drops phase =>
    exact h.tells (carries?_of_phase phase) rfl (leads?_move_of_eq phase rfl) (carries?_move w _ _)
      (follow_of_move (by nofun))
  | @quits p phase free under_way =>
    have unled : p.leads? = none := by cases p <;> first | rfl | exact free
    exact h.keeps rfl (leads?_move_of_eq phase unled.symm) (carries?_move_of_eq phase free.symm)
      fun j m followed => h.followed j m (follow_of_move (by nofun) j m followed)
  | crashes phase leads =>
    exact h.crashes ((leads?_of_phase phase).trans leads) rfl (leads?_move w _ _) (carries?_move w _ _)
      (follow_of_move (by nofun))

theorem Sound.run (h : Sound who w) (events : List (FlightEvent ε α)) : Sound who (w.run who events) := by
  induction events generalizing w with
  | nil => exact h
  | cons e events ih => exact ih (h.after e)

end FlightWorld

end Workboard
