import Workboard.Proofs.Cache.Flights

/-!
Callers of one key among those of others. What they do is what they would do alone, up to the numbers of their
flights.
-/

namespace Workboard

variable {ε α : Type}

/-- A single flight holds for one key what another holds, under other numbers. -/
structure SingleFlight.Copies (key : String) (number : Nat → Nat) (f g : SingleFlight α) : Prop where
  flight : f.flightOf? key = (g.flightOf? key).map number
  outcome : ∀ n < g.next, f.outcome? (number n) = g.outcome? n
  bound : ∀ n < g.next, number n < f.next
  distinct : ∀ m < g.next, ∀ n < g.next, number m = number n → m = n

namespace SingleFlight.Copies

variable {key : String} {number : Nat → Nat} {f g : SingleFlight α}

theorem leaves (h : Copies key number f g) : Copies key number (f.leave key) (g.leave key) := by
  refine ⟨?_, h.outcome, h.bound, h.distinct⟩
  rw [flightOf?_leave, flightOf?_leave, if_pos rfl, if_pos rfl]
  rfl

theorem announces (h : Copies key number f g) {n : Nat} (below : n < g.next) (flying : g.outcome? n = none)
    (value : Option α) : Copies key number (f.announce (number n) value) (g.announce n value) := by
  refine ⟨h.flight, fun m known => ?_, h.bound, h.distinct⟩
  rw [outcome?_announce ((h.outcome n below).trans flying), outcome?_announce flying, h.outcome m known]
  by_cases own : m = n
  · rw [if_pos own, if_pos (congrArg number own)]
  · rw [if_neg own, if_neg fun same => own (h.distinct m known n below same)]

/-- The numbers once a flight is open. -/
def renumber (number : Nat → Nat) (f g : SingleFlight α) (n : Nat) : Nat :=
  if n = g.next then f.next else number n

theorem renumber_of_lt {n : Nat} (below : n < g.next) : renumber number f g n = number n :=
  if_neg (Nat.ne_of_lt below)

theorem opens (h : Copies key number f g) (closed : g.flightOf? key = none)
    (flying : f.outcome? f.next = none) (fresh : g.outcome? g.next = none) :
    Copies key (renumber number f g)
      { f with next := f.next + 1, opened := f.opened ++ [(key, f.next)] }
      { g with next := g.next + 1, opened := g.opened ++ [(key, g.next)] } := by
  have unknown : f.flightOf? key = none := by rw [h.flight, closed]; rfl
  have below := h.bound
  refine ⟨?_, fun n le => ?_, fun n le => ?_, fun m hm n hn same => ?_⟩
  · rw [flightOf?_opened unknown, flightOf?_opened closed, if_pos rfl, if_pos rfl]
    simp [renumber]
  · rcases Nat.lt_succ_iff_lt_or_eq.mp le with old | rfl
    · rw [renumber_of_lt old]
      exact h.outcome n old
    · rw [renumber, if_pos rfl]
      exact flying.trans fresh.symm
  · simp only [renumber]
    grind
  · have := h.distinct m
    simp only [renumber] at same
    grind

/-- Another key opens a flight. -/
theorem opensOther (h : Copies key number f g) {other : String} (differs : other ≠ key)
    (closed : f.flightOf? other = none) :
    Copies key number { f with next := f.next + 1, opened := f.opened ++ [(other, f.next)] } g := by
  refine ⟨?_, h.outcome, fun n below => Nat.lt_succ_of_lt (h.bound n below), h.distinct⟩
  rw [flightOf?_opened closed, if_neg differs.symm]
  exact h.flight

theorem leavesOther (h : Copies key number f g) {other : String} (differs : other ≠ key) :
    Copies key number (f.leave other) g := by
  refine ⟨?_, h.outcome, h.bound, h.distinct⟩
  rw [flightOf?_leave, if_neg differs.symm]
  exact h.flight

theorem announcesOther (h : Copies key number f g) {m : Nat} (foreign : ∀ n < g.next, number n ≠ m)
    (flying : f.outcome? m = none) (value : Option α) : Copies key number (f.announce m value) g := by
  refine ⟨h.flight, fun n below => ?_, h.bound, h.distinct⟩
  rw [outcome?_announce flying, if_neg (foreign n below)]
  exact h.outcome n below

end SingleFlight.Copies

namespace FlightPhase

theorem rename_congr {number other : Nat → Nat} {p : FlightPhase ε α}
    (same : ∀ n, p.flight? = some n → number n = other n) : p.rename number = p.rename other := by
  cases p with
  | follow n | leave n result | announce n result => simp only [rename, same n rfl]
  | start flight | fetching flight =>
    cases flight with
    | none => rfl
    | some n => simp only [rename, Option.map_some, same n rfl]
  | _ => rfl

end FlightPhase

namespace FlightWorld

variable {who : Nat → FlightCaller α} {key : String} {number : Nat → Nat} {v w : FlightWorld ε α}

/-- Callers of a key stand as they do in another world, under other numbers for their flights, which no caller of
another key carries. -/
structure Mirrors (who : Nat → FlightCaller α) (key : String) (number : Nat → Nat) (v w : FlightWorld ε α) :
    Prop where
  copies : v.flights.Copies key number w.flights
  phases : ∀ i, (who i).key = key → v.phases i = (w.phases i).map (·.rename number)
  fetches : ∀ i, (who i).key = key → v.fetches.count i = w.fetches.count i
  answers : ∀ i, (who i).key = key → ∀ r, (i, r) ∈ v.answers ↔ (i, r) ∈ w.answers
  foreign : ∀ i m, (who i).key ≠ key → v.carries? i = some m → ∀ n < w.flights.next, number n ≠ m

theorem mirrors_begin (who : Nat → FlightCaller α) (key : String) :
    Mirrors who key id (begin : FlightWorld ε α) begin where
  copies := ⟨rfl, fun _ => nofun, fun _ => nofun, fun _ => nofun⟩
  phases := fun _ _ => rfl
  fetches := fun _ _ => rfl
  answers := fun _ _ _ => Iff.rfl
  foreign := fun _ _ _ carries => nomatch carries

/-- A caller of another key moves. -/
theorem Mirrors.moves_other (h : Mirrors who key number v w) {i : Nat} (differs : (who i).key ≠ key)
    {v' : FlightWorld ε α} {p : Option (FlightPhase ε α)} (phases : v'.phases = (v.move i p).phases)
    (copies : v'.flights.Copies key number w.flights)
    (fetches : v'.fetches = v.fetches ∨ v'.fetches = v.fetches ++ [i])
    (answers : v'.answers = v.answers ∨ ∃ r, v'.answers = v.answers ++ [(i, r)])
    (foreign : ∀ m, p.bind FlightPhase.carries? = some m → ∀ n < w.flights.next, number n ≠ m) :
    Mirrors who key number v' w := by
  have others : ∀ j, (who j).key = key → j ≠ i := fun j own same => differs (same ▸ own)
  refine ⟨copies, fun j own => ?_, fun j own => ?_, fun j own r => ?_, fun j m other carries => ?_⟩
  · rw [phases, phases_move, if_neg (others j own), h.phases j own]
  · rw [← h.fetches j own]
    rcases fetches with same | more
    · rw [same]
    · simp [more, (others j own).symm]
  · rw [← h.answers j own r]
    rcases answers with same | ⟨r', more⟩
    · rw [same]
    · simp [more, others j own]
  · have carries : (v.move i p).carries? j = some m := by rw [← carries, FlightWorld.carries?, ← phases]; rfl
    rw [carries?_move] at carries
    split at carries
    · exact foreign m carries
    · exact h.foreign j m other carries

/-- What a caller of another key does is nothing to the callers of the key. -/
theorem Mirrors.other (h : Mirrors who key number v w) (sound : Sound who v) {e : FlightEvent ε α}
    (differs : (who e.caller).key ≠ key) : Mirrors who key number (v.after who e) w := by
  have carried : ∀ {p : FlightPhase ε α} {m}, v.phases e.caller = some p → p.carries? = some m →
      v.flights.outcome? m = none ∧ ∀ n < w.flights.next, number n ≠ m := fun phase carries =>
    have carries := (carries?_of_phase phase).trans carries
    ⟨(sound.flying _ _ carries).2, h.foreign _ _ differs carries⟩
  have moves := v.after_moves who e
  generalize v.after who e = v' at moves
  cases moves with
  | stays => exact h
  | follows | shares | parts | quits =>
    exact h.moves_other differs rfl h.copies (.inl rfl) (.inl rfl) (by nofun)
  | opens phase closed =>
    refine h.moves_other differs rfl (h.copies.opensOther differs closed) (.inl rfl) (.inl rfl) ?_
    rintro m ⟨⟩ n below
    exact Nat.ne_of_lt (h.copies.bound n below)
  | starts phase =>
    exact h.moves_other differs rfl h.copies (.inr rfl) (.inl rfl) fun m carries => (carried phase carries).2
  | @fetched flight result phase =>
    refine h.moves_other differs rfl h.copies (.inl rfl) (.inr ⟨_, rfl⟩) fun m carries => (carried phase ?_).2
    cases flight with
    | none => cases carries
    | some n => exact carries
  | leaves phase =>
    exact h.moves_other differs rfl (h.copies.leavesOther differs) (.inl rfl) (.inl rfl)
      fun m carries => (carried phase carries).2
  | announces phase | drops phase =>
    obtain ⟨flying, foreign⟩ := carried phase rfl
    exact h.moves_other differs rfl (h.copies.announcesOther foreign flying _) (.inl rfl) (.inl rfl) (by nofun)
  | @crashes p n phase leads =>
    have carries := carries?_of_leads? ((leads?_of_phase phase).trans leads)
    obtain ⟨flying, foreign⟩ := carried phase ((carries?_of_phase phase).symm.trans carries)
    exact h.moves_other differs rfl ((h.copies.leavesOther differs).announcesOther foreign flying _) (.inl rfl)
      (.inl rfl) (by nofun)

/-- A caller of the key moves in both worlds. -/
theorem Mirrors.moves_both (h : Mirrors who key number v w) {i : Nat} (own : (who i).key = key)
    {v' w' : FlightWorld ε α} {p : Option (FlightPhase ε α)}
    (moved : v'.phases = (v.move i (p.map (·.rename number))).phases) (moved' : w'.phases = (w.move i p).phases)
    (copies : v'.flights.Copies key number w'.flights)
    (foreign : ∀ j m, (who j).key ≠ key → v.carries? j = some m → ∀ n < w'.flights.next, number n ≠ m)
    (fetches : v'.fetches = v.fetches ∧ w'.fetches = w.fetches ∨
      v'.fetches = v.fetches ++ [i] ∧ w'.fetches = w.fetches ++ [i])
    (answers : v'.answers = v.answers ∧ w'.answers = w.answers ∨
      ∃ r, v'.answers = v.answers ++ [(i, r)] ∧ w'.answers = w.answers ++ [(i, r)]) :
    Mirrors who key number v' w' := by
  refine ⟨copies, fun j mine => ?_, fun j mine => ?_, fun j mine r => ?_, fun j m other carries => ?_⟩
  · rw [moved, moved', phases_move, phases_move, h.phases j mine]
    split <;> rfl
  · rcases fetches with ⟨same, same'⟩ | ⟨more, more'⟩
    · rw [same, same', h.fetches j mine]
    · rw [more, more', List.count_append, List.count_append, h.fetches j mine]
  · rcases answers with ⟨same, same'⟩ | ⟨r', more, more'⟩
    · rw [same, same', h.answers j mine]
    · simp [more, more', h.answers j mine]
  · have differs : j ≠ i := fun same => other (same ▸ own)
    have carries : (v.move i (p.map (·.rename number))).carries? j = some m := by
      rw [← carries, FlightWorld.carries?, ← moved]; rfl
    rw [carries?_move, if_neg differs] at carries
    exact foreign j m other carries

/-- The caller goes on or ends, and no flight opens. -/
theorem Mirrors.moves_on (h : Mirrors who key number v w) {i : Nat} (own : (who i).key = key)
    {p : Option (FlightPhase ε α)} {f g : SingleFlight α} (copies : f.Copies key number g)
    (next : g.next = w.flights.next) :
    Mirrors who key number { v.move i (p.map (·.rename number)) with flights := f }
      { w.move i p with flights := g } :=
  h.moves_both own (p := p) rfl rfl copies (next ▸ h.foreign) (.inl ⟨rfl, rfl⟩) (.inl ⟨rfl, rfl⟩)

/-- Numbers that no one has given do not matter. -/
theorem Mirrors.congr (h : Mirrors who key number v w) (sound : Sound who w) {other : Nat → Nat}
    (same : ∀ n < w.flights.next, number n = other n) : Mirrors who key other v w := by
  have known : ∀ i p n, w.phases i = some p → p.flight? = some n → n < w.flights.next := by
    intro i p n phase flight
    cases p with
    | follow m =>
      cases flight
      exact sound.followed i n phase
    | _ => exact (sound.flying i n ((carries?_of_phase phase).trans flight)).1
  refine ⟨⟨?_, fun n below => ?_, fun n below => ?_, fun m hm n hn => ?_⟩, fun i own => ?_, h.fetches, h.answers,
    fun i m differs carries n below => ?_⟩
  · rw [h.copies.flight]
    rcases found : w.flights.flightOf? key with _ | n
    · rfl
    · obtain ⟨i, -, leads⟩ := (sound.entry key n).mp found
      rw [Option.map_some, Option.map_some, same n (sound.flying i n (carries?_of_leads? leads)).1]
  · rw [← same n below]
    exact h.copies.outcome n below
  · rw [← same n below]
    exact h.copies.bound n below
  · rw [← same m hm, ← same n hn]
    exact h.copies.distinct m hm n hn
  · rw [h.phases i own]
    rcases phase : w.phases i with _ | p
    · rfl
    · exact congrArg some (FlightPhase.rename_congr fun n flight => same n (known i p n phase flight))
  · rw [← same n below]
    exact h.foreign i m differs carries n below

theorem Mirrors.own_step (h : Mirrors who key number v w) (sound : Sound who v) (sound' : Sound who w) {i : Nat}
    (own : (who i).key = key) :
    ∃ number, Mirrors who key number (v.after who (.step i)) (w.after who (.step i)) := by
  have mirrored := h.phases i own
  have still := h.copies
  rcases phase : w.phases i with _ | p <;> rw [phase] at mirrored
  · simp only [after, phase, mirrored, Option.map_none]
    exact ⟨number, h⟩
  simp only [after, phase, mirrored, Option.map_some]
  cases p with
  | enter =>
    have flight := still.flight
    rcases found : w.flights.flightOf? key with _ | n <;> rw [found] at flight
    · simp only [FlightPhase.rename, SingleFlight.step, SingleFlight.enter, own, found, flight, Option.map_none]
      have copies := still.opens found (sound.fresh _ (Nat.le_refl _)) (sound'.fresh _ (Nat.le_refl _))
      have same : ∀ n < w.flights.next, number n = SingleFlight.Copies.renumber number v.flights w.flights n :=
        fun n below => (SingleFlight.Copies.renumber_of_lt below).symm
      refine ⟨_, (h.congr sound' same).moves_both own (p := some (.start (some w.flights.next))) ?_ rfl copies ?_
        (.inl ⟨rfl, rfl⟩) (.inl ⟨rfl, rfl⟩)⟩
      · simp [FlightPhase.rename, SingleFlight.Copies.renumber]
      · intro j m differs carries n below
        rcases Nat.lt_succ_iff_lt_or_eq.mp below with old | rfl
        · rw [← same n old]
          exact h.foreign j m differs carries n old
        · rw [SingleFlight.Copies.renumber, if_pos rfl]
          exact Ne.symm (Nat.ne_of_lt (sound.flying j m carries).1)
    · simp only [FlightPhase.rename, SingleFlight.step, SingleFlight.enter, own, found, flight, Option.map_some]
      exact ⟨number, h.moves_on own (p := some (.follow n)) still rfl⟩
  | follow n =>
    have outcome := still.outcome n (sound'.followed i n phase)
    simp only [FlightPhase.rename, SingleFlight.step, outcome]
    rcases w.flights.outcome? n with _ | _ | a
    · exact ⟨number, h⟩
    · exact ⟨number, h.moves_on own (p := some (.start none)) still rfl⟩
    · rcases fits : (who i).accepts a with _ | _ <;> simp only [fits]
      · exact ⟨number, h.moves_on own (p := some (.start none)) still rfl⟩
      · exact ⟨number, h.moves_on own (p := some (.done (.ok a))) still rfl⟩
  | start flight =>
    simp only [FlightPhase.rename, SingleFlight.step]
    exact ⟨number, h.moves_both own (p := some (.fetching flight)) rfl rfl still h.foreign (.inr ⟨rfl, rfl⟩)
      (.inl ⟨rfl, rfl⟩)⟩
  | leave n result =>
    simp only [FlightPhase.rename, SingleFlight.step, own]
    exact ⟨number, h.moves_on own (p := some (.announce n result)) still.leaves rfl⟩
  | announce n result =>
    obtain ⟨below, flying⟩ := sound'.flying i n (carries?_of_phase phase)
    simp only [FlightPhase.rename, SingleFlight.step]
    exact ⟨number, h.moves_on own (p := some (.done result)) (still.announces below flying _) rfl⟩
  | fetching | done =>
    simp only [FlightPhase.rename, SingleFlight.step]
    exact ⟨number, h⟩

theorem Mirrors.own_answer (h : Mirrors who key number v w) {i : Nat} (own : (who i).key = key)
    (result : Except ε α) :
    Mirrors who key number (v.after who (.answer i result)) (w.after who (.answer i result)) := by
  have mirrored := h.phases i own
  rcases phase : w.phases i with _ | p <;> rw [phase] at mirrored
  · simp only [after, phase, mirrored, Option.map_none]
    exact h
  simp only [after, phase, mirrored, Option.map_some]
  cases p with
  | fetching flight =>
    simp only [FlightPhase.rename]
    refine h.moves_both own (p := some (.fetched flight result)) ?_ rfl h.copies h.foreign (.inl ⟨rfl, rfl⟩)
      (.inr ⟨result, rfl, rfl⟩)
    cases flight <;> rfl
  | _ => exact h

theorem Mirrors.own_abandon (h : Mirrors who key number v w) (sound : Sound who w) {i : Nat}
    (own : (who i).key = key) :
    Mirrors who key number (v.after who (.abandon i)) (w.after who (.abandon i)) := by
  have mirrored := h.phases i own
  rcases phase : w.phases i with _ | p <;> rw [phase] at mirrored
  · simp only [after, phase, mirrored, Option.map_none]
    exact h
  have ends : ∀ {f g : SingleFlight α}, f.Copies key number g → g.next = w.flights.next →
      Mirrors who key number { v.move i none with flights := f } { w.move i none with flights := g } :=
    fun copies next => h.moves_on own (p := none) copies next
  have carried : ∀ {n}, p.carries? = some n → n < w.flights.next ∧ w.flights.outcome? n = none := fun carries =>
    sound.flying i _ ((carries?_of_phase phase).trans carries)
  simp only [after, phase, mirrored, Option.map_some]
  cases p with
  | done result => exact h
  | enter | follow n => exact ends h.copies rfl
  | start flight | fetching flight =>
    cases flight with
    | none => exact ends h.copies rfl
    | some n =>
      obtain ⟨below, flying⟩ := carried rfl
      simp only [FlightPhase.rename, FlightPhase.isDone, SingleFlight.abandon, own, Option.map_some]
      exact ends (h.copies.leaves.announces below flying none) rfl
  | leave n result =>
    obtain ⟨below, flying⟩ := carried rfl
    simp only [FlightPhase.rename, FlightPhase.isDone, SingleFlight.abandon, own]
    exact ends (h.copies.leaves.announces below flying none) rfl
  | announce n result =>
    obtain ⟨below, flying⟩ := carried rfl
    exact ends (h.copies.announces below flying none) rfl

/-- Callers of a key do among all callers what they do alone. -/
theorem Mirrors.run (h : Mirrors who key number v w) (sound : Sound who v) (sound' : Sound who w)
    (events : List (FlightEvent ε α)) : ∃ number, Mirrors who key number (v.run who events)
      (w.run who (events.filter fun e => (who e.caller).key = key)) := by
  induction events generalizing number v w with
  | nil => exact ⟨number, h⟩
  | cons e events ih =>
    by_cases own : (who e.caller).key = key
    · rw [List.filter_cons_of_pos (by simpa using own)]
      obtain ⟨number, h⟩ : ∃ number, Mirrors who key number (v.after who e) (w.after who e) := by
        cases e with
        | step i => exact h.own_step sound sound' own
        | answer i result => exact ⟨number, h.own_answer own result⟩
        | abandon i => exact ⟨number, h.own_abandon sound' own⟩
      exact ih h (sound.after e) (sound'.after e)
    · rw [List.filter_cons_of_neg (by simpa using own)]
      exact ih (h.other sound own) (sound.after e) sound'

end FlightWorld

end Workboard
