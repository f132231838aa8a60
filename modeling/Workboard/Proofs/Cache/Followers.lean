import Workboard.Proofs.Cache.Flights

/-!
Who fetches, and who follows. The fetches of a caller and the answers to them, by where it stands; where a
follower may stand, by what its flight was told.
-/

namespace Workboard.FlightWorld

variable {ε α : Type} {who : Nat → FlightCaller α} {w v : FlightWorld ε α} {i j n : Nat}

/-- How often a caller that stands somewhere began to fetch, and where its result is from. -/
def Accounts (w : FlightWorld ε α) (i : Nat) : Option (FlightPhase ε α) → Prop
  | none => w.fetches.count i ≤ 1
  | some .enter | some (.follow _) | some (.start _) => w.fetches.count i = 0
  | some (.fetching _) => w.fetches.count i = 1
  | some (.leave _ result) | some (.announce _ result) => w.fetches.count i = 1 ∧ (i, result) ∈ w.answers
  | some (.done result) =>
    (w.fetches.count i = 1 ∧ (i, result) ∈ w.answers) ∨ (w.fetches.count i = 0 ∧ ∃ a, result = .ok a)

def Accounted (w : FlightWorld ε α) : Prop := ∀ i, w.Accounts i (w.phases i)

theorem Accounts.congr {p : Option (FlightPhase ε α)} (h : w.Accounts i p)
    (fetches : v.fetches.count i = w.fetches.count i) (answers : ∀ r, (i, r) ∈ w.answers → (i, r) ∈ v.answers) :
    v.Accounts i p := by
  rcases p with _ | p
  · exact Nat.le_trans (Nat.le_of_eq fetches) h
  cases p with
  | enter | follow m | start m | fetching m => exact fetches.trans h
  | leave m r | announce m r => exact ⟨fetches.trans h.1, answers r h.2⟩
  | done r => exact h.imp (fun h => ⟨fetches.trans h.1, answers r h.2⟩) fun h => ⟨fetches.trans h.1, h.2⟩

theorem Accounts.le_one {p : Option (FlightPhase ε α)} (h : w.Accounts i p) : w.fetches.count i ≤ 1 := by
  rcases p with _ | p
  · exact h
  cases p <;> simp only [Accounts] at h <;> omega

theorem phases_after_of_ne {e : FlightEvent ε α} (other : i ≠ e.caller) : (w.after who e).phases i = w.phases i := by
  have moves := w.after_moves who e
  generalize w.after who e = v at moves
  cases moves <;> first | rfl | exact if_neg other

theorem fetches_after_of_ne {e : FlightEvent ε α} (other : i ≠ e.caller) :
    (w.after who e).fetches.count i = w.fetches.count i := by
  have moves := w.after_moves who e
  generalize w.after who e = v at moves
  cases moves with
  | starts phase => simp [other.symm]
  | _ => rfl

theorem answers_after {e : FlightEvent ε α} {r : Except ε α} (old : (i, r) ∈ w.answers) :
    (i, r) ∈ (w.after who e).answers := by
  have moves := w.after_moves who e
  generalize w.after who e = v at moves
  cases moves with
  | fetched phase => exact List.mem_append_left _ old
  | _ => exact old

theorem accounted_begin : (begin : FlightWorld ε α).Accounted := fun _ => rfl

theorem Accounted.after (h : w.Accounted) (e : FlightEvent ε α) : (w.after who e).Accounted := by
  intro i
  by_cases other : i ≠ e.caller
  · rw [phases_after_of_ne other]
    exact (h i).congr (fetches_after_of_ne other) fun r old => answers_after old
  have own : i = e.caller := Decidable.not_not.mp other
  subst own
  have here := h e.caller
  have moves := w.after_moves who e
  generalize w.after who e = v at moves
  cases moves
  case stays => exact here
  all_goals simp only [phases_move, if_true]
  case follows phase _ | opens phase _ | parts phase _ _ | leaves phase =>
    rw [phase] at here
    exact here
  case shares phase _ _ =>
    rw [phase] at here
    exact .inr ⟨here, _, rfl⟩
  case starts phase =>
    rw [phase] at here
    simpa [Accounts] using here
  case fetched flight result phase =>
    rw [phase] at here
    have own : (e.caller, result) ∈ w.answers ++ [(e.caller, result)] := List.mem_append_right _ List.mem_cons_self
    cases flight with
    | none => exact .inl ⟨here, own⟩
    | some n => exact ⟨here, own⟩
  case announces phase =>
    rw [phase] at here
    exact .inl here
  case quits | crashes | drops => exact here.le_one

theorem Accounted.run (h : w.Accounted) (events : List (FlightEvent ε α)) : (w.run who events).Accounted := by
  induction events generalizing w with
  | nil => exact h
  | cons e events ih => exact ih (h.after e)

/-- What an event tells is what its caller leaves. -/
theorem Sound.outcome?_after (h : Sound who w) (e : FlightEvent ε α) (n : Nat) :
    (w.after who e).flights.outcome? n = w.flights.outcome? n ∨
      w.carries? e.caller = some n ∧
        ∃ left, (w.after who e).flights.outcome? n = some left ∧ (w.after who e).leaves? e.caller = some left := by
  have flying := h.flying e.caller
  have moves := w.after_moves who e
  generalize w.after who e = v at moves
  have told : ∀ {m} {f : SingleFlight α} {value : Option α}, w.carries? e.caller = some m → f.outcome? m = none →
      v.flights = f.announce m value → (∀ n, f.outcome? n = w.flights.outcome? n) →
      v.leaves? e.caller = some value → v.flights.outcome? n = w.flights.outcome? n ∨
        w.carries? e.caller = some n ∧ ∃ left, v.flights.outcome? n = some left ∧ v.leaves? e.caller = some left := by
    intro m f value carries open? flights same leaves
    rw [flights, SingleFlight.outcome?_announce open?]
    split
    next own => exact .inr ⟨own ▸ carries, value, rfl, leaves⟩
    next => exact .inl (same n)
  cases moves with
  | announces phase =>
    have carries := carries?_of_phase phase
    exact told carries (flying _ carries).2 rfl (fun _ => rfl) (by simp [leaves?])
  | drops phase =>
    have carries := carries?_of_phase phase
    exact told carries (flying _ carries).2 rfl (fun _ => rfl) (by simp [leaves?])
  | crashes phase leads =>
    have carries := carries?_of_leads? ((leads?_of_phase phase).trans leads)
    exact told (f := w.flights.leave _) carries (flying _ carries).2 rfl (fun _ => rfl) (by simp [leaves?])
  | _ => exact .inl rfl

/-- What a flight was told stays. -/
theorem Sound.outcome?_stays (h : Sound who w) {left : Option α} (told : w.flights.outcome? n = some left)
    (e : FlightEvent ε α) : (w.after who e).flights.outcome? n = some left := by
  rcases h.outcome?_after e n with same | ⟨carries, -⟩
  · exact same.trans told
  · rw [(h.flying _ n carries).2] at told
    cases told

theorem of_leaves? {left : Option α} (ended : w.leaves? i = some left) :
    w.phases i = none ∧ left = none ∨ ∃ r, w.phases i = some (.done r) ∧ left = r.toOption := by
  rw [leaves?] at ended
  split at ended
  next phase => exact .inl ⟨phase, (Option.some.inj ended).symm⟩
  next r phase => exact .inr ⟨r, phase, (Option.some.inj ended).symm⟩
  next => cases ended

/-- Who has ended does nothing more. -/
theorem after_of_ended {left : Option α} {e : FlightEvent ε α} (ended : w.leaves? e.caller = some left) :
    w.after who e = w := by
  cases e <;> rcases of_leaves? ended with ⟨phase, -⟩ | ⟨r, phase, -⟩ <;> simp only [FlightEvent.caller] at phase <;>
    simp [after, phase, SingleFlight.step, FlightPhase.isDone]

theorem leaves?_after {left : Option α} (ended : w.leaves? j = some left) (e : FlightEvent ε α) :
    (w.after who e).leaves? j = some left := by
  by_cases own : j = e.caller
  · rw [after_of_ended (own ▸ ended)]
    exact ended
  · rw [leaves?, phases_after_of_ne own]
    exact ended

/-- Where a follower of a flight may stand once it is told what came of the flight. -/
def Serves (who : Nat → FlightCaller α) (w : FlightWorld ε α) (i n : Nat) (left : Option α) :
    Option (FlightPhase ε α) → Prop
  | none => True
  | some (.follow m) => m = n
  | some (.start flight) | some (.fetching flight) => flight = none ∧ left.any (who i).accepts = false
  | some (.done result) =>
    (∃ a, left = some a ∧ (who i).accepts a = true ∧ result = .ok a) ∨
      (left.any (who i).accepts = false ∧ w.fetches.count i = 1 ∧ (i, result) ∈ w.answers)
  | _ => False

/-- A caller follows a flight of another, or has followed it. -/
structure Aboard (who : Nat → FlightCaller α) (w : FlightWorld ε α) (j n i : Nat) : Prop where
  differs : i ≠ j
  carried : w.flights.outcome? n = none → w.carries? j = some n
  landed : ∀ left, w.flights.outcome? n = some left → w.leaves? j = some left
  waits : w.flights.outcome? n = none → w.phases i = none ∨ w.phases i = some (.follow n)
  told : ∀ left, w.flights.outcome? n = some left → w.Serves who i n left (w.phases i)
  idle : (∀ left, w.flights.outcome? n = some left → left.any (who i).accepts = true) → w.fetches.count i = 0

theorem Serves.congr {left : Option α} {p : Option (FlightPhase ε α)} (h : w.Serves who i n left p)
    (fetches : v.fetches.count i = w.fetches.count i) (answers : ∀ r, (i, r) ∈ w.answers → (i, r) ∈ v.answers) :
    v.Serves who i n left p := by
  rcases p with _ | p
  · trivial
  cases p with
  | done r => exact h.imp id fun ⟨unfit, once, own⟩ => ⟨unfit, fetches.trans once, answers r own⟩
  | _ => exact h

/-- A flight is carried until its followers are told. -/
theorem Sound.carries?_after (h : Sound who w) (carries : w.carries? j = some n) {e : FlightEvent ε α}
    (flying : (w.after who e).flights.outcome? n = none) : (w.after who e).carries? j = some n := by
  by_cases other : j ≠ e.caller
  · rw [carries?, phases_after_of_ne other]
    exact carries
  have own : j = e.caller := Decidable.not_not.mp other
  subst own
  have open? := (h.flying _ n carries).2
  have here : ∀ {p}, w.phases e.caller = some p → p.carries? = some n := fun phase =>
    (carries?_of_phase phase).symm.trans carries
  have moves := w.after_moves who e
  generalize w.after who e = v at moves flying
  cases moves with
  | stays => exact carries
  | follows phase | opens phase | shares phase | parts phase => cases here phase
  | starts phase => exact (carries?_move_of_eq phase rfl _).trans carries
  | @fetched flight result phase => cases flight <;> exact (carries?_move_of_eq phase rfl _).trans carries
  | leaves phase => exact (carries?_move_of_eq phase rfl _).trans carries
  | announces phase | drops phase =>
    cases here phase
    rw [SingleFlight.outcome?_announce open?, if_pos rfl] at flying
    cases flying
  | quits phase free => cases free.symm.trans (here phase)
  | crashes phase leads =>
    cases (carries?_of_leads? ((leads?_of_phase phase).trans leads)).symm.trans carries
    rw [SingleFlight.outcome?_announce (f := w.flights.leave _) open?, if_pos rfl] at flying
    cases flying

namespace Aboard

theorem flying_of_after (sound : Sound who w) {e : FlightEvent ε α}
    (flying : (w.after who e).flights.outcome? n = none) : w.flights.outcome? n = none := by
  rcases told : w.flights.outcome? n with _ | left
  · rfl
  · rw [sound.outcome?_stays told e] at flying
    cases flying

/-- What a step of its own makes of a follower. -/
theorem serves_own {e : FlightEvent ε α} (h : Aboard who w j n e.caller) (accounted : w.Accounted)
    {left : Option α} (told : w.flights.outcome? n = some left) :
    (w.after who e).Serves who e.caller n left ((w.after who e).phases e.caller) := by
  have place := h.told left told
  have account := accounted e.caller
  have moves := w.after_moves who e
  generalize w.after who e = v at moves
  cases moves
  case stays => exact place
  all_goals
    simp only [phases_move, if_true]
    rename w.phases e.caller = some _ => phase
    rw [phase] at place account
  case follows | opens | leaves | announces => exact place.elim
  case shares known fits =>
    cases place
    cases told.symm.trans known
    exact .inl ⟨_, rfl, fits, rfl⟩
  case parts known unfit =>
    cases place
    cases told.symm.trans known
    exact ⟨rfl, unfit⟩
  case starts => exact place
  case fetched =>
    obtain ⟨rfl, unfit⟩ := place
    exact .inr ⟨unfit, account, List.mem_append_right _ List.mem_cons_self⟩
  case quits | crashes | drops => trivial

theorem waits_own {e : FlightEvent ε α} (h : Aboard who w j n e.caller) (flying : w.flights.outcome? n = none) :
    (w.after who e).phases e.caller = none ∨ (w.after who e).phases e.caller = some (.follow n) := by
  have place := h.waits flying
  have moves := w.after_moves who e
  generalize w.after who e = v at moves
  cases moves
  case stays => exact place
  case quits | crashes | drops => exact .inl (if_pos rfl)
  all_goals
    rename w.phases e.caller = some _ => phase
    rw [phase] at place
    rcases place with gone | place
    · cases gone
  case shares known _ | parts known _ =>
    cases place
    cases flying.symm.trans known
  all_goals cases place

theorem idle_own {e : FlightEvent ε α} (h : Aboard who w j n e.caller)
    (fits : ∀ left, w.flights.outcome? n = some left → left.any (who e.caller).accepts = true) :
    (w.after who e).fetches.count e.caller = 0 := by
  have none_yet := h.idle fits
  have moves := w.after_moves who e
  generalize w.after who e = v at moves
  cases moves with
  | starts phase =>
    rcases told : w.flights.outcome? n with _ | left
    · rcases h.waits told with gone | waits
      · cases gone.symm.trans phase
      · cases waits.symm.trans phase
    · have place := h.told left told
      rw [phase] at place
      cases place.2.symm.trans (fits left told)
  | _ => exact none_yet

theorem after (h : Aboard who w j n i) (sound : Sound who w) (accounted : w.Accounted) (e : FlightEvent ε α) :
    Aboard who (w.after who e) j n i := by
  have stays : ∀ {left}, w.flights.outcome? n = some left → _ := fun told => sound.outcome?_stays told e
  refine ⟨h.differs, fun flying => ?_, fun left told => ?_, fun flying => ?_, fun left told => ?_, fun fits => ?_⟩
  · exact sound.carries?_after (h.carried (flying_of_after sound flying)) flying
  · rcases sound.outcome?_after e n with same | ⟨carries, left', told', leaves⟩
    · exact leaves?_after (h.landed left (same.symm.trans told)) e
    · cases told.symm.trans told'
      rw [sound.single j _ n (h.carried (sound.flying _ n carries).2) carries]
      exact leaves
  · have before := flying_of_after sound flying
    by_cases own : i = e.caller
    · subst own
      exact h.waits_own before
    · rw [phases_after_of_ne own]
      exact h.waits before
  · by_cases own : i = e.caller
    · subst own
      rcases before : w.flights.outcome? n with _ | left'
      · rcases h.waits_own before with gone | waits
        · rw [gone]
          trivial
        · rw [waits]
          rfl
      · cases told.symm.trans (stays before)
        exact h.serves_own accounted before
    · rw [phases_after_of_ne own]
      rcases before : w.flights.outcome? n with _ | left'
      · rcases h.waits before with gone | waits
        · rw [gone]
          trivial
        · rw [waits]
          rfl
      · cases told.symm.trans (stays before)
        exact (h.told _ before).congr (fetches_after_of_ne own) fun r old => answers_after old
  · have before : ∀ left, w.flights.outcome? n = some left → left.any (who i).accepts = true :=
      fun left told => fits left (stays told)
    by_cases own : i = e.caller
    · subst own
      exact h.idle_own before
    · rw [fetches_after_of_ne own]
      exact h.idle before

theorem run (h : Aboard who w j n i) (sound : Sound who w) (accounted : w.Accounted)
    (events : List (FlightEvent ε α)) : Aboard who (w.run who events) j n i := by
  induction events generalizing w with
  | nil => exact h
  | cons e events ih => exact ih (h.after sound accounted e) (sound.after e) (accounted.after e)

/-- Who comes while someone leads its key follows that flight. -/
theorem of_enter (sound : Sound who w) (accounted : w.Accounted) (comes : w.phases i = some .enter)
    (leads : w.Leads who (who i).key j) : ∃ n, Aboard who (w.after who (.step i)) j n i := by
  obtain ⟨own, led⟩ := leads
  obtain ⟨n, led⟩ := Option.isSome_iff_exists.mp led
  have differs : i ≠ j := by
    rintro rfl
    cases (leads?_of_phase comes).symm.trans led
  have found := (sound.entry _ n).mpr ⟨j, own, led⟩
  have follows : w.after who (.step i) = w.move i (some (.follow n)) := by
    simp only [FlightWorld.after, comes, SingleFlight.step, SingleFlight.enter, found]
    rfl
  have carries := carries?_of_leads? led
  have flying := (sound.flying j n carries).2
  have fresh := accounted i
  rw [comes] at fresh
  rw [follows]
  refine ⟨n, differs, fun _ => ?_, fun left told => ?_, fun _ => .inr (if_pos rfl), fun left told => ?_,
    fun _ => fresh⟩
  · rw [carries?_move, if_neg differs.symm]
    exact carries
  · cases flying.symm.trans told
  · cases flying.symm.trans told

end Aboard

end Workboard.FlightWorld
