import Mathlib.Logic.ExistsUnique
import Workboard.Proofs.Cache.FlightsApart
import Workboard.Proofs.Cache.Followers

/-!
What callers of a single flight get. A follower waits while its leader is under way, returns the leader's value if
it can use it, and otherwise fetches once for itself. No one gets the error of another's fetch.
-/

namespace Workboard.FlightWorld

variable {ε α : Type} {who : Nat → FlightCaller α} {w v : FlightWorld ε α} {i j n : Nat}

def Waits (w : FlightWorld ε α) (i : Nat) : Prop := ∃ n, w.phases i = some (.follow n)

/-- How a caller fares that came while another led its key. -/
structure Rides (who : Nat → FlightCaller α) (w : FlightWorld ε α) (leader i : Nat) : Prop where
  /-- While the leader is under way, it waits. -/
  waits : w.leaves? leader = none → i ∉ w.fetches ∧ (w.phases i = none ∨ w.Waits i)
  /-- It returns a value of its type, and never fetches. -/
  shares : ∀ a, w.leaves? leader = some (some a) → (who i).accepts a = true →
    i ∉ w.fetches ∧ (w.phases i = none ∨ w.Waits i ∨ w.phases i = some (.done (.ok a)))
  /-- Without such a value, it returns what it fetches itself, once. -/
  parts : ∀ left r, w.leaves? leader = some left → left.any (who i).accepts = false →
    w.phases i = some (.done r) → w.fetches.count i = 1 ∧ (i, r) ∈ w.answers

theorem Aboard.outcome? (h : Aboard who w j n i) : w.flights.outcome? n = w.leaves? j := by
  rcases told : w.flights.outcome? n with _ | left
  · have carries := h.carried told
    rcases ended : w.leaves? j with _ | left
    · rfl
    · rcases of_leaves? ended with ⟨phase, -⟩ | ⟨r, phase, -⟩
      · rw [carries?, phase] at carries
        cases carries
      · cases (carries?_of_phase phase).symm.trans carries
  · exact (h.landed left told).symm

theorem Aboard.rides (h : Aboard who w j n i) : Rides who w j i := by
  have outcome := h.outcome?
  refine ⟨fun under_way => ?_, fun a left fits => ?_, fun left r ended unfit returns => ?_⟩
  · rw [under_way] at outcome
    refine ⟨List.count_eq_zero.mp (h.idle fun left told => ?_), (h.waits outcome).imp id fun waits => ⟨n, waits⟩⟩
    cases outcome.symm.trans told
  · rw [left] at outcome
    have usable : ∀ left, w.flights.outcome? n = some left → left.any (who i).accepts = true := by
      intro left told
      cases outcome.symm.trans told
      exact fits
    refine ⟨List.count_eq_zero.mp (h.idle usable), ?_⟩
    have place := h.told _ outcome
    rcases phase : w.phases i with _ | p
    · exact .inl rfl
    rw [phase] at place
    cases p with
    | follow m => exact .inr (.inl ⟨m, phase⟩)
    | start flight | fetching flight => cases place.2.symm.trans fits
    | done r =>
      rcases place with ⟨b, same, -, rfl⟩ | ⟨unfit, -⟩
      · cases same
        exact .inr (.inr rfl)
      · cases unfit.symm.trans fits
    | _ => exact place.elim
  · have place := h.told left (outcome.trans ended)
    rw [returns] at place
    rcases place with ⟨a, rfl, fits, -⟩ | ⟨-, once, own⟩
    · cases unfit.symm.trans fits
    · exact ⟨once, own⟩

namespace Aboard

theorem not_enter (h : Aboard who w j n i) : w.phases i ≠ some .enter := by
  intro comes
  rcases told : w.flights.outcome? n with _ | left
  · rcases h.waits told with gone | waits
    · cases gone.symm.trans comes
    · cases waits.symm.trans comes
  · have place := h.told left told
    rw [comes] at place
    exact place

theorem waits_of_after (h : Aboard who w j n i) {e : FlightEvent ε α} (waits : (w.after who e).Waits i) :
    w.Waits i := by
  obtain ⟨m, waits⟩ := waits
  by_cases own : i = e.caller
  · subst own
    have moves := w.after_moves who e
    generalize w.after who e = v at moves waits
    cases moves with
    | stays => exact ⟨m, waits⟩
    | follows phase => exact (h.not_enter phase).elim
    | @fetched flight _ _ => cases flight <;> cases (if_pos rfl).symm.trans waits
    | _ => cases (if_pos rfl).symm.trans waits
  · rw [phases_after_of_ne own] at waits
    exact ⟨m, waits⟩

theorem awake_run (h : Aboard who w j n i) (sound : Sound who w) (accounted : w.Accounted) (awake : ¬ w.Waits i)
    (events : List (FlightEvent ε α)) : ¬ (w.run who events).Waits i := by
  induction events generalizing w with
  | nil => exact awake
  | cons e events ih =>
    exact ih (h.after sound accounted e) (sound.after e) (accounted.after e) fun waits => awake (h.waits_of_after waits)

/-- A step of its own wakes a follower whose leader has ended. -/
theorem awake_after_step (h : Aboard who w j n i) {left : Option α} (ended : w.leaves? j = some left) :
    ¬ (w.after who (.step i)).Waits i := by
  intro waits
  obtain ⟨m, phase⟩ := h.waits_of_after waits
  have told := h.outcome?.trans ended
  have place := h.told left told
  rw [phase] at place
  cases place
  obtain ⟨k, waits⟩ := waits
  simp only [FlightWorld.after, phase, SingleFlight.step, told] at waits
  rcases left with _ | a
  · simp at waits
  · rcases fits : (who i).accepts a <;> simp [fits] at waits

theorem wakes (h : Aboard who w j n i) (sound : Sound who w) (accounted : w.Accounted) {left : Option α}
    (ended : w.leaves? j = some left) {late : List (FlightEvent ε α)} (stepped : .step i ∈ late) :
    ¬ (w.run who late).Waits i := by
  induction late generalizing w with
  | nil => cases stepped
  | cons e late ih =>
    have h' := h.after sound accounted e
    rcases List.mem_cons.mp stepped with rfl | later
    · exact h'.awake_run (sound.after _) (accounted.after _) (h.awake_after_step ended) late
    · exact ih h' (sound.after e) (accounted.after e) (leaves?_after ended e) later

end Aboard

/-- A caller is gone, or has begun to fetch. -/
def Begun (w : FlightWorld ε α) (i : Nat) : Prop := w.phases i = none ∨ w.fetches.count i = 1

theorem Begun.after (h : w.Begun i) (accounted : w.Accounted) (e : FlightEvent ε α) : (w.after who e).Begun i := by
  rcases h with gone | once
  · by_cases own : i = e.caller
    · subst own
      have ended : w.leaves? e.caller = some none := by rw [leaves?, gone]
      rw [after_of_ended ended]
      exact .inl gone
    · exact .inl ((phases_after_of_ne own).trans gone)
  · have most : (w.after who e).fetches.count i ≤ 1 := (accounted.after e i).le_one
    have moves := w.after_moves who e
    generalize w.after who e = v at moves most
    cases moves with
    | starts phase =>
      refine .inr (Nat.le_antisymm most ?_)
      simp [once]
    | _ => exact .inr once

theorem Begun.run (h : w.Begun i) (accounted : w.Accounted) (events : List (FlightEvent ε α)) :
    (w.run who events).Begun i := by
  induction events generalizing w with
  | nil => exact h
  | cons e events ih => exact ih (h.after accounted e) (accounted.after e)

namespace Aboard

/-- Who is awake and got no value it can use begins to fetch with its next step. -/
theorem begun_after_step (h : Aboard who w j n i) (accounted : w.Accounted) {left : Option α}
    (ended : w.leaves? j = some left) (unfit : left.any (who i).accepts = false) (awake : ¬ w.Waits i) :
    (w.after who (.step i)).Begun i := by
  have account := accounted i
  have place := h.told left (h.outcome?.trans ended)
  rcases phase : w.phases i with _ | p
  · exact Begun.after (.inl phase) accounted _
  rw [phase] at place account
  cases p with
  | follow m => exact (awake ⟨m, phase⟩).elim
  | start flight =>
    refine .inr ?_
    have none_yet : w.fetches.count i = 0 := account
    simp [FlightWorld.after, phase, SingleFlight.step, none_yet]
  | fetching flight => exact Begun.after (.inr account) accounted _
  | done r =>
    rcases place with ⟨a, rfl, fits, -⟩ | ⟨-, once, -⟩
    · cases unfit.symm.trans fits
    · exact Begun.after (.inr once) accounted _
  | _ => exact place.elim

theorem begins (h : Aboard who w j n i) (sound : Sound who w) (accounted : w.Accounted) {left : Option α}
    (ended : w.leaves? j = some left) (unfit : left.any (who i).accepts = false) (awake : ¬ w.Waits i)
    {late : List (FlightEvent ε α)} (stepped : .step i ∈ late) : (w.run who late).Begun i := by
  induction late generalizing w with
  | nil => cases stepped
  | cons e late ih =>
    have h' := h.after sound accounted e
    rcases List.mem_cons.mp stepped with rfl | later
    · exact (h.begun_after_step accounted ended unfit awake).run (accounted.after _) late
    · exact ih h' (sound.after e) (accounted.after e) (leaves?_after ended e)
        (fun waits => awake (h.waits_of_after waits)) later

/-- A follower that got no value it can use fetches for itself, once it has taken two steps. -/
theorem fetches (h : Aboard who w j n i) (sound : Sound who w) (accounted : w.Accounted) {left : Option α}
    (ended : w.leaves? j = some left) (unfit : left.any (who i).accepts = false)
    {late : List (FlightEvent ε α)} (stepped : List.Sublist [.step i, .step i] late) : (w.run who late).Begun i := by
  induction late generalizing w with
  | nil => cases stepped
  | cons e late ih =>
    have h' := h.after sound accounted e
    have ended' : (w.after who e).leaves? j = some left := leaves?_after ended e
    cases stepped with
    | cons _ later => exact ih h' (sound.after e) (accounted.after e) ended' later
    | cons_cons _ later =>
      exact h'.begins (sound.after _) (accounted.after _) ended' unfit (h.awake_after_step ended)
        (List.singleton_sublist.mp later)

end Aboard

theorem Sound.isSome_flightOf? (h : Sound who w) (key : String) :
    (w.flights.flightOf? key).isSome ↔ ∃! i, w.Leads who key i := by
  constructor
  · intro found
    obtain ⟨n, found⟩ := Option.isSome_iff_exists.mp found
    obtain ⟨i, own, leads⟩ := (h.entry key n).mp found
    refine ⟨i, ⟨own, by rw [leads]; rfl⟩, ?_⟩
    rintro j ⟨theirs, led⟩
    obtain ⟨m, led⟩ := Option.isSome_iff_exists.mp led
    exact h.alone leads led (theirs.trans own.symm)
  · rintro ⟨i, ⟨own, leads⟩, -⟩
    obtain ⟨n, leads⟩ := Option.isSome_iff_exists.mp leads
    rw [(h.entry key n).mpr ⟨i, own, leads⟩]
    rfl

theorem mem_answers_after {r : Except ε α} {e : FlightEvent ε α} (known : (i, r) ∈ (w.after who e).answers) :
    (i, r) ∈ w.answers ∨ e = .answer i r := by
  cases e with
  | answer k r' =>
    simp only [FlightWorld.after] at known
    split at known
    · rcases List.mem_append.mp known with old | new
      · exact .inl old
      · cases List.mem_singleton.mp new
        exact .inr rfl
    · exact .inl known
  | step k =>
    have same : (w.after who (.step k)).answers = w.answers := by
      simp only [FlightWorld.after]
      split
      · rfl
      · split <;> rfl
    exact .inl (same ▸ known)
  | abandon k =>
    have same : (w.after who (.abandon k)).answers = w.answers := by
      simp only [FlightWorld.after]
      split
      · rfl
      · split <;> rfl
    exact .inl (same ▸ known)

theorem mem_answers_run {r : Except ε α} {events : List (FlightEvent ε α)}
    (known : (i, r) ∈ (w.run who events).answers) : (i, r) ∈ w.answers ∨ .answer i r ∈ events := by
  induction events generalizing w with
  | nil => exact .inl known
  | cons e events ih =>
    rcases ih known with now | later
    · exact (mem_answers_after now).imp_right fun same => List.mem_cons.mpr (.inl same.symm)
    · exact .inr (List.mem_cons_of_mem _ later)

theorem run_append (w : FlightWorld ε α) (front back : List (FlightEvent ε α)) :
    w.run who (front ++ back) = (w.run who front).run who back := List.foldl_append

/-- A caller comes while another leads its key. -/
def Finds (who : Nat → FlightCaller α) (w : FlightWorld ε α) (i leader : Nat) : Prop :=
  w.phases i = some .enter ∧ w.Leads who (who i).key leader

/-- What callers of any keys get, however their steps, answers and ends come between one another. A key has an open
flight while one caller leads it. A caller that finds a leader waits for it, no longer than to its own next step
after the leader's end, and returns the leader's value or what it fetches itself, once. A result that is not a
leader's value is from the caller's own fetch. Callers of one key do what they would do alone. -/
theorem callers_share_flights (who : Nat → FlightCaller α) (events : List (FlightEvent ε α)) :
    let w := (begin : FlightWorld ε α).run who events
    (∀ key, (w.flights.flightOf? key).isSome ↔ ∃! i, w.Leads who key i) ∧
    (∀ key i j, w.Leads who key i → w.Leads who key j → i = j) ∧
    (∀ past future i j, events = past ++ .step i :: future →
      ((begin : FlightWorld ε α).run who past).Finds who i j →
      Rides who w j i ∧
      ∀ mid late left, future = mid ++ late →
        ((begin : FlightWorld ε α).run who (past ++ .step i :: mid)).leaves? j = some left → .step i ∈ late →
        ¬ w.Waits i ∧
          (left.any (who i).accepts = false → List.Sublist [.step i, .step i] late → w.Begun i)) ∧
    (∀ i, w.fetches.count i ≤ 1 ∧ ∀ r, w.phases i = some (.done r) →
      (w.fetches.count i = 1 ∧ (i, r) ∈ w.answers) ∨ (i ∉ w.fetches ∧ ∃ a, r = .ok a)) ∧
    (∀ i r, (i, r) ∈ w.answers → .answer i r ∈ events) ∧
    ∀ key, ∃ number, ∀ i, (who i).key = key →
      let alone := (begin : FlightWorld ε α).run who (events.filter fun e => (who e.caller).key = key)
      w.phases i = (alone.phases i).map (·.rename number) ∧ w.fetches.count i = alone.fetches.count i ∧
        ∀ r, (i, r) ∈ w.answers ↔ (i, r) ∈ alone.answers := by
  intro w
  have sound : Sound who w := (sound_begin who).run events
  have accounted : w.Accounted := accounted_begin.run events
  refine ⟨sound.isSome_flightOf?, ?_, ?_, ?_, ?_, ?_⟩
  · rintro key i j ⟨own, leads⟩ ⟨own', leads'⟩
    obtain ⟨n, leads⟩ := Option.isSome_iff_exists.mp leads
    obtain ⟨m, leads'⟩ := Option.isSome_iff_exists.mp leads'
    exact (sound.alone leads leads' (own'.trans own.symm)).symm
  · rintro past future i j parted ⟨comes, leads⟩
    let arrival : FlightWorld ε α := (begin.run who past).after who (.step i)
    have before : Sound who ((begin : FlightWorld ε α).run who past) := (sound_begin who).run past
    have counted : ((begin : FlightWorld ε α).run who past).Accounted := accounted_begin.run past
    obtain ⟨n, aboard⟩ := Aboard.of_enter before counted comes leads
    have here : Sound who arrival := before.after (.step i)
    have counted : arrival.Accounted := counted.after (.step i)
    have final : w = arrival.run who future := (congrArg _ parted).trans (run_append _ past (.step i :: future))
    rw [final]
    refine ⟨(aboard.run here counted future).rides, ?_⟩
    rintro mid late left rfl ended stepped
    rw [run_append] at ended ⊢
    have aboard := aboard.run here counted mid
    have here := here.run mid
    have counted : (arrival.run who mid).Accounted := counted.run mid
    exact ⟨aboard.wakes here counted ended stepped, fun unfit twice => aboard.fetches here counted ended unfit twice⟩
  · refine fun i => ⟨(accounted i).le_one, fun r returns => ?_⟩
    have account := accounted i
    rw [returns] at account
    exact account.imp id fun ⟨none_yet, ok⟩ => ⟨List.count_eq_zero.mp none_yet, ok⟩
  · exact fun i r known => (mem_answers_run known).resolve_left (List.not_mem_nil)
  · intro key
    obtain ⟨number, mirrors⟩ := (mirrors_begin who key).run (sound_begin who) (sound_begin who) events
    exact ⟨number, fun i own => ⟨mirrors.phases i own, mirrors.fetches i own, mirrors.answers i own⟩⟩

/-- One leads, one follows and can use the value, and one follows and cannot. -/
theorem two_follow_a_leader :
    let who : Nat → FlightCaller (Nat ⊕ String) := fun i => ⟨"a", if i = 2 then Sum.isRight else Sum.isLeft⟩
    let past : List (FlightEvent String (Nat ⊕ String)) := [.step 0, .step 0]
    let mid := [.answer 0 (.ok (.inl 7)), .step 0, .step 0]
    let late := [.step 1, .step 2, .step 2]
    let w := begin.run who (past ++ .step 1 :: .step 2 :: (mid ++ late))
    (begin.run who past).Finds who 1 0 ∧ (begin.run who (past ++ [.step 1])).Finds who 2 0 ∧
      (w.phases 1 = some (.done (.ok (.inl 7))) ∧ Rides who w 0 1 ∧ ¬ w.Waits 1) ∧
      Rides who w 0 2 ∧ ¬ w.Waits 2 ∧ w.Begun 2 := by
  intro who past mid late w
  have comes : (begin.run who past).Finds who 1 0 := ⟨rfl, rfl, rfl⟩
  have follows : (begin.run who (past ++ [.step 1])).Finds who 2 0 := ⟨rfl, rfl, rfl⟩
  obtain ⟨-, -, rides, -⟩ := callers_share_flights who (past ++ .step 1 :: .step 2 :: (mid ++ late))
  obtain ⟨shares, wakes⟩ := rides past _ 1 0 rfl comes
  obtain ⟨parts, fetches⟩ := rides (past ++ [.step 1]) _ 2 0 rfl follows
  have awake := (wakes (.step 2 :: mid) late (some (.inl 7)) rfl rfl (by simp [late])).1
  obtain ⟨awake', begun⟩ := fetches mid late (some (.inl 7)) rfl rfl (by simp [late])
  exact ⟨comes, follows, ⟨rfl, shares, awake⟩, parts, awake', begun rfl (by simp [late])⟩

end Workboard.FlightWorld
