import Workboard.Proofs.Cache.Provenance

/-!
Whose values reads return after an invalidation. A read that begins later fetches for itself, finds what a later
fetch has left in the store, or follows a flight. Nothing guards the last of these: the flight may be of a fetch
that began before.
-/

namespace Workboard

variable {ε α : Type}

/-- It has begun to fetch, and has not ended. -/
def FlightPhase.Began : FlightPhase ε α → Prop
  | .fetching _ | .leave _ _ | .announce _ _ => True
  | _ => False

theorem MemoryStore.value_of_get {s t : MemoryStore} {now : Nat} {key : String} {bytes : Bytes}
    (h : s.get now key = (.ok (some bytes), t)) : ∃ v, s.values.get? key = some v := by
  obtain ⟨⟨e, failed⟩, -⟩ | ⟨u, same, done, -⟩ := values_guarded h
  · cases failed
  · rw [← same]
    rcases found : u.values.get? key with _ | v
    · simp only [read, found] at done
      cases done
    · exact ⟨v, rfl⟩

theorem Reading.value_of_lookup {r : Reading α} {now : Nat} {c : CacheAside α} {a : α}
    (hit : (r.lookup now c).1 = some a) : ∃ v, c.store.values.get? (c.fullKey r.key) = some v := by
  unfold lookup at hit
  rcases looked : c.store.get now (c.fullKey r.key) with ⟨_ | _ | bytes, store⟩ <;> rw [looked] at hit
  · cases hit
  · cases hit
  · exact MemoryStore.value_of_get looked

/-- A read that has begun to fetch does so now, or did before, for the same flight. -/
theorem CacheWorld.began_after {w : CacheWorld ε α} {e : CacheEvent ε α} {m observed begun : Nat} {r : Reading α}
    {p : FlightPhase ε α} (stands : (w.after e).actors[m]? = some (.reading r (.joined observed p) begun))
    (began : p.Began) :
    begun = w.time ∨ ∃ q : FlightPhase ε α, w.actors[m]? = some (.reading r (.joined observed q) begun) ∧ q.Began ∧
      q.carries? = p.carries? := by
  cases reaches_after stands with
  | stays stood => exact .inr ⟨p, stood, began, rfl⟩
  | looks _ found => rcases found with same | ⟨a, same, -⟩ <;> cases same
  | observes => exact began.elim
  | steps stood stepped =>
    cases stepped with
    | starts => exact .inl rfl
    | leaves => exact .inr ⟨_, stood, trivial, rfl⟩
    | _ => exact began.elim
  | @answered _ flight _ _ _ stood fetched =>
    subst fetched
    cases flight with
    | none => exact began.elim
    | some k => exact .inr ⟨_, stood, trivial, rfl⟩

namespace CacheTrace

variable {t : CacheTrace ε α} {good : Nat → Prop}

/-- Only good fetches are behind a flight. -/
def Behind (t : CacheTrace ε α) (good : Nat → Prop) (n : Nat) : Prop :=
  (∀ r p begun, t.Flies r p begun → p.Began → p.carries? = some n → good begun) ∧
    ∀ begun, t.flown n = some begun → good begun

theorem Behind.after {n : Nat} (h : t.Behind good n) (now : good t.world.time) (e : CacheEvent ε α) :
    (t.after e).Behind good n := by
  refine ⟨?_, fun begun noted => ?_⟩
  · rintro r p begun ⟨m, observed, stands⟩ began carries
    rcases CacheWorld.began_after stands began with rfl | ⟨q, stood, began, same⟩
    · exact now
    · exact h.1 r q begun ⟨m, observed, stood⟩ began (same.trans carries)
  · rcases (t.changes_after e).of_flown noted with noted | ⟨r, a, flies⟩
    · exact h.2 begun noted
    · exact h.1 r _ begun flies trivial rfl

/-- Nothing is behind a flight that has yet to open. -/
theorem Sound.behind_next (h : t.Sound) : t.Behind good t.world.cache.flights.next := by
  refine ⟨fun r p begun flies _ carries => ?_, fun begun noted => ?_⟩
  · exact (Nat.lt_irrefl _ (h.flight r p begun _ flies (FlightPhase.flight?_of_carries? carries))).elim
  · exact (Nat.lt_irrefl _ (h.flown _ begun noted)).elim

/-- Reads that came after an invalidation of a name: whatever they find, follow or fetch is good. -/
structure Late (t : CacheTrace ε α) (good : Nat → Prop) (actor : Nat) (name : String) (epoch since count : Nat) :
    Prop where
  here : count ≤ t.world.actors.length
  fenced : t.world.Fenced actor name epoch since
  fresh : t.world.Fresh name since
  young : ∀ begun, since ≤ begun → good begun
  opened : ∀ n, t.world.cache.flights.flightOf? name = some n → t.Behind good n
  follows : ∀ m r observed n begun, count ≤ m →
    t.world.actors[m]? = some (.reading r (.joined observed (.follow n)) begun) →
    t.world.cache.fullKey r.key = name → t.Behind good n
  own : ∀ m r observed p begun, count ≤ m → t.world.actors[m]? = some (.reading r (.joined observed p) begun) →
    p.Began → since ≤ begun
  ended : ∀ m r phase begun a, count ≤ m → t.world.actors[m]? = some (.reading r phase begun) →
    t.world.cache.fullKey r.key = name → phase.result? = some (.ok a) →
    ∃ start, t.source m = some start ∧ good start

section late

variable {actor : Nat} {name : String} {epoch since count : Nat}

theorem Late.follows_after (h : t.Late good actor name epoch since count) (e : CacheEvent ε α) {m : Nat} {r : Reading α}
    {observed n begun : Nat} (late : count ≤ m)
    (stands : (t.after e).world.actors[m]? = some (.reading r (.joined observed (.follow n)) begun))
    (named : t.world.cache.fullKey r.key = name) : t.Behind good n := by
  cases CacheWorld.reaches_after stands with
  | stays stood => exact h.follows m r observed n begun late stood named
  | looks _ found => rcases found with same | ⟨a, same, -⟩ <;> cases same
  | steps stood stepped =>
    cases stepped with
    | follows found => exact h.opened n (named ▸ found)
  | @answered _ flight _ _ _ _ fetched => cases flight <;> cases fetched

theorem Late.own_after (h : t.Late good actor name epoch since count) (e : CacheEvent ε α) {m : Nat} {r : Reading α}
    {observed begun : Nat} {p : FlightPhase ε α} (late : count ≤ m)
    (stands : (t.after e).world.actors[m]? = some (.reading r (.joined observed p) begun)) (began : p.Began) :
    since ≤ begun := by
  rcases CacheWorld.began_after stands began with rfl | ⟨q, stood, began, -⟩
  · exact h.fenced.later
  · exact h.own m r observed q begun late stood began

theorem source_after {e : CacheEvent ε α} {m : Nat} {a b : CacheActor ε α} (stood : t.world.actors[m]? = some a)
    (stands : (t.after e).world.actors[m]? = some b) : (t.after e).source m = (t.sourceOf a b).or (t.source m) := by
  simp only [CacheTrace.after, stood, show (t.world.after e).actors[m]? = _ from stands]

/-- A late read ends with what it finds, what it is told, or what it has fetched. -/
theorem Late.ended_after (h : t.Late good actor name epoch since count) (sound : t.Sound) (e : CacheEvent ε α) {m : Nat}
    {r : Reading α} {phase : ReadPhase ε α} {begun : Nat} {a : α} (late : count ≤ m)
    (stands : (t.after e).world.actors[m]? = some (.reading r phase begun))
    (named : t.world.cache.fullKey r.key = name) (returns : phase.result? = some (.ok a)) :
    ∃ start, (t.after e).source m = some start ∧ good start := by
  cases CacheWorld.reaches_after stands with
  | stays stood =>
    rw [source_after stood stands]
    obtain ⟨start, known, fine⟩ := h.ended m r phase begun a late stood named returns
    refine ⟨start, ?_, fine⟩
    rw [known]
    cases phase with
    | joined observed p => cases p <;> rfl
    | hit b => rfl
    | _ => cases returns
  | comes => cases returns
  | looks stood found =>
    rcases found with rfl | ⟨b, rfl, hit⟩
    · cases returns
    · obtain ⟨v, held⟩ := Reading.value_of_lookup hit
      rw [named] at held
      obtain ⟨start, noted, early⟩ := h.fresh v held
      exact ⟨start, by rw [source_after stood stands, sourceOf, named, noted]; rfl, h.young start early⟩
  | observes => cases returns
  | steps stood stepped =>
    have known := source_after stood stands
    cases stepped with
    | shares told fits =>
      obtain ⟨start, noted⟩ := sound.told _ _ told
      refine ⟨start, ?_, (h.follows m r _ _ _ late stood named).2 start noted⟩
      rw [known, sourceOf, noted]
      rfl
    | announces => exact ⟨_, known, h.young _ (h.own m r _ _ _ late stood trivial)⟩
    | _ => cases returns
  | @answered _ flight _ _ _ stood fetched =>
    subst fetched
    have known := source_after stood stands
    cases flight with
    | none => exact ⟨_, known, h.young _ (h.own m r _ _ _ late stood trivial)⟩
    | some k => cases returns

theorem Late.after (h : t.Late good actor name epoch since count) (sound : t.Sound) (e : CacheEvent ε α) :
    (t.after e).Late good actor name epoch since count := by
  have now : good t.world.time := h.young _ h.fenced.later
  constructor
  · exact Nat.le_trans h.here (t.world.length_after e)
  · exact h.fenced.after e
  · exact h.fresh.after (fun f bytes begun mem own => Nat.le_of_not_lt fun early =>
      (h.fenced.filling f _ begun mem own early).2.2 bytes rfl) e
  · exact h.young
  · intro n found
    rcases (t.changes_after e).of_flightOf? found with found | ⟨rfl, -⟩
    · exact (h.opened n found).after now e
    · exact sound.behind_next.after now e
  · intro m r observed n begun late stands named
    rw [t.fullKey_after] at named
    exact (h.follows_after e late stands named).after now e
  · exact fun m r observed p begun late => h.own_after e late
  · intro m r phase begun a late stands named returns
    rw [t.fullKey_after] at named
    exact h.ended_after sound e late stands named returns

theorem Late.run (h : t.Late good actor name epoch since count) (sound : t.Sound) (events : List (CacheEvent ε α)) :
    (t.run events).Late good actor name epoch since count := by
  induction events generalizing t with
  | nil => exact h
  | cons e events ih => exact ih (h.after sound e) (sound.after e)

end late

/-- When an invalidation has succeeded, nothing stale is left but what flies. -/
theorem Sound.late (h : t.Sound) {actor : Nat} {name : String} {epoch since : Nat}
    (fenced : t.world.Fenced actor name epoch since) (fresh : t.world.Fresh name since) :
    t.Late (fun begun => since ≤ begun ∨ t.world.Lingers name begun) actor name epoch since
      t.world.actors.length := by
  have outside : ∀ {m} {a : CacheActor ε α}, t.world.actors.length ≤ m → t.world.actors[m]? = some a → False := by
    intro m a late found
    have := (List.getElem?_eq_some_iff.mp found).1
    omega
  refine ⟨Nat.le_refl _, fenced, fresh, fun _ => .inl, fun n found => ⟨?_, fun begun noted => ?_⟩, ?_, ?_, ?_⟩
  · intro r p begun flies began carries
    obtain ⟨leads, named⟩ := h.led name n r p begun found flies carries
    obtain ⟨m, observed, stood⟩ := flies
    have mem := List.mem_of_getElem? stood
    cases p with
    | fetching flight =>
      cases leads
      exact .inr ⟨r, observed, _, mem, named, n, .inl rfl⟩
    | leave k result =>
      cases leads
      exact .inr ⟨r, observed, _, mem, named, n, .inr ⟨result, rfl⟩⟩
    | announce k result => cases leads
    | _ => exact began.elim
  · cases (h.opened name n found).2.symm.trans noted
  · exact fun m _ _ _ _ late stood _ => (outside late stood).elim
  · exact fun m _ _ _ _ late stood _ => (outside late stood).elim
  · exact fun m _ _ _ _ late stood _ _ => (outside late stood).elim

/-- A read that begins after an invalidation of its key has succeeded returns a value whose fetch began after the
invalidation did, or whose fetch was still in flight when the invalidation ended. This is so however reads, fills
and invalidations take their steps, and whichever calls of the store fail, unless a fill had looked at the number of
invalidations, and not yet stored its value, when the invalidation counted itself. -/
theorem fresh_or_in_flight_after_invalidation (c : CacheAside α) (idle : c.flights = .empty)
    (before between later : List (CacheEvent ε α)) (actor since : Nat) (i : Invalidation) (key : String)
    (bumps : ((begin c).run before).world.actors[actor]? = some (.invalidating i .bump since))
    (covers : i.Covers key) (clear : ¬ ((begin c).run before).world.Overtakes (c.fullKey key) since)
    (result : Option Int)
    (ended : ((begin c).run (before ++ .step actor :: between)).world.actors[actor]? =
      some (.invalidating i (.done (.ok result)) since))
    (n : Nat) (late : ((begin c).run (before ++ .step actor :: between)).world.actors.length ≤ n)
    (r : Reading α) (phase : ReadPhase ε α) (begun : Nat)
    (stands : ((begin c).run (before ++ .step actor :: between ++ later)).world.actors[n]? =
      some (.reading r phase begun))
    (named : c.fullKey r.key = c.fullKey key) (a : α) (returns : phase.result? = some (.ok a)) :
    ∃ start, ((begin c).run (before ++ .step actor :: between ++ later)).source n = some start ∧
      (since ≤ start ∨
        ((begin c).run (before ++ .step actor :: between)).world.Lingers (c.fullKey key) start) := by
  let t : CacheTrace ε α := (begin c).run (before ++ .step actor :: between)
  have parted : t.world = (((CacheWorld.begin c).run before).after (.step actor)).run between := by
    rw [world_run, CacheWorld.run, List.foldl_append]
    rfl
  have name : ((CacheWorld.begin c : CacheWorld ε α).run before).cache.fullKey key = c.fullKey key :=
    congrFun (CacheWorld.run_fullKey _ before) key
  rw [world_run] at bumps clear
  have fenced := (((CacheWorld.sees_begin c).run before).fenced bumps covers (name ▸ clear)).run between
  rw [name, ← parted] at fenced
  have fresh := (fenced.invalidating i _ since ended).2 trivial
  have sound : t.Sound := (sound_begin idle).run _
  have whole : (begin c).run (before ++ .step actor :: between ++ later) = t.run later := List.foldl_append
  rw [whole] at stands ⊢
  refine ((sound.late fenced fresh).run sound later).ended n r phase begun a late stands ?_ returns
  rw [world_run, world_run, CacheWorld.run_fullKey, CacheWorld.run_fullKey]
  exact named

open CacheWorld (plainRead bench)

/-- A read is about to lead a flight when an invalidation begins, and ends after it. -/
def readAcross : List (CacheEvent Unit Bytes) :=
  [.read plainRead, .step 0, .step 0, .step 0, .step 0, .invalidate (.keys ["todo:1"])]

/-- The flight lands before a later read comes, which fetches for itself. -/
theorem fresh_or_in_flight_after_invalidation_refetch :
    ∃ start, ((begin bench).run (readAcross ++ .step 1 :: [.step 1, .answer 0 (.ok [1]), .step 0, .step 0] ++
      [.read plainRead, .step 3, .step 3, .step 3, .step 3, .answer 3 (.ok [2]), .step 3, .step 3])).source 3 =
        some start ∧ (5 ≤ start ∨ ((begin bench).run (readAcross ++ .step 1 ::
          [.step 1, .answer 0 (.ok [1]), .step 0, .step 0])).world.Lingers "app:todo:1" start) := by
  refine fresh_or_in_flight_after_invalidation bench rfl readAcross _ _ 1 5 (.keys ["todo:1"]) "todo:1" rfl
    (by simp [Invalidation.Covers]) ?_ none rfl 3 (Nat.le_refl 3) plainRead _ _ rfl rfl [2] rfl
  rintro ⟨f, phase, begun, mem, -⟩
  have actors : ((begin bench).run readAcross).world.actors =
      [.reading plainRead (.joined 0 (.fetching (some 0))) 4, .invalidating (.keys ["todo:1"]) .bump 5] := rfl
  simp [actors] at mem

/-- The store answers, and no time passes. -/
def Steady : CacheEvent ε α → Prop
  | .wait _ | .failing _ | .fault _ _ => False
  | _ => True

/-- It is not so that a read which begins after an invalidation of its key has succeeded returns no value of an
older fetch: it follows the flight of a read that was under way. -/
theorem stale_read_after_invalidation :
    ¬ ∀ (c : CacheAside Bytes) (events later : List (CacheEvent Unit Bytes)) (actor since : Nat) (i : Invalidation)
      (result : Option Int) (n : Nat) (r : Reading Bytes) (phase : ReadPhase Unit Bytes) (begun : Nat) (a : Bytes),
      (∀ e ∈ events ++ later, Steady e) → i.Covers r.key →
      ((begin c).run events).world.actors[actor]? = some (.invalidating i (.done (.ok result)) since) →
      ((begin c).run events).world.actors.length ≤ n →
      ((begin c).run (events ++ later)).world.actors[n]? = some (.reading r phase begun) →
      phase.result? = some (.ok a) →
      ∀ start, ((begin c).run (events ++ later)).source n = some start → since ≤ start := by
  intro claim
  have late : 5 ≤ 4 := claim bench (readAcross ++ [.step 1, .step 1])
    [.read plainRead, .step 2, .step 2, .step 2, .answer 0 (.ok [1]), .step 0, .step 0, .step 2]
    1 5 (.keys ["todo:1"]) none 2 plainRead _ _ [1] (by simp [readAcross, Steady])
    (by simp [Invalidation.Covers, plainRead]) rfl (by exact Nat.le_refl 2) rfl rfl 4 rfl
  omega

end CacheTrace

end Workboard
