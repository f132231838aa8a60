import Workboard.Proofs.Cache.Steps

/-!
What one event leaves where many tasks work on a cache: where tasks stand, what they know of invalidations,
and whose values are stored.
-/

namespace Workboard

variable {ε α : Type}

namespace CacheWorld

variable {w : CacheWorld ε α} {a : CacheActor ε α} {e : CacheEvent ε α}

/-- How a task comes to stand as it does by an event. -/
inductive Arises (w : CacheWorld ε α) (e : CacheEvent ε α) : CacheActor ε α → Prop where
  | reads (r : Reading α) : Arises w e (.reading r .lookup 0)
  | invalidates (i : Invalidation) (asked : e = .invalidate i) : Arises w e (.invalidating i i.start w.time)
  | steps {a b : CacheActor ε α} {c : CacheAside α} (mem : a ∈ w.actors)
    (step : a.step w.clock w.time w.cache = some (c, b)) : Arises w e b
  | answered {r : Reading α} {observed : Nat} {flight : Option Nat} {begun : Nat}
    {result : Except ε α} {phase : FlightPhase ε α}
    (mem : .reading r (.joined observed (.fetching flight)) begun ∈ w.actors)
    (fetched : phase = .fetched flight result) : Arises w e (.reading r (.joined observed phase) begun)
  | fills {r : Reading α} {observed : Nat} {flight : Option Nat} {begun : Nat}
    (mem : .reading r (.joined observed (.fetching flight)) begun ∈ w.actors) (value : α) :
    Arises w e (.filling (r.fill w.cache observed value) .check begun)
  | gone : Arises w e .gone

theorem mem_after (h : a ∈ (w.after e).actors) : a ∈ w.actors ∨ w.Arises e a := by
  cases e with
  | read r =>
    rcases List.mem_append.mp h with old | new
    · exact .inl old
    · exact .inr (List.mem_singleton.mp new ▸ .reads r)
  | invalidate i =>
    rcases List.mem_append.mp h with old | new
    · exact .inl old
    · exact .inr (List.mem_singleton.mp new ▸ .invalidates i rfl)
  | step n =>
    simp only [after, perform] at h
    split at h
    next b found =>
      split at h
      next c next stepped =>
        rcases List.mem_or_eq_of_mem_set h with old | rfl
        · exact .inl old
        · exact .inr (.steps (List.mem_of_getElem? found) stepped)
      next => exact .inl h
    next => exact .inl h
  | answer n result =>
    simp only [after, perform] at h
    split at h
    next r observed flight begun found =>
      have mem := List.mem_of_getElem? found
      rcases List.mem_append.mp h with old | new
      · rcases List.mem_or_eq_of_mem_set old with old | rfl
        · exact .inl old
        · exact .inr (.answered mem rfl)
      · obtain ⟨f, hf, rfl⟩ := List.mem_map.mp new
        obtain ⟨value, -, rfl⟩ := Option.map_eq_some_iff.mp (Option.mem_toList.mp hf)
        exact .inr (.fills mem value)
    next => exact .inl h
  | abandon n =>
    simp only [after, perform] at h
    split at h
    all_goals first
      | exact .inl h
      | rcases List.mem_or_eq_of_mem_set h with old | rfl
        · exact .inl old
        · exact .inr .gone
  | wait ms => exact .inl h
  | failing on => exact .inl h
  | fault call times => exact .inl h

theorem length_after (w : CacheWorld ε α) (e : CacheEvent ε α) :
    w.actors.length ≤ (w.after e).actors.length := by
  cases e with
  | step n | answer n | abandon n =>
    simp only [after, perform]
    grind
  | _ => simp [after, perform]

/-- What an event leaves in the cache. -/
theorem after_cache (w : CacheWorld ε α) (e : CacheEvent ε α) :
    (w.after e).cache.root = w.cache.root ∧ w.cache.epoch ≤ (w.after e).cache.epoch ∧
      ∀ key v, (w.after e).cache.store.values.get? key = some v →
        w.cache.store.values.get? key = some v ∧ (w.after e).origin.get? key = w.origin.get? key ∨
          ∃ f bytes begun, .filling f (.set bytes) begun ∈ w.actors ∧ f.key = key ∧
            (w.after e).origin.get? key = some begun := by
  have still : w.cache.root = w.cache.root ∧ w.cache.epoch ≤ w.cache.epoch ∧
      ∀ key v, w.cache.store.values.get? key = some v →
        w.cache.store.values.get? key = some v ∧ w.origin.get? key = w.origin.get? key ∨
          ∃ f bytes begun, .filling f (.set bytes) begun ∈ w.actors ∧ f.key = key ∧
            w.origin.get? key = some begun :=
    ⟨rfl, Nat.le_refl _, fun _ _ found => .inl ⟨found, rfl⟩⟩
  cases e with
  | step n =>
    simp only [after, perform]
    split
    next a found =>
      split
      next c b stepped =>
        obtain ⟨root, epoch, values⟩ := CacheActor.step_cases stepped w.origin
        refine ⟨root, epoch, ?_⟩
        intro key v held
        rcases values key v held with old | ⟨f, bytes, begun, rfl, own, noted⟩
        · exact .inl old
        · exact .inr ⟨f, bytes, begun, List.mem_of_getElem? found, own, noted⟩
      next => exact still
    next => exact still
  | answer n result =>
    simp only [after, perform]
    split <;> exact still
  | abandon n =>
    simp only [after, perform]
    split
    next r phase begun found =>
      have shrinks := r.abandon_shrinks w.cache phase
      exact ⟨shrinks.root, shrinks.epoch, fun key v held => .inl ⟨shrinks.values key v held, rfl⟩⟩
    next => exact still
    next => exact still
  | read r => exact still
  | invalidate i => exact still
  | wait ms => exact still
  | failing on => exact still
  | fault call times => exact still

/-- Where an invalidation stands after an event it stood before, unless the event is its step. -/
theorem invalidating_after {n : Nat} (here : n < w.actors.length) {i : Invalidation}
    {phase : InvalidationPhase} {begun : Nat}
    (h : (w.after e).actors[n]? = some (.invalidating i phase begun)) :
    w.actors[n]? = some (.invalidating i phase begun) ∨ ∃ old,
      w.actors[n]? = some (.invalidating i old begun) ∧
        i.step w.clock w.cache old = ((w.after e).cache, phase) := by
  cases e with
  | read r =>
    rw [← h]
    exact .inl (List.getElem?_append_left here).symm
  | invalidate j =>
    rw [← h]
    exact .inl (List.getElem?_append_left here).symm
  | step m =>
    simp only [after, perform] at h ⊢
    split at h
    next a found =>
      split at h
      next c b stepped =>
        rw [List.getElem?_set] at h
        split at h
        next same =>
          subst same
          obtain rfl := Option.some.inj (by simpa [here] using h)
          obtain ⟨old, rfl, moved⟩ := CacheActor.step_invalidating stepped
          exact .inr ⟨old, found, by simpa only [found, stepped] using moved⟩
        next => exact .inl h
      next => exact .inl h
    next => exact .inl h
  | answer m result =>
    simp only [after, perform] at h
    split at h
    next r observed flight old found =>
      rw [List.getElem?_append_left (by simpa using here), List.getElem?_set] at h
      split at h
      next same => simp at h
      next => exact .inl h
    next => exact .inl h
  | abandon m =>
    simp only [after, perform] at h
    split at h
    all_goals first
      | exact .inl h
      | rw [List.getElem?_set] at h
        split at h
        next same => simp at h
        next => exact .inl h
  | wait ms => exact .inl h
  | failing on => exact .inl h
  | fault call times => exact .inl h

/-- What tasks know of invalidations has happened, and they began before now. -/
structure Sees (w : CacheWorld ε α) : Prop where
  reading : ∀ r observed phase begun, .reading r (.joined observed phase) begun ∈ w.actors →
    observed ≤ w.cache.epoch
  filling : ∀ f phase begun, .filling f phase begun ∈ w.actors → f.observed ≤ w.cache.epoch
  invalidating : ∀ i phase begun, .invalidating i phase begun ∈ w.actors → begun ≤ w.time

theorem sees_begin (c : CacheAside α) : (begin c : CacheWorld ε α).Sees := ⟨nofun, nofun, nofun⟩

theorem Sees.after (h : w.Sees) (e : CacheEvent ε α) : (w.after e).Sees := by
  have epoch := (w.after_cache e).2.1
  constructor
  · intro r observed phase begun mem
    rcases mem_after mem with old | arises
    · exact Nat.le_trans (h.reading _ _ _ _ old) epoch
    · cases arises with
      | steps mem stepped =>
        obtain ⟨phase, old, rfl, moved, -⟩ := CacheActor.step_reading stepped
        rcases (Reading.step_cases moved).2 _ _ rfl with rfl | ⟨flight, rfl⟩
        · exact epoch
        · exact Nat.le_trans (h.reading _ _ _ _ mem) epoch
      | answered mem fetched => exact Nat.le_trans (h.reading _ _ _ _ mem) epoch
  · intro f phase begun mem
    rcases mem_after mem with old | arises
    · exact Nat.le_trans (h.filling _ _ _ old) epoch
    · cases arises with
      | steps mem stepped =>
        obtain ⟨phase, rfl, -⟩ := CacheActor.step_filling stepped
        exact Nat.le_trans (h.filling _ _ _ mem) epoch
      | fills mem value => exact Nat.le_trans (h.reading _ _ _ _ mem) epoch
  · intro i phase begun mem
    show begun ≤ w.time + 1
    rcases mem_after mem with old | arises
    · exact Nat.le_succ_of_le (h.invalidating _ _ _ old)
    · cases arises with
      | invalidates => exact Nat.le_succ _
      | steps mem stepped =>
        obtain ⟨phase, rfl, -⟩ := CacheActor.step_invalidating stepped
        exact Nat.le_succ_of_le (h.invalidating _ _ _ mem)

theorem Sees.run (h : w.Sees) (events : List (CacheEvent ε α)) : (w.run events).Sees := by
  induction events generalizing w with
  | nil => exact h
  | cons e events ih => exact ih (h.after e)

theorem run_fullKey (w : CacheWorld ε α) (events : List (CacheEvent ε α)) :
    (w.run events).cache.fullKey = w.cache.fullKey := by
  induction events generalizing w with
  | nil => rfl
  | cons e events ih =>
    have root := (w.after_cache e).1
    refine (ih (w.after e)).trans ?_
    funext key
    rw [CacheAside.fullKey, CacheAside.fullKey, root]

end CacheWorld

end Workboard
