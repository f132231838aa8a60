import Workboard.Proofs.Cache.Interleaving

/-!
What an invalidation leaves of older fetches. A fill looks at the number of invalidations once, before it
stores its value: an invalidation that begins before it looks is seen, a later one is not.
-/

namespace Workboard.CacheWorld

variable {ε α : Type} {w : CacheWorld ε α}

/-- What stands under a name comes from a fetch that began at some time or later. -/
def Fresh (w : CacheWorld ε α) (name : String) (since : Nat) : Prop :=
  ∀ v, w.cache.store.values.get? name = some v →
    ∃ begun, w.origin.get? name = some begun ∧ since ≤ begun

theorem Fresh.after {name : String} {since : Nat} (fresh : w.Fresh name since)
    (young : ∀ f bytes begun, .filling f (.set bytes) begun ∈ w.actors → f.key = name → since ≤ begun)
    (e : CacheEvent ε α) : (w.after e).Fresh name since := by
  intro v held
  rcases (w.after_cache e).2.2 name v held with ⟨old, same⟩ | ⟨f, bytes, begun, mem, own, noted⟩
  · rw [same]
    exact fresh v old
  · exact ⟨begun, noted, young f bytes begun mem own⟩

/-- No fetch that began before some time can still store its value under a name: what it knows of
invalidations is out of date, and its fill has not looked yet or has stored already. Once the invalidation
has deleted the name, what stands there comes from a later fetch. -/
structure Fenced (w : CacheWorld ε α) (actor : Nat) (name : String) (epoch since : Nat) : Prop where
  here : actor < w.actors.length
  later : since ≤ w.time
  passed : epoch ≤ w.cache.epoch
  reading : ∀ r observed flight begun, .reading r (.joined observed (.fetching flight)) begun ∈ w.actors →
    begun < since → observed < epoch
  filling : ∀ f phase begun, .filling f phase begun ∈ w.actors → f.key = name → begun < since →
    f.observed < epoch ∧ phase ≠ .encode ∧ ∀ bytes, phase ≠ .set bytes
  invalidating : ∀ i phase begun, w.actors[actor]? = some (.invalidating i phase begun) →
    phase.Clears name ∧ (phase.Cleared → w.Fresh name since)

theorem Fenced.after {actor : Nat} {name : String} {epoch since : Nat}
    (h : w.Fenced actor name epoch since) (e : CacheEvent ε α) :
    (w.after e).Fenced actor name epoch since := by
  have more := (w.after_cache e).2.1
  have young : ∀ f bytes begun, .filling f (.set bytes) begun ∈ w.actors → f.key = name →
      since ≤ begun := fun f bytes begun mem own =>
    Nat.le_of_not_lt fun early => (h.filling f _ begun mem own early).2.2 bytes rfl
  constructor
  · exact Nat.lt_of_lt_of_le h.here (w.length_after e)
  · exact Nat.le_succ_of_le h.later
  · exact Nat.le_trans h.passed more
  · intro r observed flight begun mem early
    rcases mem_after mem with old | arises
    · exact h.reading _ _ _ _ old early
    · cases arises with
      | steps mem stepped =>
        -- a fetch that begins now does not begin before
        obtain ⟨phase, old, -, -, now⟩ := CacheActor.step_reading stepped
        have time := h.later
        rw [ReadPhase.isFetching, if_pos rfl] at now
        omega
      | @answered _ _ landed _ _ _ mem fetched => cases landed <;> cases fetched
  · intro f phase begun mem own early
    rcases mem_after mem with old | arises
    · exact h.filling _ _ _ old own early
    · cases arises with
      | steps mem stepped =>
        obtain ⟨phase, rfl, moved⟩ := CacheActor.step_filling stepped
        obtain ⟨stale, unchecked, -⟩ := h.filling _ _ _ mem own early
        obtain ⟨-, -, checks, sets, -⟩ := Fill.step_cases moved
        refine ⟨stale, ?_, ?_⟩
        · intro passed
          have current := checks passed
          have fence := h.passed
          omega
        · exact fun bytes set => unchecked (sets bytes set)
      | fills mem value => exact ⟨h.reading _ _ _ _ mem early, nofun, nofun⟩
  · intro i phase begun found
    rcases invalidating_after h.here found with stays | ⟨old, stood, moved⟩
    · obtain ⟨clears, cleared⟩ := h.invalidating i phase begun stays
      exact ⟨clears, fun done => (cleared done).after young e⟩
    · obtain ⟨clears, cleared⟩ := h.invalidating i old begun stood
      obtain ⟨clears', cleared'⟩ := (Invalidation.step_cases moved name).2 clears
      refine ⟨clears', fun done => ?_⟩
      rcases cleared' done with before | gone
      · exact (cleared before).after young e
      · intro v held
        rw [gone] at held
        cases held

theorem Fenced.run {actor : Nat} {name : String} {epoch since : Nat}
    (h : w.Fenced actor name epoch since) (events : List (CacheEvent ε α)) :
    (w.run events).Fenced actor name epoch since := by
  induction events generalizing w with
  | nil => exact h
  | cons e events ih => exact ih (h.after e)

/-- A fill of a fetch from before some time has looked at the number of invalidations, and has yet to store
its value under a name. -/
def Overtakes (w : CacheWorld ε α) (name : String) (since : Nat) : Prop :=
  ∃ f phase begun, .filling f phase begun ∈ w.actors ∧ f.key = name ∧ begun < since ∧
    (phase = .encode ∨ ∃ bytes, phase = .set bytes)

theorem Sees.fenced (sees : w.Sees) {actor since : Nat} {i : Invalidation}
    (bumps : w.actors[actor]? = some (.invalidating i .bump since)) {key : String}
    (covers : i.Covers key) (clear : ¬ w.Overtakes (w.cache.fullKey key) since) :
    (w.after (.step actor)).Fenced actor (w.cache.fullKey key) (w.cache.epoch + 1) since := by
  obtain ⟨names, named, stepped⟩ : ∃ names, w.cache.fullKey key ∈ names ∧
      i.step w.clock w.cache .bump = ({ w.cache with epoch := w.cache.epoch + 1 }, .delete names) := by
    cases i with
    | keys keys => exact ⟨_, List.mem_map_of_mem covers, rfl⟩
    | entity own scope => exact ⟨_, List.mem_singleton.mpr (congrArg _ covers.symm), rfl⟩
    | tag t => cases covers
  have here := (List.getElem?_eq_some_iff.mp bumps).1
  have bumped : w.after (.step actor) = { w with
      cache := { w.cache with epoch := w.cache.epoch + 1 }
      actors := w.actors.set actor (.invalidating i (.delete names) since)
      time := w.time + 1 } := by
    simp only [CacheWorld.after, perform, bumps, CacheActor.step, stepped]
    rfl
  rw [bumped]
  constructor
  · simpa using here
  · exact Nat.le_succ_of_le (sees.invalidating i _ since (List.mem_of_getElem? bumps))
  · exact Nat.le_refl _
  · intro r observed flight begun mem _
    rcases List.mem_or_eq_of_mem_set mem with old | new
    · exact Nat.lt_succ_of_le (sees.reading _ _ _ _ old)
    · cases new
  · intro f phase begun mem own early
    rcases List.mem_or_eq_of_mem_set mem with old | new
    · refine ⟨Nat.lt_succ_of_le (sees.filling _ _ _ old), ?_, ?_⟩
      · exact fun passed => clear ⟨f, phase, begun, old, own, early, .inl passed⟩
      · exact fun bytes set => clear ⟨f, phase, begun, old, own, early, .inr ⟨bytes, set⟩⟩
    · cases new
  · intro j phase begun found
    rw [List.getElem?_set_self here] at found
    cases found
    exact ⟨named, fun cleared => cleared.elim⟩

/-- Nothing older is left by an invalidation that succeeds, unless a fill overtakes it. However reads, fills
and invalidations take their steps, and whichever calls of the store fail: when an invalidation that names a
key has succeeded, all that stands under the key comes from fetches that began after the invalidation did,
if no fill had looked at the number of invalidations, and not yet stored its value, when the invalidation
counted itself. -/
theorem fresh_after_invalidation (c : CacheAside α) (before after : List (CacheEvent ε α))
    (actor since : Nat) (i : Invalidation) (key : String)
    (bumps : ((begin c).run before).actors[actor]? = some (.invalidating i .bump since))
    (covers : i.Covers key)
    (clear : ¬ ((begin c).run before).Overtakes (c.fullKey key) since)
    (result : Option Int)
    (ended : ((begin c).run (before ++ .step actor :: after)).actors[actor]? =
      some (.invalidating i (.done (.ok result)) since)) :
    ((begin c).run (before ++ .step actor :: after)).Fresh (c.fullKey key) since := by
  have split : (begin c).run (before ++ .step actor :: after) =
      (((begin c).run before).after (.step actor)).run after := by
    rw [run, List.foldl_append]
    rfl
  have name : ((begin c).run before).cache.fullKey key = c.fullKey key :=
    congrFun (run_fullKey (begin c) before) key
  have fenced := ((sees_begin c).run before).fenced bumps covers (name ▸ clear)
  rw [name] at fenced
  rw [split] at ended ⊢
  exact ((fenced.run after).invalidating i _ since ended).2 trivial

def plainRead : Reading Bytes := ⟨"todo:1", 60000, ⟨.ok, .ok⟩, fun _ => [], fun _ => true⟩

/-- A read that fetches a value and leaves a fill, which is given some steps; then an invalidation is asked
for. -/
def readThenInvalidate (value : Bytes) (fillSteps : List (CacheEvent Unit Bytes)) :
    List (CacheEvent Unit Bytes) :=
  [.read plainRead, .step 0, .step 0, .step 0, .step 0, .answer 0 (.ok value)] ++ fillSteps ++
    [.invalidate (.keys ["todo:1"])]

def bench : CacheAside Bytes := .empty "app" 0

/-- The fill looks when the invalidation has begun, and a later read stores a new value. -/
theorem fresh_after_invalidation_reread :
    ∃ begun, ((begin bench).run (readThenInvalidate [1] [] ++ .step 2 :: [.step 2, .step 1, .step 0,
      .step 0, .read plainRead, .step 3, .step 3, .step 3, .step 3, .answer 3 (.ok [2]), .step 4, .step 4,
      .step 4])).origin.get? "app:todo:1" = some begun ∧ 6 ≤ begun := by
  refine fresh_after_invalidation bench (readThenInvalidate [1] []) _ 2 6 (.keys ["todo:1"]) "todo:1" rfl
    (by simp [Invalidation.Covers]) ?_ none rfl ⟨[2], 60000⟩ rfl
  rintro ⟨f, phase, begun, mem, -, -, middle⟩
  have actors : ((begin bench).run (readThenInvalidate [1] [])).actors =
      [.reading plainRead (.joined 0 (.leave 0 (.ok [1]))) 4,
        .filling (plainRead.fill bench 0 [1]) .check 4,
        .invalidating (.keys ["todo:1"]) .bump 6] := rfl
  obtain ⟨rfl, rfl, rfl⟩ : f = plainRead.fill bench 0 [1] ∧ phase = .check ∧ begun = 4 := by
    simpa [actors] using mem
  simp at middle

/-- It is not so that an invalidation which has succeeded leaves no value of an older fetch: a fill that has
looked before it stores its value after it. -/
theorem stale_after_invalidation :
    ¬ ∀ (c : CacheAside Bytes) (events : List (CacheEvent Unit Bytes)) (actor since : Nat)
      (i : Invalidation) (key : String) (result : Option Int), i.Covers key →
      ((begin c).run events).actors[actor]? = some (.invalidating i (.done (.ok result)) since) →
      ∀ v, ((begin c).run events).cache.store.values.get? (c.fullKey key) = some v →
      ∀ begun, ((begin c).run events).origin.get? (c.fullKey key) = some begun → since ≤ begun := by
  intro claim
  have late : 8 ≤ 4 := claim bench (readThenInvalidate [1] [.step 1, .step 1] ++ [.step 2, .step 2, .step 1])
    2 8 (.keys ["todo:1"]) "todo:1" none (by simp [Invalidation.Covers]) rfl ⟨[1], 60000⟩ rfl 4 rfl
  omega

end Workboard.CacheWorld
