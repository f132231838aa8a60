import Workboard.Proofs.Cache.Aside
import Workboard.Proofs.Cache.Reading
import Workboard.Proofs.Cache.Steps

/-!
What whole reads, fills and invalidations leave of a cache, whichever calls of its store fail.
-/

namespace Workboard

variable {ε α ω : Type} {now later : Nat} {c d e : CacheAside α}

namespace MemoryStore

/-- The bytes that can be read under a key. -/
def live (s : MemoryStore) (now : Nat) (key : String) : Option Bytes :=
  (s.values.get? key).bind fun v => if now < v.expires then some v.content else none

theorem get_fst (s : MemoryStore) (now : Nat) (key : String) :
    (s.get now key).1 = (s.check .get).1.map fun _ => s.live now key := by
  have values := (s.check_keeps .get).1
  unfold get guarded
  rcases checked : s.check .get with ⟨e | ⟨⟩, t⟩
  · rfl
  · rw [checked] at values
    dsimp only
    rw [read, live, ← values]
    rcases t.values.get? key with _ | v
    · rfl
    · dsimp only [Option.bind_some]
      split <;> rfl

end MemoryStore

theorem CacheAside.Shrinks.trans (h : c.Shrinks d) (h' : d.Shrinks e) : c.Shrinks e :=
  ⟨h'.root.trans h.root, Nat.le_trans h.epoch h'.epoch, fun key v found => h.values key v (h'.values key v found)⟩

namespace Reading

variable {r : Reading α}

theorem lookup_fst (r : Reading α) (now : Nat) (c : CacheAside α) :
    (r.lookup now c).1 = (c.store.get now (c.fullKey r.key)).1.toOption.join.bind fun bytes =>
      (r.codec.decode bytes).toOption := by
  unfold lookup
  rcases c.store.get now (c.fullKey r.key) with ⟨e | _ | bytes, store⟩
  · rfl
  · rfl
  · rcases decoded : r.codec.decode bytes with e | a <;> simp [decoded, Except.toOption]

theorem lookup_some {a : α} (h : (r.lookup now c).1 = some a) :
    ∃ v, c.store.values.get? (c.fullKey r.key) = some v ∧ r.codec.decode v.content = .ok a := by
  rw [lookup_fst, MemoryStore.get_fst] at h
  obtain ⟨bytes, joined, read⟩ := Option.bind_eq_some_iff.mp h
  have live : c.store.live now (c.fullKey r.key) = some bytes := by
    rcases checked : (c.store.check .get).1 with e | ⟨⟩ <;> rw [checked] at joined
    · cases joined
    · exact joined
  obtain ⟨v, found, alive⟩ := Option.bind_eq_some_iff.mp live
  obtain ⟨-, rfl⟩ : now < v.expires ∧ v.content = bytes := by simpa using alive
  refine ⟨v, found, ?_⟩
  rcases decoded : r.codec.decode v.content with e | b <;> rw [decoded] at read <;> cases read
  rfl

theorem lookup_congr (same : (d.store.get now (d.fullKey r.key)).1 = (c.store.get now (c.fullKey r.key)).1) :
    (r.lookup now d).1 = (r.lookup now c).1 := by
  rw [lookup_fst, lookup_fst, same]

theorem lookup_found {bytes : Bytes} {a : α} (found : (c.store.get now (c.fullKey r.key)).1 = .ok (some bytes))
    (decoded : r.codec.decode bytes = .ok a) : (r.lookup now c).1 = some a := by
  rw [lookup_fst, found]
  simp [decoded, Except.toOption]

/-- With no read of the same key under way, a read answers with what its lookup finds, or fetches. -/
theorem run_cases (r : Reading α) (now : Nat) (fetch : ω → Except ε α × ω)
    (grounded : c.flights.opened = []) (w : ω) :
    ∃ d, c.Shrinks d ∧ d.flights.opened = [] ∧
      ((∃ a, (r.lookup now c).1 = some a ∧ r.run now fetch c w = (some (.ok a), none, d, w)) ∨
        (r.lookup now c).1 = none ∧ ∃ observed, r.run now fetch c w =
          (some (fetch w).1, (fetch w).1.toOption.map (r.fill c observed), d, (fetch w).2)) := by
  have shrinks := r.lookup_shrinks now c
  obtain ⟨hits, misses, looked⟩ := r.lookup_cache now c
  rcases found : r.lookup now c with ⟨_ | a, after⟩ <;> rw [found] at shrinks looked <;>
    dsimp only at shrinks looked
  · have calm : after.flights.opened = [] := looked ▸ grounded
    obtain ⟨flights, landed, ran⟩ := run_of_miss fetch found calm w
    have same : r.fill after after.epoch = r.fill c after.epoch := by
      rw [looked]
      rfl
    rw [same] at ran
    exact ⟨{ after with flights := flights }, ⟨shrinks.root, shrinks.epoch, shrinks.values⟩, landed,
      .inr ⟨rfl, _, ran⟩⟩
  · exact ⟨after, shrinks, looked ▸ grounded, .inl ⟨a, rfl, run_of_hit found w⟩⟩

/-- A read touches the store by its lookup only. -/
theorem run_store (r : Reading α) (now : Nat) (fetch : ω → Except ε α × ω) (grounded : c.flights.opened = []) (w : ω) :
    (r.run now fetch c w).2.2.1.store = (c.store.get now (c.fullKey r.key)).2 := by
  obtain ⟨hits, misses, looked⟩ := r.lookup_cache now c
  rcases found : r.lookup now c with ⟨_ | a, after⟩ <;> rw [found] at looked <;> dsimp only at looked
  · have calm : after.flights.opened = [] := looked ▸ grounded
    obtain ⟨flights, -, ran⟩ := run_of_miss fetch found calm w
    rw [ran, looked]
  · rw [run_of_hit found w, looked]

end Reading

namespace Fill

/-- A fill changes the store only, and what holds of that whatever is set under the fill's key and added to tags
holds after the fill. -/
theorem runTags_keeps {f : Fill α} {P : MemoryStore → Prop}
    (adds : ∀ s now tag, P s → P (s.addToTag now tag f.key f.tagTtl).2) (now : Nat) (tags : List String)
    (c : CacheAside α) (h : P c.store) : ∃ store, f.runTags now c tags = { c with store := store } ∧ P store := by
  induction tags generalizing c with
  | nil => exact ⟨c.store, rfl, h⟩
  | cons t tags ih =>
    have added := adds c.store now t h
    rcases tagged : c.store.addToTag now t f.key f.tagTtl with ⟨⟨⟩ | e | m, store⟩ <;> rw [tagged] at added <;>
      simp only [runTags, step, tagged]
    · exact ih { c with store := store } added
    · exact ⟨store, rfl, added⟩
    · exact ⟨store, rfl, added⟩

theorem runSlowly_keeps {f : Fill α} {P : MemoryStore → Prop}
    (sets : ∀ s now bytes, f.codec.encode f.value = .ok bytes → P s → P (s.set now f.key bytes f.ttl).2)
    (adds : ∀ s now tag, P s → P (s.addToTag now tag f.key f.tagTtl).2) (now later : Nat) (c : CacheAside α)
    (h : P c.store) : ∃ store, f.runSlowly now later c = { c with store := store } ∧ P store := by
  by_cases current : c.epoch = f.observed
  · rcases encoded : f.codec.encode f.value with e | bytes
    · exact ⟨c.store, runSlowly_refused encoded, h⟩
    · have done := sets c.store now bytes encoded h
      rcases stored : c.store.set now f.key bytes f.ttl with ⟨⟨⟩ | e | m, store⟩ <;> rw [stored] at done <;>
        simp only [runSlowly, step, current, if_true, encoded, stored]
      · obtain ⟨last, ran, kept⟩ := runTags_keeps adds later f.tags { c with store := store } done
        exact ⟨last, current ▸ ran, kept⟩
      · exact ⟨store, rfl, done⟩
      · exact ⟨store, rfl, done⟩
  · exact ⟨c.store, runSlowly_stale current, h⟩

/-- A fill stores its value under its key, and nothing else. -/
theorem runSlowly_leaves (f : Fill α) (now later : Nat) (c : CacheAside α) :
    (f.runSlowly now later c).root = c.root ∧ (f.runSlowly now later c).flights = c.flights ∧
      ∀ key v, (f.runSlowly now later c).store.values.get? key = some v → c.store.values.get? key = some v ∨
        key = f.key ∧ f.codec.encode f.value = .ok v.content := by
  let Traced (s : MemoryStore) : Prop := ∀ key v, s.values.get? key = some v → c.store.values.get? key = some v ∨
    key = f.key ∧ f.codec.encode f.value = .ok v.content
  have sets : ∀ s now bytes, f.codec.encode f.value = .ok bytes → Traced s →
      Traced (s.set now f.key bytes f.ttl).2 := by
    intro s now bytes encoded traced key v found
    rcases MemoryStore.of_set rfl found with old | ⟨-, own, content⟩
    · exact traced key v old
    · exact .inr ⟨own, content ▸ encoded⟩
  have adds : ∀ s now tag, Traced s → Traced (s.addToTag now tag f.key f.tagTtl).2 := by
    intro s now tag traced key v found
    have same : (s.addToTag now tag f.key f.tagTtl).2.values = s.values := MemoryStore.values_addToTag rfl
    exact traced key v (same ▸ found)
  obtain ⟨store, ran, traced⟩ := runSlowly_keeps sets adds now later c fun _ _ => .inl
  rw [ran]
  exact ⟨rfl, rfl, traced⟩

end Fill

namespace Invalidation

theorem step_flights (i : Invalidation) (now : Nat) (c : CacheAside α) (phase : InvalidationPhase) :
    (i.step now c phase).1.flights = c.flights := by
  unfold step
  grind

theorem runFrom_leaves (i : Invalidation) (now n : Nat) (c : CacheAside α) (phase : InvalidationPhase) :
    c.Shrinks (i.runFrom now n c phase).2 ∧ (i.runFrom now n c phase).2.flights = c.flights := by
  induction n generalizing c phase with
  | zero => cases phase <;> exact ⟨.rfl, rfl⟩
  | succ n ih =>
    rw [runFrom_succ]
    obtain ⟨shrinks, flights⟩ := ih (i.step now c phase).1 (i.step now c phase).2
    exact ⟨(step_cases rfl "").1.trans shrinks, flights.trans (i.step_flights now c phase)⟩

theorem run_leaves (i : Invalidation) (now : Nat) (c : CacheAside α) :
    c.Shrinks (i.run now c).2 ∧ (i.run now c).2.flights = c.flights :=
  i.runFrom_leaves now 3 c i.start

end Invalidation

end Workboard
