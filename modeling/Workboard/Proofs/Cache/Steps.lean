import Workboard.Cache.Interleaving
import Workboard.Proofs.Cache.Store

/-!
What a single step of a read, a fill or an invalidation leaves of a cache.
-/

namespace Workboard

variable {ε α : Type}

/-- A cache some time later: invalidations are counted up, and nothing is there that was not. -/
structure CacheAside.Shrinks (c d : CacheAside α) : Prop where
  root : d.root = c.root
  epoch : c.epoch ≤ d.epoch
  values : ∀ key v, d.store.values.get? key = some v → c.store.values.get? key = some v

theorem CacheAside.Shrinks.rfl {c : CacheAside α} : c.Shrinks c := ⟨by rfl, Nat.le_refl _, fun _ _ => id⟩

namespace Reading

variable {r : Reading α} {now : Nat} {c d : CacheAside α} {phase next : ReadPhase ε α}

theorem lookup_cache (r : Reading α) (now : Nat) (c : CacheAside α) :
    ∃ hits misses, (r.lookup now c).2 = { c with
      store := (c.store.get now (c.fullKey r.key)).2, hits := hits, misses := misses } := by
  unfold lookup
  rcases c.store.get now (c.fullKey r.key) with ⟨e | _ | bytes, store⟩
  · exact ⟨_, _, rfl⟩
  · exact ⟨_, _, rfl⟩
  · dsimp only
    cases r.codec.decode bytes <;> exact ⟨_, _, rfl⟩

theorem lookup_shrinks (r : Reading α) (now : Nat) (c : CacheAside α) : c.Shrinks (r.lookup now c).2 := by
  obtain ⟨hits, misses, same⟩ := r.lookup_cache now c
  rw [same]
  exact ⟨rfl, Nat.le_refl _, fun key v => MemoryStore.of_get rfl⟩

/-- A read stores nothing. What it knows of invalidations is what it saw after its lookup. -/
theorem step_cases (h : r.step now c phase = some (d, next)) :
    c.Shrinks d ∧ ∀ observed flight, next = .joined observed flight →
      observed = c.epoch ∨ ∃ old, phase = .joined observed old := by
  cases phase with
  | lookup =>
    have shrinks := r.lookup_shrinks now c
    rcases looked : r.lookup now c with ⟨_ | a, e⟩
    all_goals
      rw [looked] at shrinks
      simp only [step, looked, Option.some.injEq, Prod.mk.injEq] at h
      obtain ⟨rfl, rfl⟩ := h
      exact ⟨shrinks, nofun⟩
  | observe =>
    obtain ⟨rfl, rfl⟩ : c = d ∧ _ = next := by simpa [step] using h
    refine ⟨.rfl, ?_⟩
    rintro observed flight ⟨⟩
    exact .inl rfl
  | joined observed flight =>
    obtain ⟨⟨flights, new⟩, -, moved⟩ := Option.map_eq_some_iff.mp h
    cases moved
    refine ⟨⟨rfl, Nat.le_refl _, fun _ _ => id⟩, ?_⟩
    rintro observed flight ⟨⟩
    exact .inr ⟨_, rfl⟩
  | hit a => cases h

theorem abandon_shrinks (r : Reading α) (c : CacheAside α) (phase : ReadPhase ε α) :
    c.Shrinks (r.abandon c phase) := by
  unfold abandon
  split <;> exact ⟨rfl, Nat.le_refl _, fun _ _ => id⟩

end Reading

namespace Fill

variable {f : Fill α} {now : Nat} {c d : CacheAside α} {phase next : FillPhase}

/-- A fill goes on past its check if it has seen the latest invalidation, and it stores its value where it
sets it. -/
theorem step_cases (h : f.step now c phase = (d, next)) :
    d.root = c.root ∧ d.epoch = c.epoch ∧
      (next = .encode → c.epoch = f.observed) ∧ (∀ bytes, next = .set bytes → phase = .encode) ∧
      ∀ key v, d.store.values.get? key = some v → c.store.values.get? key = some v ∨
        key = f.key ∧ ∃ bytes rest, phase = .set bytes ∧ next = .tag rest := by
  cases phase with
  | check =>
    by_cases same : c.epoch = f.observed
    · obtain ⟨rfl, rfl⟩ : c = d ∧ FillPhase.encode = next := by simpa [step, same] using h
      exact ⟨rfl, rfl, fun _ => same, nofun, fun _ _ => .inl⟩
    · obtain ⟨rfl, rfl⟩ : c = d ∧ FillPhase.done = next := by simpa [step, same] using h
      exact ⟨rfl, rfl, nofun, nofun, fun _ _ => .inl⟩
  | encode =>
    rcases encoded : f.codec.encode f.value with e | bytes
    all_goals
      simp only [step, encoded, Prod.mk.injEq] at h
      obtain ⟨rfl, rfl⟩ := h
      exact ⟨rfl, rfl, nofun, fun _ _ => rfl, fun _ _ => .inl⟩
  | set bytes =>
    rcases stored : c.store.set now f.key bytes f.ttl with ⟨⟨⟩ | e | m, store⟩
    all_goals
      simp only [step, stored, Prod.mk.injEq] at h
      obtain ⟨rfl, rfl⟩ := h
      refine ⟨rfl, rfl, nofun, nofun, ?_⟩
      intro key v found
      obtain old | ⟨done, own, -⟩ := MemoryStore.of_set stored found
    · exact .inl old
    · exact .inr ⟨own, bytes, f.tags, rfl, rfl⟩
    · exact .inl old
    · cases done
    · exact .inl old
    · cases done
  | tag rest =>
    cases rest with
    | nil =>
      obtain ⟨rfl, rfl⟩ : c = d ∧ FillPhase.done = next := by simpa [step] using h
      exact ⟨rfl, rfl, nofun, nofun, fun _ _ => .inl⟩
    | cons t rest =>
      rcases tagged : c.store.addToTag now t f.key f.tagTtl with ⟨⟨⟩ | e | m, store⟩
      all_goals
        simp only [step, tagged, Prod.mk.injEq] at h
        obtain ⟨rfl, rfl⟩ := h
        have same := MemoryStore.values_addToTag tagged
        exact ⟨rfl, rfl, nofun, nofun, fun _ _ found => .inl (same ▸ found)⟩
  | done | panicked =>
    cases h
    exact ⟨rfl, rfl, nofun, nofun, fun _ _ => .inl⟩

end Fill

/-- The invalidation deletes a key in its next step, or has come past that. -/
def InvalidationPhase.Clears (key : String) : InvalidationPhase → Prop
  | .delete names => key ∈ names
  | .incr | .done _ => True
  | .bump | .members => False

/-- The invalidation has deleted what it names, and did not fail. -/
def InvalidationPhase.Cleared : InvalidationPhase → Prop
  | .incr | .done (.ok _) => True
  | _ => False

namespace Invalidation

variable {i : Invalidation} {now : Nat} {c d : CacheAside α} {phase next : InvalidationPhase}

/-- An invalidation stores nothing, and it goes on past its deletion only where it has deleted. -/
theorem step_cases (h : i.step now c phase = (d, next)) (key : String) :
    c.Shrinks d ∧ (phase.Clears key → next.Clears key ∧
      (next.Cleared → phase.Cleared ∨ d.store.values.get? key = none)) := by
  cases phase with
  | bump =>
    have shrinks : c.Shrinks { c with epoch := c.epoch + 1 } := ⟨rfl, Nat.le_succ _, fun _ _ => id⟩
    cases i <;> cases h <;> exact ⟨shrinks, nofun⟩
  | members =>
    cases i with
    | tag t =>
      rcases found : c.store.tagMembers now (c.fullKey t) with ⟨e | names, store⟩
      all_goals
        simp only [step, found, Prod.mk.injEq] at h
        obtain ⟨rfl, rfl⟩ := h
        have same := MemoryStore.values_tagMembers found
        exact ⟨⟨rfl, Nat.le_refl _, fun _ _ found => same ▸ found⟩, nofun⟩
    | _ =>
      cases h
      exact ⟨.rfl, nofun⟩
  | delete names =>
    rcases deleted : c.store.delete names with ⟨e | ⟨⟩, store⟩
    · simp only [step, deleted, Prod.mk.injEq] at h
      obtain ⟨rfl, rfl⟩ := h
      refine ⟨⟨rfl, Nat.le_refl _, fun _ _ found => (MemoryStore.of_delete deleted found).1⟩, ?_⟩
      exact fun _ => ⟨trivial, nofun⟩
    · have gone : key ∈ names → store.values.get? key = none := by
        intro named
        rcases left : store.values.get? key with _ | v
        · rfl
        · exact absurd named ((MemoryStore.of_delete deleted left).2 rfl)
      have values := fun key v (found : store.values.get? key = some v) =>
        (MemoryStore.of_delete deleted found).1
      cases i <;> simp only [step, deleted, Prod.mk.injEq] at h <;> obtain ⟨rfl, rfl⟩ := h
      all_goals exact ⟨⟨rfl, Nat.le_refl _, values⟩, fun named => ⟨trivial, fun _ => .inr (gone named)⟩⟩
  | incr =>
    cases i with
    | entity own scope =>
      rcases counted : c.store.incr (c.fullKey (CacheKey.revision scope)) with ⟨e | n, store⟩
      all_goals
        simp only [step, counted, Prod.mk.injEq] at h
        obtain ⟨rfl, rfl⟩ := h
        have same := MemoryStore.values_incr counted
        exact ⟨⟨rfl, Nat.le_refl _, fun _ _ found => same ▸ found⟩,
          fun _ => ⟨trivial, fun _ => .inl trivial⟩⟩
    | _ =>
      cases h
      exact ⟨.rfl, fun _ => ⟨trivial, fun _ => .inl trivial⟩⟩
  | done result =>
    cases h
    exact ⟨.rfl, fun clears => ⟨clears, .inl⟩⟩

end Invalidation

namespace CacheActor

variable {a b : CacheActor ε α} {clock time : Nat} {c d : CacheAside α}

/-- What a step leaves under a key is what was there, or what a fill has just set and is noted for. -/
theorem step_cases (h : a.step clock time c = some (d, b)) (origin : Entries Nat) :
    d.root = c.root ∧ c.epoch ≤ d.epoch ∧ ∀ key v, d.store.values.get? key = some v →
      c.store.values.get? key = some v ∧ (note origin a b).get? key = origin.get? key ∨
        ∃ f bytes begun, a = .filling f (.set bytes) begun ∧ f.key = key ∧
          (note origin a b).get? key = some begun := by
  cases a with
  | reading r phase begun =>
    obtain ⟨⟨e, next⟩, stepped, moved⟩ := Option.map_eq_some_iff.mp h
    cases moved
    have shrinks := (Reading.step_cases stepped).1
    exact ⟨shrinks.root, shrinks.epoch, fun key v found => .inl ⟨shrinks.values key v found, rfl⟩⟩
  | filling f phase begun =>
    rcases stepped : f.step clock c phase with ⟨e, next⟩
    simp only [step, stepped, Option.some.injEq, Prod.mk.injEq] at h
    obtain ⟨rfl, rfl⟩ := h
    obtain ⟨root, epoch, -, -, values⟩ := Fill.step_cases stepped
    refine ⟨root, Nat.le_of_eq epoch.symm, ?_⟩
    intro key v found
    by_cases stores : ∃ bytes rest, phase = .set bytes ∧ next = .tag rest
    · obtain ⟨bytes, rest, rfl, rfl⟩ := stores
      have noted : (note origin (.filling f (.set bytes) begun)
          (.filling (ε := ε) f (.tag rest) begun)).get? key =
            if key = f.key then some begun else origin.get? key := Entries.get?_insert _ _ _ _
      by_cases own : key = f.key
      · rw [if_pos own] at noted
        exact .inr ⟨f, bytes, begun, rfl, own.symm, noted⟩
      · rw [if_neg own] at noted
        exact .inl ⟨(values key v found).resolve_right fun new => own new.1, noted⟩
    · have noted : note origin (.filling f phase begun) (.filling (ε := ε) f next begun) = origin := by
        unfold note
        split
        next old new =>
          cases old
          cases new
          exact absurd ⟨_, _, rfl, rfl⟩ stores
        next => rfl
      rw [noted]
      exact .inl ⟨(values key v found).resolve_right fun new => stores new.2, rfl⟩
  | invalidating i phase begun =>
    rcases stepped : i.step clock c phase with ⟨e, next⟩
    simp only [step, stepped, Option.some.injEq, Prod.mk.injEq] at h
    obtain ⟨rfl, rfl⟩ := h
    have shrinks := (Invalidation.step_cases stepped "").1
    exact ⟨shrinks.root, shrinks.epoch, fun key v found => .inl ⟨shrinks.values key v found, rfl⟩⟩
  | gone => cases h

theorem step_reading {r : Reading α} {next : ReadPhase ε α} {begun : Nat}
    (h : a.step clock time c = some (d, .reading r next begun)) :
    ∃ phase old, a = .reading r phase old ∧ r.step clock c phase = some (d, next) ∧
      begun = if next.isFetching then time else old := by
  cases a with
  | reading own phase old =>
    obtain ⟨⟨e, new⟩, stepped, moved⟩ := Option.map_eq_some_iff.mp h
    cases moved
    exact ⟨phase, old, rfl, stepped, rfl⟩
  | _ => cases h

theorem step_filling {f : Fill α} {next : FillPhase} {begun : Nat}
    (h : a.step clock time c = some (d, .filling f next begun)) :
    ∃ phase, a = .filling f phase begun ∧ f.step clock c phase = (d, next) := by
  cases a with
  | filling own phase old =>
    cases Option.some.inj h
    exact ⟨phase, rfl, rfl⟩
  | reading own phase old =>
    obtain ⟨_, -, moved⟩ := Option.map_eq_some_iff.mp h
    cases moved
  | _ => cases h

theorem step_invalidating {i : Invalidation} {next : InvalidationPhase} {begun : Nat}
    (h : a.step clock time c = some (d, .invalidating i next begun)) :
    ∃ phase, a = .invalidating i phase begun ∧ i.step clock c phase = (d, next) := by
  cases a with
  | invalidating own phase old =>
    cases Option.some.inj h
    exact ⟨phase, rfl, rfl⟩
  | reading own phase old =>
    obtain ⟨_, -, moved⟩ := Option.map_eq_some_iff.mp h
    cases moved
  | _ => cases h

end CacheActor

end Workboard
