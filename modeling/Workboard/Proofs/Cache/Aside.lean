import Workboard.Cache.Aside
import Workboard.Proofs.Cache.Store

/-!
What whole fills and invalidations do to a store that does not fail.
-/

namespace Workboard

variable {α : Type} {c : CacheAside α} {now later : Nat}

namespace Fill

variable {f : Fill α}

theorem runSlowly_stale (h : c.epoch ≠ f.observed) : f.runSlowly now later c = c := by
  rw [runSlowly, step, if_neg h]

theorem runSlowly_refused {e : CodecError} (h : f.codec.encode f.value = .error e) :
    f.runSlowly now later c = c := by
  by_cases current : c.epoch = f.observed
  · rw [runSlowly, step, if_pos current]
    dsimp only
    rw [step, h]
  · exact runSlowly_stale current

/-- Where the clock can name the ends of both times, the value is stored, and then its key joins the members that
its tag still has. -/
theorem runSlowly_stored (now later : Nat) (healthy : c.store.Healthy) (current : c.epoch = f.observed) {bytes : Bytes}
    (encoded : f.codec.encode f.value = .ok bytes) {tag : String} (tagged : f.tags = [tag])
    (named : now + f.ttl < MemoryStore.horizon) (tag_named : later + f.tagTtl < MemoryStore.horizon) :
    f.runSlowly now later c = { c with store := { c.store with
      values := c.store.values.insert f.key ⟨bytes, now + f.ttl⟩
      tags := c.store.tags.insert tag ⟨c.store.joined later tag f.key, later + f.tagTtl⟩ } } := by
  let filled : MemoryStore :=
    { c.store with values := c.store.values.insert f.key ⟨bytes, now + f.ttl⟩ }
  have still : filled.Healthy := ⟨healthy.up, healthy.unarmed⟩
  have set : c.store.set now f.key bytes f.ttl = (.returned (), filled) :=
    (healthy.risked _ _).trans (if_pos named)
  have add : filled.addToTag later tag f.key f.tagTtl = (.returned (),
      { filled with tags := c.store.tags.insert tag ⟨c.store.joined later tag f.key, later + f.tagTtl⟩ }) :=
    (still.risked _ _).trans (if_pos tag_named)
  simp only [runSlowly, step, current, if_true, encoded, set, tagged, runTags, add]
  rfl

end Fill

namespace Invalidation

theorem runFrom_succ (i : Invalidation) (n : Nat) (c : CacheAside α) (phase : InvalidationPhase) :
    i.runFrom now (n + 1) c phase =
      i.runFrom now n (i.step now c phase).1 (i.step now c phase).2 := by
  cases phase with
  | done result => cases n <;> rfl
  | _ => rfl

theorem run_entity (now : Nat) (healthy : c.store.Healthy) (key scope : String) :
    let left := c.store.remove (c.fullKey key)
    let counter := c.fullKey (CacheKey.revision scope)
    ((Invalidation.entity key scope).run now c).2 = { c with
      epoch := c.epoch + 1
      store := { left with counters := left.counters.insert counter (left.count counter + 1) } } := by
  intro left counter
  have still : left.Healthy := ⟨healthy.up, healthy.unarmed⟩
  have delete : c.store.delete [c.fullKey key] = (.ok (), left) := healthy.guarded _ _
  have incr : ∀ name, left.incr name = (.ok (left.count name + 1),
      { left with counters := left.counters.insert name (left.count name + 1) }) :=
    fun name => still.guarded _ _
  unfold CacheAside.fullKey at delete
  simp only [run, start, runFrom_succ, step, CacheAside.fullKey, delete, incr]
  rfl

/-- A tag's invalidation that succeeds leaves none of the values that its members name. -/
theorem run_tag_ok {tag : String} {r : Option Int} {d : CacheAside α}
    (h : (Invalidation.tag tag).run now c = (.ok r, d)) {key : String}
    (member : key ∈ c.store.members now (c.fullKey tag)) : d.store.values.get? key = none := by
  rcases found : c.store.tagMembers now (c.fullKey tag) with ⟨e | names, store⟩
  · unfold CacheAside.fullKey at found
    simp only [run, start, runFrom_succ, step, CacheAside.fullKey, found] at h
    cases h
  · obtain rfl := MemoryStore.tagMembers_ok found
    rcases deleted : store.delete (c.store.members now (c.fullKey tag) ++ [c.fullKey tag]) with ⟨e | ⟨⟩, gone⟩
    all_goals
      unfold CacheAside.fullKey at found deleted
      simp only [run, start, runFrom_succ, step, CacheAside.fullKey, found, deleted] at h
      cases h
    rcases left : gone.values.get? key with _ | v
    · rfl
    · exact absurd (List.mem_append_left _ member) ((MemoryStore.of_delete deleted left).2 rfl)

theorem run_tag (healthy : c.store.Healthy) (tag : String) :
    (Invalidation.tag tag).run now c = (.ok none, { c with
      epoch := c.epoch + 1
      store := (c.store.members now (c.fullKey tag) ++ [c.fullKey tag]).foldl MemoryStore.remove
        c.store }) := by
  have members : c.store.tagMembers now (c.fullKey tag) =
      (.ok (c.store.members now (c.fullKey tag)), c.store) := healthy.guarded _ _
  have delete : ∀ names, c.store.delete names = (.ok (), names.foldl MemoryStore.remove c.store) :=
    fun names => healthy.guarded _ _
  unfold CacheAside.fullKey at members
  simp only [run, start, runFrom_succ, step, CacheAside.fullKey, members, delete]
  rfl

end Invalidation

end Workboard
