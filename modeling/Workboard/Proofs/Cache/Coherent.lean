import Workboard.Proofs.Cache.Aside
import Workboard.Proofs.Cache.Reading

/-!
When everything that can be read from a cache is right. For a change to leave nothing stale, each value has to
stand under its tag for as long as it can be read, and a fill that is on its way when something changes must
never arrive.
-/

namespace Workboard

/-- Which bytes are right under a key at some moment, each under one tag. No tag has the name of a key. -/
structure CacheTruth (isTag : String → Prop) where
  right : (tag key : String) → Bytes → Prop
  tags : ∀ {tag key : String} {bytes : Bytes}, right tag key bytes → isTag tag ∧ ¬isTag key

variable {α : Type} {isTag : String → Prop} {truth : CacheTruth isTag} {now later : Nat}

namespace MemoryStore

/-- A value is right, and its key is a member of its tag for as long as it can be read. -/
def Stands (truth : CacheTruth isTag) (s : MemoryStore) (key : String) (v : Expiring Bytes) : Prop :=
  ∃ tag t, truth.right tag key v.content ∧ s.tags.get? tag = some t ∧ key ∈ t.content ∧
    v.expires ≤ t.expires

end MemoryStore

/-- Fills that are not given up store what is right. -/
structure Fill.Current (truth : CacheTruth isTag) (tagTtl epoch : Nat) (f : Fill α) : Prop where
  past : f.observed ≤ epoch
  lives : f.ttl ≤ tagTtl
  tagLives : f.tagTtl = tagTtl
  stores : f.observed = epoch → ∃ tag, f.tags = [tag] ∧
    ∀ bytes, f.codec.encode f.value = .ok bytes → truth.right tag f.key bytes

namespace CacheAside

structure Coherent (truth : CacheTruth isTag) (now : Nat) (c : CacheAside α) : Prop where
  healthy : c.store.Healthy
  grounded : c.flights.opened = []
  stands : ∀ key v, c.store.values.get? key = some v → now < v.expires →
    v.expires ≤ now + c.tagTtl ∧ c.store.Stands truth key v
  members : ∀ tag t, c.store.tags.get? tag = some t → ∀ key ∈ t.content, ¬isTag key

/-- Two moments of a cache between which so many invalidations began. -/
structure Passed (changes : Nat) (c d : CacheAside α) : Prop where
  root : d.root = c.root
  tagTtl : d.tagTtl = c.tagTtl
  epoch : d.epoch = c.epoch + changes

theorem coherent_empty (root : String) (tagTtl : Nat) (truth : CacheTruth isTag) (now : Nat) :
    (empty root tagTtl : CacheAside α).Coherent truth now := by
  refine ⟨⟨rfl, rfl⟩, rfl, ?_, ?_⟩
  · intro key v found
    cases found
  · intro tag t found
    cases found

namespace Coherent

variable {c : CacheAside α}

theorem mono (h : c.Coherent truth now) (more : now ≤ later) : c.Coherent truth later := by
  refine ⟨h.healthy, h.grounded, ?_, h.members⟩
  intro key v found live
  obtain ⟨soon, stands⟩ := h.stands key v found (by omega)
  exact ⟨by omega, stands⟩

theorem get (h : c.Coherent truth now) (key : String) :
    ∃ found store, c.store.get now key = (.ok found, store) ∧
      { c with store := store }.Coherent truth now ∧
      ∀ bytes, found = some bytes → ∃ tag, truth.right tag key bytes := by
  refine ⟨_, _, h.healthy.guarded .get (MemoryStore.read now key), ?_, ?_⟩
  all_goals rw [MemoryStore.read]
  · split
    next v found =>
      split
      next live => exact h
      next dead =>
        refine ⟨⟨h.healthy.up, h.healthy.unarmed⟩, h.grounded, ?_, h.members⟩
        intro other v held live
        rw [Entries.get?_erase] at held
        split at held
        · cases held
        · exact h.stands other v held live
    next => exact h
  · intro bytes hb
    split at hb
    next v found =>
      split at hb
      next live =>
        obtain ⟨-, tag, -, right, -⟩ := h.stands key v found live
        exact ⟨tag, Option.some.inj hb ▸ right⟩
      next => cases hb
    next => cases hb

theorem lookup (h : c.Coherent truth now) (r : Reading α) :
    ∃ found d, r.lookup now c = (found, d) ∧ d.Coherent truth now ∧ c.Passed 0 d ∧
      ∀ a, found = some a → ∃ tag bytes, truth.right tag (c.fullKey r.key) bytes ∧
        r.codec.decode bytes = .ok a := by
  obtain ⟨found, store, got, coherent, right⟩ := h.get (c.fullKey r.key)
  obtain ⟨healthy, grounded, stands, members⟩ := coherent
  have passed : c.Passed 0 { c with store := store } := ⟨rfl, rfl, rfl⟩
  rw [Reading.lookup, got]
  cases found with
  | none => exact ⟨_, _, rfl, ⟨healthy, grounded, stands, members⟩, ⟨rfl, rfl, rfl⟩, nofun⟩
  | some bytes =>
    obtain ⟨tag, hr⟩ := right bytes rfl
    dsimp only
    rcases hd : r.codec.decode bytes with e | a
    · exact ⟨_, _, rfl, ⟨healthy, grounded, stands, members⟩, ⟨rfl, rfl, rfl⟩, nofun⟩
    · refine ⟨_, _, rfl, ⟨healthy, grounded, stands, members⟩, ⟨rfl, rfl, rfl⟩, ?_⟩
      rintro _ ⟨⟩
      exact ⟨tag, bytes, hr, hd⟩

theorem run {ε ω : Type} (h : c.Coherent truth now) (r : Reading α) (fetch : ω → Except ε α × ω) (w : ω) :
    ∃ d, d.Coherent truth now ∧ c.Passed 0 d ∧
      ((∃ a tag bytes, truth.right tag (c.fullKey r.key) bytes ∧ r.codec.decode bytes = .ok a ∧
        r.run now fetch c w = (some (.ok a), none, d, w)) ∨
      r.run now fetch c w =
        (some (fetch w).1, (fetch w).1.toOption.map (r.fill c c.epoch), d, (fetch w).2)) := by
  obtain ⟨found, d, looked, coherent, passed, right⟩ := h.lookup r
  cases found with
  | some a =>
    obtain ⟨tag, bytes, hr, hd⟩ := right a rfl
    exact ⟨d, coherent, passed, .inl ⟨a, tag, bytes, hr, hd, Reading.run_of_hit looked w⟩⟩
  | none =>
    obtain ⟨flights, grounded, ran⟩ := Reading.run_of_miss fetch looked coherent.grounded w
    have names : d.fullKey = c.fullKey := by
      funext key
      rw [fullKey, fullKey, passed.root]
    have same : r.fill d d.epoch = r.fill c c.epoch := by
      funext a
      rw [Reading.fill, Reading.fill, names, passed.tagTtl, passed.epoch, Nat.add_zero]
    rw [same] at ran
    exact ⟨{ d with flights := flights }, ⟨coherent.healthy, grounded, coherent.stands, coherent.members⟩,
      ⟨passed.root, passed.tagTtl, passed.epoch⟩, .inr ran⟩

/-- A right value may be stored if its key joins the members that its tag still has, and the tag then lives as
long as any value. -/
theorem put (h : c.Coherent truth now) {tag key : String} {bytes : Bytes}
    (right : truth.right tag key bytes) {expires last : Nat}
    (soon : expires ≤ now + c.tagTtl) (lasts : now + c.tagTtl ≤ last) :
    { c with store := { c.store with
      values := c.store.values.insert key ⟨bytes, expires⟩
      tags := c.store.tags.insert tag ⟨c.store.joined now tag key, last⟩ } }.Coherent truth now := by
  refine ⟨⟨h.healthy.up, h.healthy.unarmed⟩, h.grounded, ?_, ?_⟩
  · intro other v found live
    rw [Entries.get?_insert] at found
    split at found
    next own =>
      cases found
      subst own
      refine ⟨soon, tag, ⟨c.store.joined now tag other, last⟩, right, ?_, MemoryStore.mem_joined.mpr (.inr rfl),
        Nat.le_trans soon lasts⟩
      rw [Entries.get?_insert, if_pos rfl]
    next =>
      obtain ⟨soon, old, t, hr, ht, member, outlives⟩ := h.stands other v found live
      refine ⟨soon, old, ?_⟩
      by_cases same : old = tag
      · subst same
        have still : other ∈ c.store.members now old := MemoryStore.mem_members.mpr ⟨t, ht, by omega, member⟩
        refine ⟨⟨c.store.joined now old key, last⟩, hr, ?_, MemoryStore.mem_joined.mpr (.inl still),
          Nat.le_trans soon lasts⟩
        rw [Entries.get?_insert, if_pos rfl]
      · refine ⟨t, hr, ?_, member, outlives⟩
        rw [Entries.get?_insert, if_neg same, ht]
  · intro named t ht other member
    rw [Entries.get?_insert] at ht
    split at ht
    · cases ht
      rcases MemoryStore.mem_joined.mp member with old | rfl
      · obtain ⟨t, ht, -, member⟩ := MemoryStore.mem_members.mp old
        exact h.members tag t ht other member
      · exact (truth.tags right).2
    · exact h.members named t ht other member

/-- A fill that is not given up keeps everything right if the clock can name the end of its tag's time. -/
theorem fill (h : c.Coherent truth now) {f : Fill α} (current : f.Current truth c.tagTtl c.epoch)
    (more : now ≤ later) (named : later + c.tagTtl < MemoryStore.horizon) :
    (f.runSlowly now later c).Coherent truth later ∧ c.Passed 0 (f.runSlowly now later c) := by
  have unchanged (same : f.runSlowly now later c = c) :
      (f.runSlowly now later c).Coherent truth later ∧ c.Passed 0 (f.runSlowly now later c) := by
    rw [same]
    exact ⟨h.mono more, ⟨rfl, rfl, rfl⟩⟩
  by_cases observed : c.epoch = f.observed
  · obtain ⟨tag, tagged, right⟩ := current.stores observed.symm
    rcases encoded : f.codec.encode f.value with e | bytes
    · exact unchanged (Fill.runSlowly_refused encoded)
    · have lives := current.lives
      have tagLives := current.tagLives
      rw [Fill.runSlowly_stored now later h.healthy observed encoded tagged (by omega) (by omega)]
      exact ⟨(h.mono more).put (right bytes encoded) (by omega) (by omega), ⟨rfl, rfl, rfl⟩⟩
  · exact unchanged (Fill.runSlowly_stale observed)

/-- Names may be removed if the values that are left are still right, and their tags are not removed. -/
theorem remove (h : c.Coherent truth now) (names : List String) {truth' : CacheTruth isTag}
    (keeps : ∀ tag t key bytes, c.store.tags.get? tag = some t → now < t.expires → key ∈ t.content →
      key ∉ names → truth.right tag key bytes → tag ∉ names ∧ truth'.right tag key bytes)
    (counters : Entries Int) (epoch : Nat) :
    { c with
      epoch := epoch
      store := { names.foldl MemoryStore.remove c.store with counters := counters } }.Coherent
        truth' now := by
  have healthy := h.healthy.foldl_remove names
  refine ⟨⟨healthy.up, healthy.unarmed⟩, h.grounded, ?_, ?_⟩
  · intro key v found live
    dsimp only at found
    rw [MemoryStore.values_foldl_remove] at found
    split at found
    next => cases found
    next left =>
      obtain ⟨soon, tag, t, right, ht, member, expires⟩ := h.stands key v found live
      obtain ⟨stays, right⟩ := keeps tag t key v.content ht (by omega) member left right
      refine ⟨soon, tag, t, right, ?_, member, expires⟩
      dsimp only
      rw [MemoryStore.tags_foldl_remove, if_neg stays, ht]
  · intro tag t ht key member
    dsimp only at ht
    rw [MemoryStore.tags_foldl_remove] at ht
    split at ht
    · cases ht
    · exact h.members tag t ht key member

theorem invalidate_entity (h : c.Coherent truth now) {key : String} (plain : ¬isTag (c.fullKey key))
    (scope : String) :
    ((Invalidation.entity key scope).run now c).2.Coherent truth now ∧
      c.Passed 1 ((Invalidation.entity key scope).run now c).2 := by
  rw [Invalidation.run_entity now h.healthy]
  refine ⟨h.remove [c.fullKey key] ?_ _ _, ⟨rfl, rfl, rfl⟩⟩
  intro tag t other bytes _ _ _ _ right
  refine ⟨?_, right⟩
  intro named
  rw [List.mem_singleton] at named
  exact plain (named ▸ (truth.tags right).1)

/-- When a tag is made invalid, only values under other tags are left. -/
theorem invalidate_tag (h : c.Coherent truth now) (tag : String) (truth' : CacheTruth isTag)
    (others : ∀ {tag' key : String} {bytes : Bytes}, tag' ≠ c.fullKey tag → truth.right tag' key bytes →
      truth'.right tag' key bytes) :
    ((Invalidation.tag tag).run now c).2.Coherent truth' now ∧
      c.Passed 1 ((Invalidation.tag tag).run now c).2 := by
  rw [Invalidation.run_tag h.healthy]
  refine ⟨h.remove _ ?_ _ _, ⟨rfl, rfl, rfl⟩⟩
  intro tag' t key bytes ht live member left right
  have ne : tag' ≠ c.fullKey tag := by
    rintro rfl
    exact left (List.mem_append_left _ (MemoryStore.mem_members.mpr ⟨t, ht, live, member⟩))
  refine ⟨?_, others ne right⟩
  intro named
  rcases List.mem_append.mp named with old | own
  · obtain ⟨u, hu, -, member⟩ := MemoryStore.mem_members.mp old
    exact h.members _ u hu tag' member (truth.tags right).1
  · exact ne (List.mem_singleton.mp own)

end Coherent

end CacheAside

end Workboard
