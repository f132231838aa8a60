import Workboard.Proofs.Cache.Interleaving

/-!
Tags while many tasks read from a cache and fill it, and none invalidates. A tag changes by a fill that adds its
key to it, and by nothing else.
-/

namespace Workboard

variable {ε α : Type}

theorem Reading.step_tags {r : Reading α} {now : Nat} {c d : CacheAside α} {phase next : ReadPhase ε α}
    (h : r.step now c phase = some (d, next)) :
    d.store.tags = c.store.tags ∧ d.tagTtl = c.tagTtl ∧ (c.store.Healthy → d.store.Healthy) := by
  cases phase with
  | lookup =>
    obtain ⟨hits, misses, same⟩ := r.lookup_cache now c
    have looked : d = (r.lookup now c).2 := by
      simp only [step] at h
      split at h
      all_goals
        next found =>
          cases h
          rw [found]
    rw [looked, same]
    refine ⟨MemoryStore.tags_get rfl, rfl, fun healthy => healthy.guarded_healthy .get ?_⟩
    unfold MemoryStore.read
    split
    · split
      · exact healthy
      · exact ⟨healthy.up, healthy.unarmed⟩
    · exact healthy
  | observe =>
    obtain ⟨rfl, -⟩ : c = d ∧ _ = next := by simpa [step] using h
    exact ⟨rfl, rfl, id⟩
  | joined observed flight =>
    obtain ⟨⟨flights, new⟩, -, moved⟩ := Option.map_eq_some_iff.mp h
    cases moved
    exact ⟨rfl, rfl, id⟩
  | hit a => cases h

theorem Reading.abandon_store (r : Reading α) (c : CacheAside α) (phase : ReadPhase ε α) :
    (r.abandon c phase).store = c.store ∧ (r.abandon c phase).tagTtl = c.tagTtl := by
  unfold abandon
  split <;> exact ⟨rfl, rfl⟩

namespace Fill

variable {f : Fill α} {now : Nat} {c d : CacheAside α} {phase next : FillPhase}

/-- A call that adds the key of a fill to a tag is refused. -/
def Refused (f : Fill α) (now : Nat) (c : CacheAside α) (tag : String) : Prop :=
  ∃ e, (c.store.addToTag now tag f.key f.tagTtl).1 = .failed e

/-- The time that a tag has when the key of a fill has joined it. -/
def TagTime (f : Fill α) (now : Nat) (c : CacheAside α) (tag : String) (expires : Nat) : Prop :=
  expires = now + f.tagTtl ∨ expires = (c.store.tags.get? tag).elim now (·.expires)

/-- A fill that has a tag to come adds its key to it, or is refused and ends, or adds its key and breaks off. -/
theorem step_tag {t : String} {ts : List String} (h : f.step now c (.tag (t :: ts)) = (d, next)) :
    next = .tag ts ∧ c.store.Joins d.store now t f.key (now + f.tagTtl) ∨
      next = .done ∧ d.store.tags = c.store.tags ∧ f.Refused now c t ∨
        next = .panicked ∧ c.store.Joins d.store now t f.key ((c.store.tags.get? t).elim now (·.expires)) := by
  rcases tagged : c.store.addToTag now t f.key f.tagTtl with ⟨r, store⟩
  rcases MemoryStore.tags_addToTag tagged with ⟨⟨e, rfl⟩, same⟩ | ⟨-, rfl, joins⟩ | ⟨-, rfl, joins⟩ <;>
    simp only [step, tagged, Prod.mk.injEq] at h <;> obtain ⟨rfl, rfl⟩ := h
  · exact .inr (.inl ⟨rfl, same, e, congrArg (·.1) tagged⟩)
  · exact .inl ⟨rfl, joins⟩
  · exact .inr (.inr ⟨rfl, joins⟩)

theorem step_tags (h : f.step now c phase = (d, next)) :
    d.store.tags = c.store.tags ∨ ∃ t ts expires, phase = .tag (t :: ts) ∧ f.TagTime now c t expires ∧
      c.store.Joins d.store now t f.key expires := by
  cases phase with
  | check =>
    left
    simp only [step] at h
    split at h <;> cases h <;> rfl
  | encode =>
    left
    simp only [step] at h
    split at h <;> cases h <;> rfl
  | set bytes =>
    left
    rcases stored : c.store.set now f.key bytes f.ttl with ⟨⟨⟩ | e | m, store⟩
    all_goals
      simp only [step, stored, Prod.mk.injEq] at h
      obtain ⟨rfl, -⟩ := h
      exact (MemoryStore.set_cases stored).1
  | tag rest =>
    cases rest with
    | nil =>
      left
      cases h
      rfl
    | cons t ts =>
      rcases step_tag h with ⟨-, joins⟩ | ⟨-, same, -⟩ | ⟨-, joins⟩
      · exact .inr ⟨t, ts, _, rfl, .inl rfl, joins⟩
      · exact .inl same
      · exact .inr ⟨t, ts, _, rfl, .inr rfl, joins⟩
  | done | panicked =>
    left
    cases h
    rfl

theorem step_healthy (healthy : c.store.Healthy) (h : f.step now c phase = (d, next)) :
    d.store.Healthy ∧ d.tagTtl = c.tagTtl := by
  cases phase with
  | check =>
    simp only [step] at h
    split at h <;> cases h <;> exact ⟨healthy, rfl⟩
  | encode =>
    simp only [step] at h
    split at h <;> cases h <;> exact ⟨healthy, rfl⟩
  | set bytes =>
    have kept := healthy.set now f.key bytes f.ttl
    simp only [step] at h
    split at h
    all_goals
      next stored =>
        rw [stored] at kept
        cases h
        exact ⟨kept, rfl⟩
  | tag rest =>
    cases rest with
    | nil =>
      cases h
      exact ⟨healthy, rfl⟩
    | cons t ts =>
      have kept := healthy.addToTag now t f.key f.tagTtl
      simp only [step] at h
      split at h
      all_goals
        next tagged =>
          rw [tagged] at kept
          cases h
          exact ⟨kept, rfl⟩
  | done | panicked =>
    cases h
    exact ⟨healthy, rfl⟩

theorem not_refused (healthy : c.store.Healthy) (tag : String) : ¬ f.Refused now c tag := by
  rintro ⟨e, refused⟩
  rw [MemoryStore.addToTag, healthy.risked] at refused
  dsimp only at refused
  split at refused <;> cases refused

end Fill

def CacheEvent.isInvalidate : CacheEvent ε α → Bool
  | .invalidate _ => true
  | _ => false

/-- Whether an event makes calls of the store fail. -/
def CacheEvent.isFault : CacheEvent ε α → Bool
  | .failing _ | .fault _ _ => true
  | _ => false

/-- Whether an event is one of reads and what they leave, with single calls that store or tag a value failing. -/
def CacheEvent.onlyFills : CacheEvent ε α → Bool
  | .invalidate _ | .failing _ => false
  | .fault call _ => call = .set || call = .addToTag
  | _ => true

namespace CacheWorld

variable {w : CacheWorld ε α} {e : CacheEvent ε α} {n begun : Nat} {f : Fill α}

/-- No task invalidates. -/
def OnlyReads (w : CacheWorld ε α) : Prop := ∀ i phase begun, .invalidating i phase begun ∉ w.actors

theorem onlyReads_begin (c : CacheAside α) : (begin c : CacheWorld ε α).OnlyReads := nofun

theorem OnlyReads.after (h : w.OnlyReads) (reads : e.isInvalidate = false) : (w.after e).OnlyReads := by
  intro i phase begun mem
  rcases mem_after mem with old | arises
  · exact h i phase begun old
  · cases arises with
    | invalidates i asked =>
      rw [asked] at reads
      cases reads
    | steps mem stepped =>
      obtain ⟨phase, rfl, -⟩ := CacheActor.step_invalidating stepped
      exact h _ _ _ mem

/-- A fill stays as it is but for its own steps. -/
theorem filling_after {phase : FillPhase} (here : w.actors[n]? = some (.filling f phase begun))
    (e : CacheEvent ε α) :
    (w.after e).actors[n]? = some (.filling f phase begun) ∨ e = .step n ∧ ∃ next,
      f.step w.clock w.cache phase = ((w.after e).cache, next) ∧
        (w.after e).actors[n]? = some (.filling f next begun) := by
  have bound := (List.getElem?_eq_some_iff.mp here).1
  cases e with
  | read r =>
    left
    rw [← here]
    exact List.getElem?_append_left bound
  | invalidate j =>
    left
    rw [← here]
    exact List.getElem?_append_left bound
  | step m =>
    by_cases own : m = n
    · subst own
      refine .inr ⟨rfl, (f.step w.clock w.cache phase).2, ?_, ?_⟩
      · simp only [after, perform, here, CacheActor.step]
      · simp only [after, perform, here, CacheActor.step]
        exact List.getElem?_set_self bound
    · left
      simp only [after, perform]
      split
      next =>
        split
        next => exact (List.getElem?_set_ne own).trans here
        next => exact here
      next => exact here
  | answer m result =>
    left
    simp only [after, perform]
    split
    next found =>
      have other : m ≠ n := by
        rintro rfl
        cases here.symm.trans found
      rw [List.getElem?_append_left (by simpa using bound), List.getElem?_set_ne other]
      exact here
    next => exact here
  | abandon m =>
    left
    simp only [after, perform]
    split
    all_goals first
      | exact here
      | next found =>
          have other : m ≠ n := by
            rintro rfl
            cases here.symm.trans found
          exact (List.getElem?_set_ne other).trans here
  | _ => exact .inl here

/-- Where no task invalidates, an event leaves the tags as they are, or is the step of a fill that adds its key to
one of them. -/
theorem OnlyReads.tags_after (h : w.OnlyReads) (e : CacheEvent ε α) :
    (w.after e).cache.store.tags = w.cache.store.tags ∨ ∃ m g t ts begun expires, e = .step m ∧
      w.actors[m]? = some (.filling g (.tag (t :: ts)) begun) ∧ g.TagTime w.clock w.cache t expires ∧
        w.cache.store.Joins (w.after e).cache.store w.clock t g.key expires := by
  cases e with
  | step m =>
    rcases found : w.actors[m]? with _ | a
    · left
      simp only [CacheWorld.after, perform, found]
    · cases a with
      | reading r phase begun =>
        left
        simp only [CacheWorld.after, perform, found, CacheActor.step]
        rcases stepped : r.step w.clock w.cache phase with _ | ⟨d, next⟩
        · rfl
        · exact (Reading.step_tags stepped).1
      | filling g phase begun =>
        simp only [CacheWorld.after, perform, found, CacheActor.step]
        rcases stepped : g.step w.clock w.cache phase with ⟨d, next⟩
        rcases Fill.step_tags stepped with same | ⟨t, ts, expires, rfl, time, joins⟩
        · exact .inl same
        · exact .inr ⟨m, g, t, ts, begun, expires, rfl, found, time, joins⟩
      | invalidating i phase begun => exact absurd (List.mem_of_getElem? found) (h i phase begun)
      | gone =>
        left
        simp only [CacheWorld.after, perform, found, CacheActor.step]
  | answer m result =>
    left
    simp only [CacheWorld.after, perform]
    split <;> rfl
  | abandon m =>
    left
    simp only [CacheWorld.after, perform]
    split
    next r phase _ _ => rw [(r.abandon_store w.cache phase).1]
    all_goals rfl
  | _ => exact .inl rfl

/-- The entry of a tag stays, or a fill that adds its key to the tag makes a new one, with the members that are
still known. A fill that breaks off leaves the time of the old one. -/
theorem OnlyReads.entry_after (h : w.OnlyReads) (e : CacheEvent ε α) {tag : String} {t : Expiring (List String)}
    (found : w.cache.store.tags.get? tag = some t) :
    (w.after e).cache.store.tags.get? tag = some t ∨ ∃ m g ts begun held expires, e = .step m ∧
      w.actors[m]? = some (.filling g (.tag (tag :: ts)) begun) ∧
        (w.after e).cache.store.tags.get? tag = some ⟨held, expires⟩ ∧
          (expires = w.clock + g.tagTtl ∨ expires = t.expires) ∧
            ∀ k ∈ w.cache.store.members w.clock tag, k ∈ held := by
  rcases h.tags_after e with same | ⟨m, g, own, ts, begun, expires, asked, stands, time, joins⟩
  · exact .inl (same ▸ found)
  · by_cases same : tag = own
    · subst same
      rw [Fill.TagTime, found] at time
      exact .inr ⟨m, g, ts, begun, _, expires, asked, stands, joins.get?_own, time,
        fun k hk => MemoryStore.mem_joined.mpr (.inl hk)⟩
    · exact .inl ((joins.get?_other same).trans found)

/-- A store that works goes on working. -/
theorem OnlyReads.healthy_after (h : w.OnlyReads) (healthy : w.cache.store.Healthy) (calm : e.isFault = false) :
    (w.after e).cache.store.Healthy ∧ (w.after e).cache.tagTtl = w.cache.tagTtl := by
  cases e with
  | step m =>
    rcases found : w.actors[m]? with _ | a
    · simp only [CacheWorld.after, perform, found]
      exact ⟨healthy, trivial⟩
    · cases a with
      | reading r phase begun =>
        simp only [CacheWorld.after, perform, found, CacheActor.step]
        rcases stepped : r.step w.clock w.cache phase with _ | ⟨d, next⟩
        · exact ⟨healthy, rfl⟩
        · obtain ⟨-, tagTtl, works⟩ := Reading.step_tags stepped
          exact ⟨works healthy, tagTtl⟩
      | filling g phase begun =>
        simp only [CacheWorld.after, perform, found, CacheActor.step]
        rcases stepped : g.step w.clock w.cache phase with ⟨d, next⟩
        exact Fill.step_healthy healthy stepped
      | invalidating i phase begun => exact absurd (List.mem_of_getElem? found) (h i phase begun)
      | gone =>
        simp only [CacheWorld.after, perform, found, CacheActor.step]
        exact ⟨healthy, trivial⟩
  | answer m result =>
    simp only [CacheWorld.after, perform]
    split <;> exact ⟨healthy, rfl⟩
  | abandon m =>
    simp only [CacheWorld.after, perform]
    split
    next r phase _ _ =>
      obtain ⟨store, tagTtl⟩ := r.abandon_store w.cache phase
      exact ⟨store ▸ healthy, tagTtl⟩
    all_goals exact ⟨healthy, rfl⟩
  | failing on => cases calm
  | fault call times => cases calm
  | _ => exact ⟨healthy, rfl⟩

end CacheWorld

end Workboard
