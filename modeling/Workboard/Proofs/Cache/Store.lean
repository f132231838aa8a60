import Workboard.Cache.Store

/-!
The calls of a store, and what is found in it after them, whether or not some fail.
-/

namespace Workboard

namespace Entries

variable {α : Type}

theorem get?_erase (m : Entries α) (key other : String) :
    (m.erase key).get? other = if other = key then none else m.get? other := by
  rw [get?, get?, erase, List.find?_filter]
  split
  next h =>
    subst h
    simp
  next h =>
    congr 2
    funext e
    by_cases he : e.1 = other
    · simp [he, h]
    · simp [he]

theorem get?_insert (m : Entries α) (key other : String) (a : α) :
    (m.insert key a).get? other = if other = key then some a else m.get? other := by
  split
  next h =>
    subst h
    simp [get?, insert]
  next h =>
    have skip : (m.insert key a).get? other = (m.erase key).get? other := by
      rw [get?, get?, insert, List.find?_cons_of_neg (by simpa using Ne.symm h)]
    rw [skip, get?_erase, if_neg h]

end Entries

namespace MemoryStore

structure Healthy (s : MemoryStore) : Prop where
  up : s.failing = false
  unarmed : s.faults = .none

theorem Healthy.guarded {α : Type} {s : MemoryStore} (h : s.Healthy) (call : CacheCall)
    (run : MemoryStore → α × MemoryStore) : s.guarded call run = (.ok (run s).1, (run s).2) := by
  obtain ⟨values, tags, counters, failing, faults⟩ := s
  obtain ⟨rfl, rfl⟩ := h
  rfl

theorem Healthy.risked {α : Type} {s : MemoryStore} (h : s.Healthy) (call : CacheCall)
    (run : MemoryStore → Ending CacheError α × MemoryStore) : s.risked call run = run s := by
  obtain ⟨values, tags, counters, failing, faults⟩ := s
  obtain ⟨rfl, rfl⟩ := h
  rfl

theorem Healthy.guarded_healthy {α : Type} {s : MemoryStore} (h : s.Healthy) (call : CacheCall)
    {run : MemoryStore → α × MemoryStore} (keeps : (run s).2.Healthy) : (s.guarded call run).2.Healthy := by
  rw [h.guarded]
  exact keeps

theorem Healthy.set {s : MemoryStore} (h : s.Healthy) (now : Nat) (key : String) (value : Bytes) (ttl : Nat) :
    (s.set now key value ttl).2.Healthy := by
  rw [MemoryStore.set, h.risked]
  split
  · exact ⟨h.up, h.unarmed⟩
  · exact h

theorem Healthy.addToTag {s : MemoryStore} (h : s.Healthy) (now : Nat) (tag key : String) (ttl : Nat) :
    (s.addToTag now tag key ttl).2.Healthy := by
  rw [MemoryStore.addToTag, h.risked]
  dsimp only
  split <;> exact ⟨h.up, h.unarmed⟩

theorem Healthy.foldl_remove {s : MemoryStore} (h : s.Healthy) (names : List String) :
    (names.foldl remove s).Healthy := by
  induction names generalizing s with
  | nil => exact h
  | cons name names ih => exact ih ⟨h.up, h.unarmed⟩

theorem values_foldl_remove (names : List String) (s : MemoryStore) (key : String) :
    (names.foldl remove s).values.get? key = if key ∈ names then none else s.values.get? key := by
  induction names generalizing s with
  | nil => rfl
  | cons name names ih =>
    have first : (s.remove name).values.get? key = if key = name then none else s.values.get? key :=
      s.values.get?_erase name key
    rw [List.foldl_cons, ih, first]
    by_cases hk : key = name
    · simp [hk]
    · simp [hk]

theorem tags_foldl_remove (names : List String) (s : MemoryStore) (tag : String) :
    (names.foldl remove s).tags.get? tag = if tag ∈ names then none else s.tags.get? tag := by
  induction names generalizing s with
  | nil => rfl
  | cons name names ih =>
    have first : (s.remove name).tags.get? tag = if tag = name then none else s.tags.get? tag :=
      s.tags.get?_erase name tag
    rw [List.foldl_cons, ih, first]
    by_cases ht : tag = name
    · simp [ht]
    · simp [ht]

theorem check_keeps (s : MemoryStore) (call : CacheCall) :
    (s.check call).2.values = s.values ∧ (s.check call).2.tags = s.tags := by
  unfold check
  grind

section values

variable {s t : MemoryStore} {key other : String} {v : Expiring Bytes}

/-- A call that fails leaves values and tags as they are. -/
theorem guarded_cases {β : Type} {call : CacheCall} {run : MemoryStore → β × MemoryStore}
    {r : Except CacheError β} (h : s.guarded call run = (r, t)) :
    (∃ e, r = .error e) ∧ t.values = s.values ∧ t.tags = s.tags ∨
      ∃ u : MemoryStore, u.values = s.values ∧ u.tags = s.tags ∧ r = .ok (run u).1 ∧ t = (run u).2 := by
  have kept := s.check_keeps call
  unfold guarded at h
  split at h
  next e u checked =>
    cases h
    rw [checked] at kept
    exact .inl ⟨⟨e, rfl⟩, kept⟩
  next u checked =>
    cases h
    rw [checked] at kept
    exact .inr ⟨u, kept.1, kept.2, rfl, rfl⟩

theorem risked_cases {β : Type} {call : CacheCall} {run : MemoryStore → Ending CacheError β × MemoryStore}
    {r : Ending CacheError β} (h : s.risked call run = (r, t)) :
    (∃ e, r = .failed e) ∧ t.values = s.values ∧ t.tags = s.tags ∨
      ∃ u : MemoryStore, u.values = s.values ∧ u.tags = s.tags ∧ run u = (r, t) := by
  have kept := s.check_keeps call
  unfold risked at h
  split at h
  next e u checked =>
    cases h
    rw [checked] at kept
    exact .inl ⟨⟨e, rfl⟩, kept⟩
  next u checked =>
    rw [checked] at kept
    exact .inr ⟨u, kept.1, kept.2, h⟩

theorem values_guarded {β : Type} {call : CacheCall} {run : MemoryStore → β × MemoryStore}
    {r : Except CacheError β} (h : s.guarded call run = (r, t)) :
    (∃ e, r = .error e) ∧ t.values = s.values ∨
      ∃ u : MemoryStore, u.values = s.values ∧ r = .ok (run u).1 ∧ t = (run u).2 := by
  obtain ⟨failed, values, -⟩ | ⟨u, values, -, done⟩ := guarded_cases h
  · exact .inl ⟨failed, values⟩
  · exact .inr ⟨u, values, done⟩

theorem of_get {now : Nat} {r : Except CacheError (Option Bytes)} (h : s.get now key = (r, t))
    (found : t.values.get? other = some v) : s.values.get? other = some v := by
  obtain ⟨-, same⟩ | ⟨u, same, -, rfl⟩ := values_guarded h
  · rwa [← same]
  · rw [← same]
    unfold read at found
    split at found
    · split at found
      · exact found
      · rw [Entries.get?_erase] at found
        split at found
        · cases found
        · exact found
    · exact found

/-- A value is stored if the end of its time can be named. -/
theorem set_cases {now ttl : Nat} {value : Bytes} {r : Ending CacheError Unit}
    (h : s.set now key value ttl = (r, t)) :
    t.tags = s.tags ∧ (now + ttl < horizon ∧ r = .returned () ∧ t.values = s.values.insert key ⟨value, now + ttl⟩ ∨
      r ≠ .returned () ∧ t.values = s.values) := by
  obtain ⟨⟨e, rfl⟩, values, tags⟩ | ⟨u, values, tags, ran⟩ := risked_cases h
  · exact ⟨tags, .inr ⟨nofun, values⟩⟩
  · split at ran <;> cases ran
    next named => exact ⟨tags, .inl ⟨named, rfl, by rw [← values]⟩⟩
    next => exact ⟨tags, .inr ⟨nofun, values⟩⟩

theorem of_set {now ttl : Nat} {value : Bytes} {r : Ending CacheError Unit}
    (h : s.set now key value ttl = (r, t)) (found : t.values.get? other = some v) :
    s.values.get? other = some v ∨ r = .returned () ∧ other = key ∧ v.content = value := by
  obtain ⟨-, ⟨-, done, stored⟩ | ⟨-, same⟩⟩ := set_cases h
  · rw [stored, Entries.get?_insert] at found
    split at found
    next own => exact .inr ⟨done, own, congrArg _ (Option.some.inj found).symm⟩
    next => exact .inl found
  · exact .inl (same ▸ found)

theorem of_delete {keys : List String} {r : Except CacheError Unit} (h : s.delete keys = (r, t))
    (found : t.values.get? key = some v) :
    s.values.get? key = some v ∧ (r = .ok () → key ∉ keys) := by
  obtain ⟨⟨e, failed⟩, same⟩ | ⟨u, same, -, rfl⟩ := values_guarded h
  · exact ⟨same ▸ found, by simp [failed]⟩
  · rw [values_foldl_remove] at found
    split at found
    · cases found
    next left => exact ⟨same ▸ found, fun _ => left⟩

theorem values_addToTag {now ttl : Nat} {tag : String} {r : Ending CacheError Unit}
    (h : s.addToTag now tag key ttl = (r, t)) : t.values = s.values := by
  obtain ⟨-, same, -⟩ | ⟨u, same, -, ran⟩ := risked_cases h
  · exact same
  · dsimp only at ran
    split at ran <;> cases ran <;> exact same

theorem values_tagMembers {now : Nat} {tag : String} {r : Except CacheError (List String)}
    (h : s.tagMembers now tag = (r, t)) : t.values = s.values := by
  obtain ⟨-, same⟩ | ⟨u, same, -, rfl⟩ := values_guarded h
  · exact same
  · exact same

theorem values_counter {r : Except CacheError Int} (h : s.counter key = (r, t)) : t.values = s.values := by
  obtain ⟨-, same⟩ | ⟨u, same, -, rfl⟩ := values_guarded h
  · exact same
  · exact same

theorem values_incr {r : Except CacheError Int} (h : s.incr key = (r, t)) : t.values = s.values := by
  obtain ⟨-, same⟩ | ⟨u, same, -, rfl⟩ := values_guarded h
  · exact same
  · exact same

end values

section tags

variable {s t : MemoryStore} {key : String}

theorem tags_get {now : Nat} {r : Except CacheError (Option Bytes)} (h : s.get now key = (r, t)) :
    t.tags = s.tags := by
  obtain ⟨-, -, same⟩ | ⟨u, -, same, -, rfl⟩ := guarded_cases h
  · exact same
  · rw [← same]
    unfold read
    grind

theorem members_congr (same : t.tags = s.tags) (now : Nat) (tag : String) : t.members now tag = s.members now tag := by
  rw [members, members, same]

theorem mem_joined {now : Nat} {tag other : String} :
    other ∈ s.joined now tag key ↔ other ∈ s.members now tag ∨ other = key := by
  unfold joined
  by_cases known : key ∈ s.members now tag
  · simp only [List.contains_iff_mem, known, if_true]
    refine ⟨.inl, ?_⟩
    rintro (old | rfl)
    · exact old
    · exact known
  · simp [known]

/-- A key joins the members of a tag that are still known, and the tag has some time from then on. -/
def Joins (s t : MemoryStore) (now : Nat) (tag key : String) (expires : Nat) : Prop :=
  t.tags = s.tags.insert tag ⟨s.joined now tag key, expires⟩

theorem Joins.get?_own {now expires : Nat} {tag : String} (h : s.Joins t now tag key expires) :
    t.tags.get? tag = some ⟨s.joined now tag key, expires⟩ := by
  rw [h, Entries.get?_insert, if_pos rfl]

theorem Joins.get?_other {now expires : Nat} {tag other : String} (h : s.Joins t now tag key expires)
    (apart : other ≠ tag) : t.tags.get? other = s.tags.get? other := by
  rw [h, Entries.get?_insert, if_neg apart]

/-- The key joins even where the end of the tag's time cannot be named; the tag then keeps its time. -/
theorem tags_addToTag {now ttl : Nat} {tag : String} {r : Ending CacheError Unit}
    (h : s.addToTag now tag key ttl = (r, t)) :
    (∃ e, r = .failed e) ∧ t.tags = s.tags ∨
      (now + ttl < horizon ∧ r = .returned () ∧ s.Joins t now tag key (now + ttl)) ∨
        horizon ≤ now + ttl ∧ r = .panicked pastHorizon ∧
          s.Joins t now tag key ((s.tags.get? tag).elim now (·.expires)) := by
  obtain ⟨failed, -, same⟩ | ⟨u, -, same, ran⟩ := risked_cases h
  · exact .inl ⟨failed, same⟩
  · have held : u.joined now tag key = s.joined now tag key := by rw [joined, joined, members_congr same]
    simp only [held, same] at ran
    split at ran <;> cases ran
    next named => exact .inr (.inl ⟨named, rfl, rfl⟩)
    next late => exact .inr (.inr ⟨Nat.le_of_not_lt late, rfl, rfl⟩)

theorem tagMembers_ok {now : Nat} {tag : String} {names : List String}
    (h : s.tagMembers now tag = (.ok names, t)) : names = s.members now tag := by
  obtain ⟨⟨e, failed⟩, -⟩ | ⟨u, -, same, done, -⟩ := guarded_cases h
  · cases failed
  · exact (Except.ok.inj done).trans (members_congr same now tag)

theorem mem_members {now : Nat} {tag : String} :
    key ∈ s.members now tag ↔ ∃ t, s.tags.get? tag = some t ∧ now < t.expires ∧ key ∈ t.content := by
  rw [members]
  cases s.tags.get? tag with
  | none => simp
  | some t => by_cases live : now < t.expires <;> simp [live]

end tags

end MemoryStore

end Workboard
