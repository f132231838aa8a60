import Workboard.Proofs.Cache.Aside
import Workboard.Proofs.Cache.Tags

/-!
Values and the tags that they were stored under.
-/

namespace Workboard.CacheWorld

variable {ε α : Type} {v w : CacheWorld ε α} {e : CacheEvent ε α} {events : List (CacheEvent ε α)} {n begun : Nat}
  {f : Fill α}

theorem clock_le_after (w : CacheWorld ε α) (e : CacheEvent ε α) : w.clock ≤ (w.after e).clock := by
  cases e with
  | wait ms => exact Nat.le_add_right _ _
  | step n | answer n | abandon n =>
    simp only [after, perform]
    grind
  | _ => exact Nat.le_refl _

theorem clock_le_run (w : CacheWorld ε α) (events : List (CacheEvent ε α)) : w.clock ≤ (w.run events).clock := by
  induction events generalizing w with
  | nil => exact Nat.le_refl _
  | cons e events ih => exact Nat.le_trans (w.clock_le_after e) (ih (w.after e))

theorem clock_le_of_prefix (w : CacheWorld ε α) {mid : List (CacheEvent ε α)} (within : mid <+: events) :
    (w.run mid).clock ≤ (w.run events).clock := by
  obtain ⟨rest, rfl⟩ := within
  have last := (w.run mid).clock_le_run rest
  rwa [run, run, ← List.foldl_append] at last

section run

-- what is so of worlds, of tags in them, and of the events that come
variable (holds : CacheWorld ε α → Prop) (listed : CacheWorld ε α → String → Prop)
  (calm : CacheWorld ε α → CacheEvent ε α → Prop)

theorem calm_onward (along : ∀ mid d, mid ++ [d] <+: e :: events → calm (w.run mid) d) :
    ∀ mid d, mid ++ [d] <+: events → calm ((w.after e).run mid) d := by
  intro mid d within
  exact along (e :: mid) d (List.prefix_cons_inj e |>.mpr within)

theorem run_holds (step : ∀ v e, holds v → calm v e → holds (v.after e)) (first : holds w)
    (along : ∀ mid e, mid ++ [e] <+: events → calm (w.run mid) e) : holds (w.run events) := by
  induction events generalizing w with
  | nil => exact first
  | cons e events ih => exact ih (step w e first (along [] e ⟨events, rfl⟩)) (calm_onward calm along)

theorem run_holds_of_all {quiet : CacheEvent ε α → Prop} (step : ∀ v e, holds v → quiet e → holds (v.after e))
    (first : holds w) (all : ∀ e ∈ events, quiet e) : holds (w.run events) := by
  refine run_holds holds (fun _ => quiet) step first ?_
  intro mid e within
  exact all e (within.subset (by simp))

/-- A fill that has broken off never ends. -/
theorem panicked_run (here : w.actors[n]? = some (.filling f .panicked begun)) :
    (w.run events).actors[n]? = some (.filling f .panicked begun) := by
  induction events generalizing w with
  | nil => exact here
  | cons e events ih =>
    rcases filling_after here e with stays | ⟨-, phase, stepped, stands⟩
    · exact ih stays
    · have same : .panicked = phase := congrArg Prod.snd stepped
      exact ih (same ▸ stands)

/-- A fill that is at its tags and has ended later has added its key to each of them, up to one that was
refused. -/
theorem joined_of_done (step : ∀ v e, holds v → calm v e → holds (v.after e))
    (keeps : ∀ v e tag, holds v → calm v e → listed v tag → listed (v.after e) tag)
    (joins : ∀ v tag, holds v → calm v (.step n) →
      v.cache.store.Joins (v.after (.step n)).cache.store v.clock tag f.key (v.clock + f.tagTtl) → listed (v.after (.step n)) tag)
    (first : holds w) (along : ∀ mid e, mid ++ [e] <+: events → calm (w.run mid) e) {rest : List String}
    (here : w.actors[n]? = some (.filling f (.tag rest) begun))
    (ended : (w.run events).actors[n]? = some (.filling f .done begun)) :
    ∃ joined missed, rest = joined ++ missed ∧ (∀ tag ∈ joined, listed (w.run events) tag) ∧
      ∀ tag, missed.head? = some tag → ∃ mid, mid ++ [.step n] <+: events ∧ holds (w.run mid) ∧
        f.Refused (w.run mid).clock (w.run mid).cache tag := by
  induction events generalizing w rest with
  | nil => cases here.symm.trans ended
  | cons e events ih =>
    have now := along [] e ⟨events, rfl⟩
    have next := step w e first now
    have onward := calm_onward calm along
    rcases filling_after here e with stays | ⟨rfl, phase, stepped, stands⟩
    · obtain ⟨joined, missed, split, all, refused⟩ := ih next onward stays ended
      refine ⟨joined, missed, split, all, ?_⟩
      intro tag first_missed
      obtain ⟨mid, within, held, refusal⟩ := refused tag first_missed
      exact ⟨e :: mid, List.prefix_cons_inj e |>.mpr within, held, refusal⟩
    · cases rest with
      | nil => exact ⟨[], [], rfl, nofun, nofun⟩
      | cons t ts =>
        rcases Fill.step_tag stepped with ⟨rfl, added⟩ | ⟨-, -, refusal⟩ | ⟨rfl, -⟩
        · obtain ⟨joined, missed, rfl, all, refused⟩ := ih next onward stands ended
          refine ⟨t :: joined, missed, rfl, ?_, ?_⟩
          · intro tag mem
            rcases List.mem_cons.mp mem with rfl | mem
            · have kept := run_holds (fun v => holds v ∧ listed v tag) calm
                (fun v e h calm => ⟨step v e h.1 calm, keeps v e tag h.1 calm h.2⟩)
                ⟨next, joins w tag first now added⟩ onward
              exact kept.2
            · exact all tag mem
          · intro tag first_missed
            obtain ⟨mid, within, held, refusal⟩ := refused tag first_missed
            exact ⟨.step n :: mid, List.prefix_cons_inj _ |>.mpr within, held, refusal⟩
        · refine ⟨[], t :: ts, rfl, nofun, ?_⟩
          rintro tag ⟨⟩
          exact ⟨[], ⟨events, rfl⟩, first, refusal⟩
        · cases (panicked_run stands).symm.trans ended

end run

/-- No tag that is kept is out of time. -/
def Lasting (w : CacheWorld ε α) : Prop :=
  ∀ tag t, w.cache.store.tags.get? tag = some t → w.clock < t.expires

theorem lasting_of_take
    (h : ∀ k < events.length + 1, (w.run (events.take k)).cache.store.tags.all
      (fun e => (w.run (events.take k)).clock < e.2.expires) = true) :
    ∀ mid, mid <+: events → (w.run mid).Lasting := by
  intro mid within tag t found
  obtain ⟨e, listed, rfl⟩ := Option.map_eq_some_iff.mp found
  have all := h mid.length (Nat.lt_succ_of_le within.length_le)
  rw [← List.prefix_iff_eq_take.mp within] at all
  exact of_decide_eq_true (List.all_eq_true.mp all e (List.mem_of_find?_eq_some listed))

/-- A fill among many reads has stored its value, and has ended some time later. -/
structure Filled (c : CacheAside α) (before after : List (CacheEvent ε α)) (n : Nat) (f : Fill α)
    (v w : CacheWorld ε α) : Prop where
  reads : ∀ e ∈ before ++ after, e.isInvalidate = false
  reached : v = (begin c).run before
  later : w = (v.after (.step n)).run after
  sets : ∃ bytes begun, v.actors[n]? = some (.filling f (.set bytes) begun) ∧
    (v.after (.step n)).actors[n]? = some (.filling f (.tag f.tags) begun) ∧
      w.actors[n]? = some (.filling f .done begun)

theorem fullKey_of_filled (c : CacheAside α) (before after : List (CacheEvent ε α)) (n : Nat) :
    ((((begin c).run before).after (.step n)).run after).cache.fullKey = c.fullKey := by
  rw [run_fullKey]
  exact (run_fullKey _ [.step n]).trans (run_fullKey (begin c) before)

theorem member_after (reads : w.OnlyReads) (lasting : (w.after e).Lasting) {tag key : String}
    (member : key ∈ w.cache.store.members w.clock tag) :
    key ∈ (w.after e).cache.store.members (w.after e).clock tag := by
  obtain ⟨t, found, -, listed⟩ := MemoryStore.mem_members.mp member
  rcases reads.entry_after e found with same | ⟨m, g, ts, begun, held, expires, -, -, entry, -, keeps⟩
  · exact MemoryStore.mem_members.mpr ⟨t, same, lasting tag t same, listed⟩
  · exact MemoryStore.mem_members.mpr ⟨_, entry, lasting tag _ entry, keeps key member⟩

theorem member_of_joins (lasting : w.Lasting) {tag key : String} {expires : Nat}
    (joins : v.cache.store.Joins w.cache.store v.clock tag key expires) :
    key ∈ w.cache.store.members w.clock tag :=
  MemoryStore.mem_members.mpr
    ⟨_, joins.get?_own, lasting tag _ joins.get?_own, MemoryStore.mem_joined.mpr (.inr rfl)⟩

theorem onlyReads_run (first : w.OnlyReads) (reads : ∀ e ∈ events, e.isInvalidate = false) :
    (w.run events).OnlyReads :=
  run_holds_of_all OnlyReads (fun _ _ h calm => h.after calm) first reads

/-- A fill that ends without being refused is a member of all its tags. However reads and fills take their steps
and whichever calls of the store fail: where a fill has stored its value and has ended, and no tag has gone out of
time since, its key is a member of each of its tags up to the first for which the store has refused it, and a
tag's invalidation that succeeds removes the values of its members. -/
theorem members_until_refused (c : CacheAside α) (before after : List (CacheEvent ε α)) (n : Nat) (f : Fill α)
    (v w : CacheWorld ε α) (filled : Filled c before after n f v w)
    (lasting : ∀ mid, mid <+: after → ((v.after (.step n)).run mid).Lasting) :
    ∃ joined missed, f.tags = joined ++ missed ∧
      (∀ tag ∈ joined, f.key ∈ w.cache.store.members w.clock tag) ∧
      (∀ tag, missed.head? = some tag → ∃ mid, mid ++ [.step n] <+: after ∧
        f.Refused ((v.after (.step n)).run mid).clock ((v.after (.step n)).run mid).cache tag) ∧
      ∀ tag r d, c.fullKey tag ∈ joined → (Invalidation.tag tag).run w.clock w.cache = (.ok r, d) →
        d.store.values.get? f.key = none := by
  obtain ⟨reads, rfl, rfl, bytes, begun, -, stored, ended⟩ := filled
  have onlyReads : ((begin c).run before).OnlyReads :=
    onlyReads_run (onlyReads_begin c) fun e he => reads e (List.mem_append_left _ he)
  let next := ((begin c).run before).after (.step n)
  have along : ∀ mid e, mid ++ [e] <+: after →
      e.isInvalidate = false ∧ ((next.run mid).after e).Lasting := by
    intro mid e within
    refine ⟨reads e (List.mem_append_right _ (within.subset (by simp))), ?_⟩
    have last := lasting (mid ++ [e]) within
    rwa [run, List.foldl_append] at last
  have name : (next.run after).cache.fullKey = c.fullKey := fullKey_of_filled c before after n
  obtain ⟨joined, missed, split, all, refused⟩ := joined_of_done OnlyReads
    (fun v tag => f.key ∈ v.cache.store.members v.clock tag)
    (fun v e => e.isInvalidate = false ∧ (v.after e).Lasting) (fun v e h calm => h.after calm.1)
    (fun v e tag h calm => member_after h calm.2) (fun v tag h calm => member_of_joins calm.2)
    (onlyReads.after rfl) along stored ended
  refine ⟨joined, missed, split, all, ?_, ?_⟩
  · intro tag first
    obtain ⟨mid, within, -, refusal⟩ := refused tag first
    exact ⟨mid, within, refusal⟩
  · intro tag r d mem done
    refine Invalidation.run_tag_ok done ?_
    rw [name]
    exact all _ mem

/-- A cache that keeps tags for so many milliseconds. -/
def shelf (tagTtl : Nat) : CacheAside Bytes := .empty "app" tagTtl

/-- A task reads a value from its home and leaves a fill, which takes so many steps. -/
def readAndFill (n : Nat) (key : String) (ttl : Nat) (tags : List String) (fillSteps : Nat) :
    List (CacheEvent Unit Bytes) :=
  [.read ⟨key, ttl, ⟨.ok, .ok⟩, fun _ => tags, fun _ => true⟩, .step n, .step n, .step n, .step n,
    .answer n (.ok [7])] ++ List.replicate fillSteps (.step (n + 1))

def taggedFill (key : String) (ttl : Nat) (tags : List String) (tagTtl : Nat) : Fill Bytes :=
  ⟨key, [7], ⟨.ok, .ok⟩, ttl, tags, max tagTtl ttl, 0⟩

/-- A fill has given the first of two tags and is refused the second. -/
theorem members_until_refused_second :
    let v := (begin (shelf 9)).run (readAndFill 0 "todo:1" 5 ["red", "blue"] 2)
    let w := (v.after (.step 1)).run [.step 1, .fault .addToTag 1, .step 1]
    ∃ joined missed, ["app:red", "app:blue"] = joined ++ missed ∧
      ∀ tag ∈ joined, "app:todo:1" ∈ w.cache.store.members w.clock tag := by
  intro v w
  have filled : Filled (shelf 9) _ _ 1 (taggedFill "app:todo:1" 5 ["app:red", "app:blue"] 9) v w :=
    ⟨by decide, rfl, rfl, [7], 4, rfl, rfl, rfl⟩
  have lasting : ∀ mid, mid <+: [.step 1, .fault .addToTag 1, .step 1] →
      ((v.after (.step 1)).run mid).Lasting := lasting_of_take (by decide +kernel)
  obtain ⟨joined, missed, split, all, -⟩ := members_until_refused (shelf 9) _ _ 1 _ v w filled lasting
  exact ⟨joined, missed, split, all⟩

/-- The call that would add a key to its only tag is refused. -/
def refusedTag : List (CacheEvent Unit Bytes) :=
  readAndFill 0 "todo:1" 5 ["red"] 3 ++ [.fault .addToTag 1, .step 1]

/-- It is not so that a fill which has ended and has left its value is a member of all its tags: a call that is
refused keeps the fill from the tags that are left, and the value stays. -/
theorem untagged_after_refusal :
    ¬ ∀ (root : String) (tagTtl : Nat) (events : List (CacheEvent Unit Bytes)) (n begun : Nat) (f : Fill Bytes)
      (x : Expiring Bytes), (∀ e ∈ events, e.onlyFills = true) →
      (∀ mid, mid <+: events → ((begin (.empty root tagTtl)).run mid).Lasting) →
      ((begin (.empty root tagTtl)).run events).actors[n]? = some (.filling f .done begun) →
      ((begin (.empty root tagTtl)).run events).cache.store.values.get? f.key = some x →
      f.codec.encode f.value = .ok x.content → ((begin (.empty root tagTtl)).run events).clock < x.expires →
      ∀ tag ∈ f.tags, f.key ∈ ((begin (.empty root tagTtl)).run events).cache.store.members
        ((begin (.empty root tagTtl)).run events).clock tag := by
  intro claim
  have ended : ((begin (shelf 9)).run refusedTag).actors[1]? =
      some (.filling (taggedFill "app:todo:1" 5 ["app:red"] 9) .done 4) := rfl
  have left : ((begin (shelf 9)).run refusedTag).cache.store.values.get? "app:todo:1" = some ⟨[7], 5⟩ := rfl
  have member := claim "app" 9 refusedTag 1 4 _ ⟨[7], 5⟩ (by decide) (lasting_of_take (by decide +kernel)) ended left
    rfl (by decide +kernel) "app:red" (by decide)
  revert member
  decide +kernel

/-- A tag names a key, and is kept until some time at least. -/
def ListsUntil (w : CacheWorld ε α) (till : Nat) (key tag : String) : Prop :=
  ∃ t, w.cache.store.tags.get? tag = some t ∧ till ≤ t.expires ∧ key ∈ t.content

theorem ListsUntil.member {till : Nat} {key tag : String} (lists : w.ListsUntil till key tag)
    (early : w.clock < till) : key ∈ w.cache.store.members w.clock tag := by
  obtain ⟨t, found, lives, listed⟩ := lists
  exact MemoryStore.mem_members.mpr ⟨t, found, Nat.lt_of_lt_of_le early lives, listed⟩

/-- A fill is about to add its key to a tag, and to end the time of the tag before another. -/
def Cuts (w : CacheWorld ε α) (m : Nat) (tag : String) (till : Nat) : Prop :=
  ∃ g ts begun, w.actors[m]? = some (.filling g (.tag (tag :: ts)) begun) ∧ w.clock + g.tagTtl < till

/-- Reads and fills on a store that works, where tags live as long as values and as the cache says. -/
structure Timed (c : CacheAside α) (w : CacheWorld ε α) : Prop where
  reads : w.OnlyReads
  healthy : w.cache.store.Healthy
  tagTtl : w.cache.tagTtl = c.tagTtl
  fills : ∀ g phase begun, .filling g phase begun ∈ w.actors → g.tagTtl = max c.tagTtl g.ttl

theorem Timed.after {c : CacheAside α} (h : w.Timed c) (reads : e.isInvalidate = false) (calm : e.isFault = false) :
    (w.after e).Timed c := by
  obtain ⟨healthy, tagTtl⟩ := h.reads.healthy_after h.healthy calm
  refine ⟨h.reads.after reads, healthy, tagTtl.trans h.tagTtl, ?_⟩
  intro g phase begun mem
  rcases mem_after mem with old | arises
  · exact h.fills g phase begun old
  · cases arises with
    | steps mem stepped =>
      obtain ⟨phase, rfl, -⟩ := CacheActor.step_filling stepped
      exact h.fills _ _ _ mem
    | @fills r _ _ _ mem value => exact congrArg (max · r.ttl) h.tagTtl

theorem timed_run {c : CacheAside α} (first : w.Timed c)
    (quiet : ∀ e ∈ events, e.isInvalidate = false ∧ e.isFault = false) : (w.run events).Timed c :=
  run_holds_of_all (Timed c) (fun _ _ h quiet => h.after quiet.1 quiet.2) first quiet

/-- A cache that keeps tags long enough cuts none of them short. -/
theorem Timed.not_cuts {c : CacheAside α} (h : w.Timed c) {since ttl m : Nat} (long : ttl ≤ c.tagTtl)
    (later : since ≤ w.clock) (tag : String) : ¬ w.Cuts m tag (since + ttl) := by
  rintro ⟨g, ts, begun, stands, short⟩
  have lives := h.fills g _ _ (List.mem_of_getElem? stands)
  omega

theorem listsUntil_after (reads : w.OnlyReads) {till : Nat} {key tag : String} (early : w.clock < till)
    (uncut : ∀ m, e = .step m → ¬ w.Cuts m tag till) (lists : w.ListsUntil till key tag) :
    (w.after e).ListsUntil till key tag := by
  have known := lists.member early
  obtain ⟨t, found, lives, listed⟩ := lists
  rcases reads.entry_after e found with same | ⟨m, g, ts, begun, held, expires, asked, stands, entry, time, keeps⟩
  · exact ⟨t, same, lives, listed⟩
  · refine ⟨_, entry, ?_, keeps key known⟩
    rcases time with rfl | rfl
    · exact Nat.le_of_not_lt fun short => uncut m asked ⟨g, ts, begun, stands, short⟩
    · exact lives

theorem listsUntil_of_joins {till expires : Nat} {key tag : String} (lives : till ≤ expires)
    (joins : v.cache.store.Joins w.cache.store v.clock tag key expires) : w.ListsUntil till key tag :=
  ⟨_, joins.get?_own, lives, MemoryStore.mem_joined.mpr (.inr rfl)⟩

theorem listsUntil_of_done {c : CacheAside α} (first : w.Timed c)
    (quiet : ∀ e ∈ events, e.isInvalidate = false ∧ e.isFault = false) {till : Nat} {tag : String}
    {rest : List String} (here : w.actors[n]? = some (.filling f (.tag rest) begun))
    (ended : (w.run events).actors[n]? = some (.filling f .done begun)) (lives : till ≤ w.clock + f.tagTtl)
    (early : (w.run events).clock < till)
    (uncut : ∀ mid m, mid ++ [.step m] <+: events → ¬ (w.run mid).Cuts m tag till) (tagged : tag ∈ rest) :
    (w.run events).ListsUntil till f.key tag := by
  let calm (v : CacheWorld ε α) (e : CacheEvent ε α) : Prop := (e.isInvalidate = false ∧ e.isFault = false) ∧
    v.clock < till ∧ ∀ m, e = .step m → ¬ v.Cuts m tag till
  have along : ∀ mid e, mid ++ [e] <+: events → calm (w.run mid) e := by
    intro mid e within
    refine ⟨quiet e (within.subset (by simp)), ?_, ?_⟩
    · exact Nat.lt_of_le_of_lt (w.clock_le_of_prefix ((List.prefix_append mid [e]).trans within)) early
    · rintro m rfl
      exact uncut mid m within
  have step : ∀ v e, v.Timed c ∧ w.clock ≤ v.clock → calm v e → (v.after e).Timed c ∧ w.clock ≤ (v.after e).clock :=
    fun v e h calm => ⟨h.1.after calm.1.1 calm.1.2, Nat.le_trans h.2 (v.clock_le_after e)⟩
  have keeps : ∀ v e t, v.Timed c ∧ w.clock ≤ v.clock → calm v e → (t = tag → v.ListsUntil till f.key t) →
      t = tag → (v.after e).ListsUntil till f.key t := by
    rintro v e t h calm lists rfl
    exact listsUntil_after h.1.reads calm.2.1 calm.2.2 (lists rfl)
  obtain ⟨joined, missed, split, all, refused⟩ := joined_of_done (fun v => v.Timed c ∧ w.clock ≤ v.clock)
    (fun v t => t = tag → v.ListsUntil till f.key t) calm step keeps
    (fun v t h _ joins _ => listsUntil_of_joins (Nat.le_trans lives (Nat.add_le_add_right h.2 _)) joins)
    ⟨first, Nat.le_refl _⟩ along here ended
  have whole : missed = [] := by
    rcases missed with _ | ⟨t, missed⟩
    · rfl
    · obtain ⟨mid, -, held, refusal⟩ := refused t rfl
      exact absurd refusal (Fill.not_refused held.1.healthy t)
  rw [whole, List.append_nil] at split
  exact all tag (split ▸ tagged) rfl

/-- A tag outlives its members where none that come later cut its time. Where a fill has stored its value in a
store that works and has ended, and the time of the value is not over: each tag of the fill is kept as long as
the value and names it, and the tag's invalidation removes the value, if the cache keeps tags as long as the fill
keeps its value, or if no fill that has added its key to the tag since has ended the tag's time before the
value's. -/
theorem tags_outlive_values (c : CacheAside α) (before after : List (CacheEvent ε α)) (n : Nat) (f : Fill α)
    (v w : CacheWorld ε α) (filled : Filled c before after n f v w) (healthy : c.store.Healthy)
    (calm : ∀ e ∈ before ++ after, e.isFault = false) (readable : w.clock < v.clock + f.ttl) (tag : String)
    (tagged : c.fullKey tag ∈ f.tags)
    (uncut : f.ttl ≤ c.tagTtl ∨ ∀ mid m, mid ++ [.step m] <+: after →
      ¬ ((v.after (.step n)).run mid).Cuts m (c.fullKey tag) (v.clock + f.ttl)) :
    w.ListsUntil (v.clock + f.ttl) f.key (c.fullKey tag) ∧
      ∃ d, (Invalidation.tag tag).run w.clock w.cache = (.ok none, d) ∧ d.store.values.get? f.key = none := by
  obtain ⟨reads, rfl, rfl, bytes, begun, sets, stored, ended⟩ := filled
  let start := (begin c).run before
  let next := start.after (.step n)
  have quiet : ∀ e ∈ before ++ after, e.isInvalidate = false ∧ e.isFault = false :=
    fun e he => ⟨reads e he, calm e he⟩
  have began : start.Timed c := by
    refine timed_run ⟨onlyReads_begin c, healthy, rfl, nofun⟩ ?_
    exact fun e he => quiet e (List.mem_append_left _ he)
  have timed {mid : List (CacheEvent ε α)} (within : mid <+: after) : (next.run mid).Timed c := by
    refine timed_run (began.after rfl rfl) ?_
    exact fun e he => quiet e (List.mem_append_right _ (within.subset he))
  have onward : start.clock ≤ next.clock := start.clock_le_after (.step n)
  have tagTtl := began.fills f _ _ (List.mem_of_getElem? sets)
  have lives : start.clock + f.ttl ≤ next.clock + f.tagTtl := by omega
  have none_cuts : ∀ mid m, mid ++ [.step m] <+: after →
      ¬ (next.run mid).Cuts m (c.fullKey tag) (start.clock + f.ttl) := by
    intro mid m within
    rcases uncut with long | none_cuts
    · have kept := (List.prefix_append mid [_]).trans within
      exact (timed kept).not_cuts long (Nat.le_trans onward (next.clock_le_run mid)) _
    · exact none_cuts mid m within
  have lists := listsUntil_of_done (began.after rfl rfl) (fun e he => quiet e (List.mem_append_right _ he)) stored
    ended lives readable none_cuts tagged
  have ends := timed (List.prefix_refl after)
  have name : (next.run after).cache.fullKey tag = c.fullKey tag := congrFun (fullKey_of_filled c before after n) tag
  refine ⟨lists, _, Invalidation.run_tag ends.healthy tag, ?_⟩
  rw [MemoryStore.values_foldl_remove, name, if_pos]
  exact List.mem_append_left _ (lists.member readable)

/-- A fill with a shorter time comes later, and the cache keeps tags longer than either. -/
theorem tags_outlive_values_longer_tags :
    let v := (begin (shelf 9)).run (readAndFill 0 "todo:1" 5 ["red"] 2)
    let w := (v.after (.step 1)).run ([.step 1, .step 1] ++ readAndFill 2 "todo:2" 1 ["red"] 4 ++ [.wait 3])
    w.ListsUntil 5 "app:todo:1" "app:red" ∧
      ∃ d, (Invalidation.tag "red").run w.clock w.cache = (.ok none, d) ∧
        d.store.values.get? "app:todo:1" = none := by
  intro v w
  have ended : ((((begin (shelf 9)).run (readAndFill 0 "todo:1" 5 ["red"] 2)).after (.step 1)).run
      ([.step 1, .step 1] ++ readAndFill 2 "todo:2" 1 ["red"] 4 ++ [.wait 3])).actors[1]? =
        some (.filling (taggedFill "app:todo:1" 5 ["app:red"] 9) .done 4) := rfl
  have filled : Filled (shelf 9) _ _ 1 (taggedFill "app:todo:1" 5 ["app:red"] 9) v w :=
    ⟨by decide, rfl, rfl, [7], 4, rfl, rfl, ended⟩
  exact tags_outlive_values (shelf 9) _ _ 1 _ v w filled ⟨rfl, rfl⟩ (by decide) (by decide +kernel) "red" (by decide)
    (.inl (by decide))

/-- A second fill comes to the tag of the first, with a shorter time. -/
def shorterFill : List (CacheEvent Unit Bytes) :=
  readAndFill 0 "todo:1" 5 ["red"] 5 ++ readAndFill 2 "todo:2" 1 ["red"] 5 ++ [.wait 1]

/-- It is not so that a tag outlives its members: a later fill with a shorter time cuts the tag's. -/
theorem tag_cut_by_shorter_fill :
    ¬ ∀ (root : String) (tagTtl : Nat) (events : List (CacheEvent Unit Bytes)) (n begun : Nat) (f : Fill Bytes)
      (x : Expiring Bytes), (∀ e ∈ events, e.isInvalidate = false ∧ e.isFault = false) →
      ((begin (.empty root tagTtl)).run events).actors[n]? = some (.filling f .done begun) →
      ((begin (.empty root tagTtl)).run events).cache.store.values.get? f.key = some x →
      f.codec.encode f.value = .ok x.content → ((begin (.empty root tagTtl)).run events).clock < x.expires →
      ∀ tag ∈ f.tags, f.key ∈ ((begin (.empty root tagTtl)).run events).cache.store.members
        ((begin (.empty root tagTtl)).run events).clock tag := by
  intro claim
  have ended : ((begin (shelf 0)).run shorterFill).actors[1]? =
      some (.filling (taggedFill "app:todo:1" 5 ["app:red"] 0) .done 4) := rfl
  have left : ((begin (shelf 0)).run shorterFill).cache.store.values.get? "app:todo:1" = some ⟨[7], 5⟩ := rfl
  have member := claim "app" 0 shorterFill 1 4 _ ⟨[7], 5⟩ (by decide) ended left rfl (by decide +kernel) "app:red"
    (by decide)
  revert member
  decide +kernel

end Workboard.CacheWorld
