import Workboard.Outbox.Session
import Workboard.Proofs.Outbox.Order

/-!
A row is held by at most one transaction. The outbox knows as taken just the rows that open transactions hold,
and each way in which a transaction ends gives back its own rows and no others.
-/

namespace Workboard.OutboxSession

variable {s t : OutboxSession} {name other : String} {tx : Transaction String} {id : Uuid}

theorem get?_close (s : OutboxSession) (name other : String) :
    (s.close name).get? other = if other = name then none else s.get? other := by
  simp only [get?, close, List.find?_filter]
  split
  next same =>
    subst same
    simp
  next apart =>
    congr 2
    funext e
    by_cases own : e.1 = other <;> simp [own, apart]

theorem get?_put :
    (s.put name tx).get? other = if other = name then some tx else s.get? other := by
  have rest := s.get?_close name other
  simp only [get?] at rest ⊢
  by_cases same : other = name
  · simp [put, same]
  · have first : ¬ name = other := fun h => same h.symm
    simpa [put, same, first] using rest

theorem held_of_get? (h : s.get? name = some tx) : s.Held name id ↔ id ∈ tx.claimed := by
  simp [Held, h]

theorem held_put : (s.put name tx).Held other id ↔
    if other = name then id ∈ tx.claimed else s.Held other id := by
  by_cases same : other = name <;> simp [Held, get?_put, same]

/-- A transaction takes rows that no one else holds. -/
structure Takes (s t : OutboxSession) (name : String) (ids : List Uuid) : Prop where
  free : ∀ id ∈ ids, id ∉ s.store.claimed
  claimed : ∀ id, id ∈ t.store.claimed ↔ id ∈ s.store.claimed ∨ id ∈ ids
  held : ∀ other id, t.Held other id ↔ s.Held other id ∨ other = name ∧ id ∈ ids

/-- A transaction gives back the rows that it holds, and the others stay as they are. -/
structure Releases (s t : OutboxSession) (name : String) : Prop where
  claimed : ∀ id, id ∈ t.store.claimed ↔ id ∈ s.store.claimed ∧ ¬ s.Held name id
  gone : ∀ id, ¬ t.Held name id
  others : ∀ other, other ≠ name → t.get? other = s.get? other

theorem Releases.held (h : s.Releases t name) :
    t.Held other id ↔ s.Held other id ∧ other ≠ name := by
  by_cases same : other = name
  · subst same
    simp [h.gone]
  · simp [Held, h.others other same, same]

theorem takes_nothing {name : String} (hc : t.store.claimed = s.store.claimed)
    (hh : ∀ other id, t.Held other id ↔ s.Held other id) : s.Takes t name [] :=
  ⟨by simp, by simp [hc], by simp [hh]⟩

theorem takes_put {ux : Transaction String} (open_ : s.get? name = some tx)
    (same : ux.claimed = tx.claimed) : s.Takes (s.put name ux) name [] := by
  refine takes_nothing rfl ?_
  intro other id
  rw [held_put, same]
  split
  next own => rw [own, held_of_get? open_]
  next => rfl

theorem takes_fetch (open_ : s.get? name = some tx) (limit : Nat) :
    s.Takes ({ s with store := (s.store.fetchPending tx limit).2.1 }.put name
      (s.store.fetchPending tx limit).2.2) name ((s.store.fetchPending tx limit).1.map (·.id)) := by
  constructor
  · intro id hid
    obtain ⟨r, hr, rfl⟩ := List.mem_map.mp hid
    exact (OutboxStore.mem_available.mp (List.mem_of_mem_take hr)).2.2
  · intro id
    exact OutboxStore.mem_foldl_claim
  · intro other id
    rw [held_put]
    split
    next own =>
      subst own
      rw [held_of_get? open_]
      simp [OutboxStore.fetchPending]
    next apart =>
      simp only [apart, false_and, or_false]
      rfl

theorem releases_close {store : OutboxStore} {labels : List String}
    (open_ : s.get? name = some tx) (given : store.claimed = (s.store.rollback tx).claimed) :
    s.Releases { s.close name with store := store, staged := labels } name := by
  constructor
  · intro id
    rw [held_of_get? open_, given]
    simp [OutboxStore.rollback]
  · rintro id ⟨ux, hu, -⟩
    have shut := s.get?_close name name
    rw [if_pos rfl] at shut
    cases shut.symm.trans hu
  · intro other apart
    have kept := s.get?_close name other
    rwa [if_neg apart] at kept

theorem releases_drop (open_ : s.get? name = some tx) : s.Releases (s.drop name) name := by
  rw [drop, open_]
  exact releases_close open_ rfl

theorem releases_commit (open_ : s.get? name = some tx) (now : Instant) :
    s.Releases (s.within name tx now .commit).2 name := by
  have given := s.store.commit_claimed tx
  simp only [within]
  rcases hc : s.store.commit tx with ⟨e | staged, store⟩
  all_goals
    rw [hc] at given
    exact releases_close open_ given

theorem takes_keep (open_ : s.get? name = some tx) {r : Except OutboxError (Transaction String)}
    (same : ∀ ux, r = .ok ux → ux.claimed = tx.claimed) : s.Takes (s.keep name r).2 name [] := by
  cases r with
  | ok ux => exact takes_put open_ (same ux rfl)
  | error e => exact takes_nothing rfl fun _ _ => Iff.rfl

/-- A step of a transaction that does not end it takes rows that are free, if it is a fetch, and none
otherwise. -/
theorem takes_within (open_ : s.get? name = some tx) (now : Instant) (step : TransactionStep)
    (stays : step.ends = false) : ∃ ids, s.Takes (s.within name tx now step).2 name ids := by
  cases step with
  | fetch limit => exact ⟨_, takes_fetch open_ limit⟩
  | append records => exact ⟨[], takes_put open_ rfl⟩
  | stage label => exact ⟨[], takes_put open_ rfl⟩
  | markProcessed row | markFailed row error =>
    refine ⟨[], takes_keep open_ ?_⟩
    intro ux hu
    unfold OutboxStore.mark at hu
    split at hu <;> cases hu
    rfl
  | appended => exact ⟨[], takes_nothing rfl fun _ _ => Iff.rfl⟩
  | commit => cases stays
  | rollback => cases stays
  | drop => cases stays

theorem takes_begin (free : s.get? name = none) :
    s.Takes ((s.drop name).put name .empty) name [] := by
  rw [drop, free]
  refine takes_nothing rfl ?_
  intro other id
  rw [held_put]
  split
  next own => simp [own, Held, free, Transaction.empty]
  next => rfl

theorem releases_begin (open_ : s.get? name = some tx) :
    s.Releases ((s.drop name).put name .empty) name := by
  have gives := releases_drop open_
  refine ⟨gives.claimed, ?_, ?_⟩
  · simp [held_put, Transaction.empty]
  · intro other apart
    rw [get?_put, if_neg apart]
    exact gives.others other apart

theorem releases_step (open_ : s.get? name = some tx) (now : Instant) {step : SessionStep}
    (ends : step.ends name = true) : s.Releases (s.step now step).2 name := by
  cases step with
  | begin other =>
    obtain rfl : other = name := by simpa [SessionStep.ends] using ends
    exact releases_begin open_
  | within other step =>
    obtain ⟨rfl, last⟩ : other = name ∧ step.ends = true := by simpa [SessionStep.ends] using ends
    simp only [OutboxSession.step, open_]
    cases step with
    | commit => exact releases_commit open_ now
    | rollback => exact releases_drop open_
    | drop => exact releases_drop open_
    | _ => cases last
  | _ => cases ends

theorem step_cases (s : OutboxSession) (now : Instant) (step : SessionStep) :
    (∃ name ids, s.Takes (s.step now step).2 name ids) ∨
      ∃ name, s.Releases (s.step now step).2 name := by
  cases step with
  | begin name =>
    rcases open_ : s.get? name with _ | tx
    · exact .inl ⟨name, [], takes_begin open_⟩
    · exact .inr ⟨name, releases_begin open_⟩
  | within name step =>
    rcases open_ : s.get? name with _ | tx
    · refine .inl ⟨name, [], ?_⟩
      simp only [OutboxSession.step, open_]
      exact takes_nothing rfl fun _ _ => Iff.rfl
    · by_cases last : step.ends = true
      · refine .inr ⟨name, releases_step open_ now ?_⟩
        simp [SessionStep.ends, last]
      · obtain ⟨ids, takes⟩ := takes_within open_ now step (by simpa using last)
        refine .inl ⟨name, ids, ?_⟩
        simpa only [OutboxSession.step, open_] using takes
  | _ => exact .inl ⟨"", [], takes_nothing rfl fun _ _ => Iff.rfl⟩

/-- The outbox knows as taken what open transactions hold, and no two of them hold the same row. -/
structure Exclusive (s : OutboxSession) : Prop where
  union : ∀ id, id ∈ s.store.claimed ↔ ∃ name, s.Held name id
  apart : ∀ name other id, s.Held name id → s.Held other id → name = other

theorem exclusive_empty : OutboxSession.empty.Exclusive := by
  constructor <;> simp [Held, get?, OutboxSession.empty, OutboxStore.empty]

theorem Exclusive.takes {ids : List Uuid} (h : s.Exclusive) (takes : s.Takes t name ids) :
    t.Exclusive := by
  -- whoever holds one of the rows that are taken now is the one who takes them
  have new {one : String} {id : Uuid} (hid : id ∈ ids) (held : t.Held one id) : one = name := by
    rcases (takes.held one id).mp held with old | now
    · exact absurd ((h.union id).mpr ⟨one, old⟩) (takes.free id hid)
    · exact now.1
  constructor
  · intro id
    simp only [takes.claimed, h.union, takes.held, exists_or, exists_eq_left]
  · intro one two id hone htwo
    by_cases hid : id ∈ ids
    · rw [new hid hone, new hid htwo]
    · have old {one : String} (held : t.Held one id) : s.Held one id :=
        ((takes.held one id).mp held).resolve_right fun now => hid now.2
      exact h.apart one two id (old hone) (old htwo)

theorem Exclusive.releases (h : s.Exclusive) (gives : s.Releases t name) : t.Exclusive := by
  constructor
  · intro id
    simp only [gives.claimed, h.union, gives.held]
    constructor
    · rintro ⟨⟨other, held⟩, free⟩
      refine ⟨other, held, ?_⟩
      rintro rfl
      exact free held
    · rintro ⟨other, held, apart⟩
      exact ⟨⟨other, held⟩, fun own => apart (h.apart other name id held own)⟩
  · intro one two id hone htwo
    exact h.apart one two id (gives.held.mp hone).1 (gives.held.mp htwo).1

theorem Exclusive.run (h : s.Exclusive) (history : List (Instant × SessionStep)) :
    (s.run history).Exclusive := by
  induction history generalizing s with
  | nil => exact h
  | cons e history ih =>
    apply ih
    rcases s.step_cases e.1 e.2 with ⟨name, ids, takes⟩ | ⟨name, gives⟩
    · exact h.takes takes
    · exact h.releases gives

/-- The rows that wait and that no one holds, in the order in which they are due. -/
structure Queue (s : OutboxSession) (rows : List OutboxRecord) : Prop where
  free : ∀ r, r ∈ rows ↔
    r ∈ s.store.records ∧ r.processedAt = none ∧ ∀ name, ¬ s.Held name r.id
  once : rows.Nodup
  ordered : rows.Pairwise (Precedes s.store.records)

theorem Exclusive.queue (h : s.Exclusive) (distinct : (s.store.records.map (·.id)).Nodup) :
    s.Queue s.store.available := by
  refine ⟨?_, OutboxStore.nodup_available distinct, OutboxStore.available_ordered distinct⟩
  intro r
  rw [OutboxStore.mem_available, h.union, not_exists, OutboxRecord.isPending, Option.isNone_iff_eq_none]

/-- Claims are exclusive. However the steps of any number of transactions come one after another: the rows
that are taken are those that open transactions hold, each by one of them; a fetch takes the head of the
rows that wait and are held by no one; and whichever way a transaction ends, its own rows are free again and
those of others are not. -/
theorem claims_exclusive (history : List (Instant × SessionStep)) (s : OutboxSession)
    (reached : s = OutboxSession.empty.run history) :
    s.Exclusive ∧
      (∀ name tx limit now, s.get? name = some tx → (s.store.records.map (·.id)).Nodup →
        ∃ queue, s.Queue queue ∧ (s.store.fetchPending tx limit).1 = queue.take limit ∧
          (s.step now (.within name (.fetch limit))).1 = .ids ((queue.take limit).map (·.id)) ∧
          s.Takes (s.step now (.within name (.fetch limit))).2 name
            ((queue.take limit).map (·.id))) ∧
      ∀ name tx now step, s.get? name = some tx → step.ends name = true →
        s.Releases (s.step now step).2 name := by
  have exclusive : s.Exclusive := reached ▸ exclusive_empty.run history
  refine ⟨exclusive, ?_, ?_⟩
  · intro name tx limit now open_ distinct
    refine ⟨s.store.available, exclusive.queue distinct, rfl, ?_, ?_⟩
    · simp only [OutboxSession.step, open_]
      rfl
    · simp only [OutboxSession.step, open_]
      exact takes_fetch open_ limit
  · intro name tx now step open_ ends
    exact releases_step open_ now ends

def noon : Instant := ⟨⟨2024, 6, 30, rfl⟩, 12, 0, 0, 0, rfl⟩

def note (id : Nat) : NewRecord := ⟨⟨id⟩, "todo.created", "todo", ⟨7⟩, [], [], noon⟩

/-- Two rows are written; one worker takes the first of them while another has begun. -/
def twoWorkers : List (Instant × SessionStep) :=
  [.begin "writer", .within "writer" (.append [note 1, note 2]), .within "writer" .commit,
    .begin "early", .begin "late", .within "early" (.fetch 1)].map (noon, ·)

def earlyHolds : OutboxSession where
  store := ⟨[.ofNew (note 1), .ofNew (note 2)], [⟨1⟩], false, .none⟩
  opened := [("early", ⟨[], [], [], [⟨1⟩]⟩), ("late", .empty)]
  staged := []

theorem claims_exclusive_two_workers :
    earlyHolds = empty.run twoWorkers ∧ earlyHolds.Exclusive ∧
      (∃ queue, earlyHolds.Queue queue ∧
        (earlyHolds.step noon (.within "late" (.fetch 5))).1 =
          .ids ((queue.take 5).map (·.id))) ∧
      earlyHolds.Releases (earlyHolds.step noon (.within "early" .rollback)).2 "early" := by
  have reached : earlyHolds = empty.run twoWorkers := by
    let waiting : OutboxStore := ⟨[.ofNew (note 1), .ofNew (note 2)], [], false, .none⟩
    have queue : waiting.available = [.ofNew (note 1), .ofNew (note 2)] :=
      OutboxStore.available_of_pairwise (by decide)
    show earlyHolds = (OutboxSession.step ⟨waiting, [("late", .empty), ("early", .empty)], []⟩ noon
      (.within "early" (.fetch 1))).2
    simp only [OutboxSession.step, get?, List.find?, within]
    show earlyHolds = put ⟨(waiting.fetchPending _ 1).2.1, _, []⟩ "early" (waiting.fetchPending _ 1).2.2
    rw [OutboxStore.fetchPending, queue]
    rfl
  obtain ⟨exclusive, fetches, ends⟩ := claims_exclusive twoWorkers earlyHolds reached
  obtain ⟨queue, waits, -, told, -⟩ := fetches "late" .empty 5 noon rfl (by decide)
  refine ⟨reached, exclusive, ⟨queue, waits, told⟩, ?_⟩
  exact ends "early" _ noon (.within "early" .rollback) rfl (by decide)

end Workboard.OutboxSession
