import Mathlib.Data.List.Induction
import Workboard.Proofs.Cache.Whole
import Workboard.Proofs.Service.Transparent

/-!
What a cache can answer with. Whichever calls of its store fail, all that can be read in it was the answer at some
moment to the question under whose key it stands.
-/

namespace Workboard

open CachedTodos

variable {seen seen' : TodoQuestion → CachedTodos → Prop}

namespace TodoCache

/-- Bytes in which whatever can be read was seen to answer the question under whose key they stand, or is what the text
of such an answer names. -/
def Recalls (c : TodoCache) (seen : TodoQuestion → CachedTodos → Prop) (key : String) (bytes : Bytes) : Prop :=
  ∀ (q : TodoQuestion) a, key = c.aside.fullKey q.key → (q.codec c.form).decode bytes = .ok a →
    ∃ v, seen q v ∧ (a = v ∨ a = v.asWritten)

/-- All values in a cache, and all that fills will put there, were seen as answers. -/
structure Remembers (seen : TodoQuestion → CachedTodos → Prop) (fills : List (Fill CachedTodos)) (c : TodoCache) :
    Prop where
  whole : ∀ t, c.form.whole? (c.form.write t) = some t.asWritten
  grounded : c.aside.flights.opened = []
  copies : ∀ key v, c.aside.store.values.get? key = some v → c.Recalls seen key v.content
  fills : ∀ f ∈ fills, ∀ bytes, f.codec.encode f.value = .ok bytes → c.Recalls seen f.key bytes

variable {c : TodoCache} {fills fills' : List (Fill CachedTodos)}

theorem Recalls.mono {key : String} {bytes : Bytes} (h : c.Recalls seen key bytes)
    (more : ∀ q a, seen q a → seen' q a) : c.Recalls seen' key bytes := by
  intro q a own decoded
  obtain ⟨v, known, told⟩ := h q a own decoded
  exact ⟨v, more q v known, told⟩

theorem Recalls.of_root {d : CacheAside CachedTodos} (root : d.root = c.aside.root) {key : String} {bytes : Bytes}
    (h : c.Recalls seen key bytes) : { c with aside := d }.Recalls seen key bytes := by
  intro q a own decoded
  rw [CacheAside.fullKey, root] at own
  exact h q a own decoded

theorem Remembers.mono (h : c.Remembers seen fills) (more : ∀ q a, seen q a → seen' q a) : c.Remembers seen' fills :=
  ⟨h.whole, h.grounded, fun key v found => (h.copies key v found).mono more,
    fun f mem bytes encoded => (h.fills f mem bytes encoded).mono more⟩

/-- The cache later on, when there is nothing in it that was not there. -/
theorem Remembers.later (h : c.Remembers seen fills) {d : CacheAside CachedTodos} (shrinks : c.aside.Shrinks d)
    (grounded : d.flights.opened = [])
    (known : ∀ f ∈ fills', f ∈ fills ∨ ∀ bytes, f.codec.encode f.value = .ok bytes → c.Recalls seen f.key bytes) :
    { c with aside := d }.Remembers seen fills' := by
  refine ⟨h.whole, grounded, ?_, ?_⟩
  · intro key v found
    exact (h.copies key v (shrinks.values key v found)).of_root shrinks.root
  · intro f mem bytes encoded
    rcases known f mem with old | new
    · exact (h.fills f old bytes encoded).of_root shrinks.root
    · exact (new bytes encoded).of_root shrinks.root

theorem Remembers.fill (h : c.Remembers seen fills) {f : Fill CachedTodos} (mem : f ∈ fills) (now later place : Nat) :
    { c with aside := f.runSlowly now later c.aside }.Remembers seen (fills.eraseIdx place) := by
  obtain ⟨root, flights, values⟩ := f.runSlowly_leaves now later c.aside
  refine ⟨h.whole, flights ▸ h.grounded, ?_, ?_⟩
  · intro key v found
    rcases values key v found with old | ⟨rfl, encoded⟩
    · exact (h.copies key v old).of_root root
    · exact (h.fills f mem v.content encoded).of_root root
  · intro g left bytes encoded
    exact (h.fills g (List.mem_of_mem_eraseIdx left) bytes encoded).of_root root

/-- What the fill of an answer will store can be read as that answer only. -/
theorem Remembers.answer (h : c.Remembers seen fills) {q : TodoQuestion} {v : CachedTodos} (known : seen q v)
    (observed : Nat) : ∀ bytes, (q.reading c).codec.encode v = .ok bytes →
      c.Recalls seen ((q.reading c).fill c.aside observed v).key bytes := by
  intro bytes encoded p a own decoded
  obtain rfl : p = q := by
    apply TodoQuestion.key_injective
    have same : p.key = (q.reading c).key := (CacheKey.full_injective own).symm
    cases q <;> exact same
  have written : (p.codec c.form).encode v = .ok bytes := by cases p <;> exact encoded
  rw [TodoQuestion.codec_readsBack h.whole p v bytes written] at decoded
  exact ⟨v, known, .inr (Except.ok.inj decoded).symm⟩

theorem Remembers.lookup (h : c.Remembers seen fills) {q : TodoQuestion} {now : Nat} {v : CachedTodos}
    (found : ((q.reading c).lookup now c.aside).1 = some v) : ∃ u, seen q u ∧ (v = u ∨ v = u.asWritten) := by
  obtain ⟨copy, held, decoded⟩ := Reading.lookup_some found
  have own : c.aside.fullKey (q.reading c).key = c.aside.fullKey q.key := by cases q <;> rfl
  exact h.copies _ copy held q v own (by cases q <;> exact decoded)

end TodoCache

namespace TodoService

variable {s : TodoService} {c : TodoCache}

theorem invalidate_leaves (wall : Nat) (c : CacheAside CachedTodos) (changed : ChangedTodo) :
    c.Shrinks (invalidate wall c changed) ∧ (invalidate wall c changed).flights = c.flights := by
  unfold invalidate
  obtain ⟨first, flights⟩ := (Invalidation.entity (todoKey changed.id) changed.workspaceId.toText).run_leaves wall c
  obtain ⟨second, flights'⟩ := (Invalidation.tag (workspaceTag changed.workspaceId)).run_leaves wall
    ((Invalidation.entity (todoKey changed.id) changed.workspaceId.toText).run wall c).2
  exact ⟨first.trans second, flights'.trans flights⟩

theorem foldl_invalidate_leaves (wall : Nat) (hooks : List ChangedTodo) (c : CacheAside CachedTodos) :
    c.Shrinks (hooks.foldl (invalidate wall) c) ∧ (hooks.foldl (invalidate wall) c).flights = c.flights := by
  induction hooks generalizing c with
  | nil => exact ⟨.rfl, rfl⟩
  | cons changed hooks ih =>
    obtain ⟨first, flights⟩ := invalidate_leaves wall c changed
    obtain ⟨rest, flights'⟩ := ih (invalidate wall c changed)
    rw [List.foldl_cons]
    exact ⟨first.trans rest, flights'.trans flights⟩

theorem read_snd {α : Type} (s : TodoService) (reading : TodoCache → Reading CachedTodos) (wrap : α → CachedTodos)
    (unwrap? : CachedTodos → Option α) (fetch : Repository → Except ServiceError α × Repository) :
    (s.read reading wrap unwrap? fetch).2 =
      match s.cache with
      | none => { s with db := { s.db with repository := (fetch s.db.repository).2 } }
      | some c =>
        let ran := (reading c).run s.wall (wrapped wrap fetch) c.aside s.db.repository
        { s with
          cache := some { c with aside := ran.2.2.1 }
          db := { s.db with repository := ran.2.2.2 }
          fills := s.fills ++ ran.2.1.toList } := by
  unfold read
  rcases s.cache with _ | c
  · rfl
  · dsimp only
    split
    · split <;> rfl
    · rfl
    · rfl

/-- A read with no other under way answers what its lookup finds, or what it fetches. -/
theorem read_fst {α : Type} {q : TodoQuestion} {wrap : α → CachedTodos} {unwrap? : CachedTodos → Option α}
    {fetch : Repository → Except ServiceError α × Repository} (asks : Asks q wrap unwrap? fetch)
    (cached : s.cache = some c) (grounded : c.aside.flights.opened = []) :
    (s.read q.reading wrap unwrap? fetch).1 =
      match ((q.reading c).lookup s.wall c.aside).1 with
      | some v => (unwrap? v).elim (.error (.infrastructure "no value")) .ok
      | none => (fetch s.db.repository).1 := by
  obtain ⟨d, -, -, ⟨v, found, ran⟩ | ⟨missed, observed, ran⟩⟩ :=
    (q.reading c).run_cases s.wall (wrapped wrap fetch) grounded s.db.repository
  · simp only [TodoService.read, cached, ran, found]
    cases unwrap? v <;> rfl
  · simp only [missed]
    exact congrArg (·.1) (asks.read_eq cached ran)

/-- What is stored answers questions as was seen, and so does all that is cached. -/
structure Remembers (seen : TodoQuestion → CachedTodos → Prop) (s : TodoService) : Prop where
  stored : ∀ q v workspace, q.answer? s.db.repository = some (v, workspace) → seen q v
  cache : ∀ c, s.cache = some c → c.Remembers seen s.fills

theorem Remembers.fetched (h : s.Remembers seen) {α : Type} {q : TodoQuestion} {wrap : α → CachedTodos}
    {unwrap? : CachedTodos → Option α} {fetch : Repository → Except ServiceError α × Repository}
    (asks : Asks q wrap unwrap? fetch) {v : CachedTodos} (got : (wrapped wrap fetch s.db.repository).1 = .ok v) :
    seen q v := by
  have answer := asks.answers s.db.repository
  rw [got] at answer
  obtain ⟨⟨u, workspace⟩, known, same⟩ := Option.map_eq_some_iff.mp answer.symm
  obtain rfl : u = v := same
  exact h.stored q u workspace known

theorem Remembers.read {α : Type} (h : s.Remembers seen) {q : TodoQuestion} {wrap : α → CachedTodos}
    {unwrap? : CachedTodos → Option α} {fetch : Repository → Except ServiceError α × Repository}
    (asks : Asks q wrap unwrap? fetch) : (s.read q.reading wrap unwrap? fetch).2.Remembers seen := by
  have rows : (s.read q.reading wrap unwrap? fetch).2.db.repository.rows = s.db.repository.rows :=
    (s.read_same _ _ _ asks.keeps).1.rows
  refine ⟨fun p v workspace known => h.stored p v workspace (TodoQuestion.answer?_congr rows p ▸ known), ?_⟩
  rw [read_snd]
  rcases cached : s.cache with _ | c
  · rintro c ⟨⟩
  · have holds := h.cache c cached
    obtain ⟨d, shrinks, grounded, ⟨v, -, ran⟩ | ⟨-, observed, ran⟩⟩ :=
      (q.reading c).run_cases s.wall (wrapped wrap fetch) holds.grounded s.db.repository
    · dsimp only
      rw [ran]
      rintro _ ⟨⟩
      exact holds.later shrinks grounded fun f mem => .inl (by simpa using mem)
    · dsimp only
      rw [ran]
      rintro _ ⟨⟩
      refine holds.later shrinks grounded fun f mem => ?_
      rcases List.mem_append.mp mem with old | new
      · exact .inl old
      · rcases got : (wrapped wrap fetch s.db.repository).1 with e | v
        · simp [got, Except.toOption] at new
        · obtain rfl : f = (q.reading c).fill c.aside observed v := by simpa [got, Except.toOption] using new
          exact .inr (holds.answer (h.fetched asks got) observed)

/-- A read answers as the rows do, with something that was seen as an answer, or with what the text of that names. -/
theorem Remembers.read_answer {α : Type} (h : s.Remembers seen) {q : TodoQuestion} {wrap : α → CachedTodos}
    {unwrap? : CachedTodos → Option α} {fetch : Repository → Except ServiceError α × Repository}
    (asks : Asks q wrap unwrap? fetch) :
    (s.read q.reading wrap unwrap? fetch).1 = (fetch s.db.repository).1 ∨
      ∃ v u, seen q v ∧ (u = v ∨ u = v.asWritten) ∧ (s.read q.reading wrap unwrap? fetch).1 =
        (unwrap? u).elim (.error (.infrastructure "no value")) .ok := by
  rcases cached : s.cache with _ | c
  · rw [TodoService.read, cached]
    exact .inl rfl
  · have holds := h.cache c cached
    rw [read_fst asks cached holds.grounded]
    rcases looked : ((q.reading c).lookup s.wall c.aside).1 with _ | v
    · exact .inl rfl
    · obtain ⟨u, known, told⟩ := holds.lookup looked
      exact .inr ⟨u, v, known, told, rfl⟩

theorem Remembers.doFill (h : s.Remembers seen) (place pause : Nat) : (s.doFill place pause).Remembers seen := by
  unfold TodoService.doFill
  split
  next => exact h
  next f found =>
    refine ⟨h.stored, ?_⟩
    intro d cached
    obtain ⟨c, held, rfl⟩ := Option.map_eq_some_iff.mp cached
    exact (h.cache c held).fill (List.mem_of_getElem? found) s.wall (s.wall + pause) place

theorem Remembers.onStore (h : s.Remembers seen) {f : MemoryStore → MemoryStore}
    (same : ∀ m, (f m).values = m.values) : (s.onStore f).Remembers seen := by
  refine ⟨h.stored, ?_⟩
  intro d cached
  obtain ⟨c, held, rfl⟩ := Option.map_eq_some_iff.mp cached
  refine (h.cache c held).later ⟨rfl, Nat.le_refl _, fun key v found => ?_⟩ (h.cache c held).grounded fun f => .inl
  rwa [same] at found

theorem Remembers.revision (h : s.Remembers seen) (workspace : WorkspaceId) :
    (s.revision workspace).2.Remembers seen := by
  unfold TodoService.revision
  split
  next => exact h
  next c cached =>
    refine ⟨h.stored, ?_⟩
    rintro _ ⟨⟩
    refine (h.cache c cached).later ⟨rfl, Nat.le_refl _, fun key v found => ?_⟩ (h.cache c cached).grounded
      fun f => .inl
    exact MemoryStore.values_counter rfl ▸ found

theorem Remembers.execute {α : Type} (h : s.Remembers seen) (task : Task α)
    (stored : ∀ q v workspace, q.answer? (executed task s.db s.clock).db.repository = some (v, workspace) → seen q v) :
    (s.execute task).2.Remembers seen := by
  rw [execute_snd]
  refine ⟨stored, ?_⟩
  intro d cached
  obtain ⟨c, held, rfl⟩ := Option.map_eq_some_iff.mp cached
  obtain ⟨shrinks, flights⟩ := foldl_invalidate_leaves s.wall (executed task s.db s.clock).hooks c.aside
  exact (h.cache c held).later shrinks (flights ▸ (h.cache c held).grounded) fun f => .inl

theorem Remembers.after (h : s.Remembers seen) (e : ServiceEvent)
    (stored : ∀ q v workspace, q.answer? (s.after e).db.repository = some (v, workspace) → seen q v) :
    (s.after e).Remembers seen := by
  cases ht : e.task? s.mapper with
  | some task =>
    rw [after_of_task ht] at stored ⊢
    rw [execute_db] at stored
    exact h.execute task stored
  | none =>
    cases e with
    | get id => exact h.read (asks_one id)
    | list workspace => exact h.read (asks_many workspace)
    | fill place pause => exact h.doFill place pause
    | failCommits on => exact ⟨h.stored, h.cache⟩
    | fault call times => exact ⟨h.stored, h.cache⟩
    | clocks clock now => exact ⟨h.stored, h.cache⟩
    | wait ms => exact ⟨h.stored, h.cache⟩
    | _ => cases ht

theorem Remembers.afterTurn (h : s.Remembers seen) (turn : ServiceTurn)
    (stored : ∀ q v workspace, q.answer? (s.afterTurn turn).db.repository = some (v, workspace) → seen q v) :
    (s.afterTurn turn).Remembers seen := by
  cases turn with
  | event e => exact h.after e stored
  | revision workspace => exact h.revision workspace
  | cacheFaults failing faults =>
    exact h.onStore (f := fun m => { m with failing := failing, faults := faults }) fun _ => rfl

theorem Remembers.mono (h : s.Remembers seen) (more : ∀ q v, seen q v → seen' q v) : s.Remembers seen' :=
  ⟨fun q v workspace known => more q v (h.stored q v workspace known), fun c cached => (h.cache c cached).mono more⟩

/-- What answered a question at some moment of a run. -/
def Answered (s : TodoService) (history : List ServiceTurn) (q : TodoQuestion) (v : CachedTodos) : Prop :=
  ∃ past workspace, past <+: history ∧ q.answer? (s.runTurns past).db.repository = some (v, workspace)

theorem run_remembers (s : TodoService) (history : List ServiceTurn) (start : s.Remembers (s.Answered [])) :
    (s.runTurns history).Remembers (s.Answered history) := by
  induction history using List.reverseRecOn with
  | nil => exact start
  | append_singleton history turn ih =>
    have ran : s.runTurns (history ++ [turn]) = (s.runTurns history).afterTurn turn := by
      simp [runTurns]
    have more : ∀ q v, s.Answered history q v → s.Answered (history ++ [turn]) q v := by
      rintro q v ⟨past, workspace, early, known⟩
      exact ⟨past, workspace, early.trans (List.prefix_append _ _), known⟩
    rw [ran]
    refine (ih.mono more).afterTurn turn ?_
    intro q v workspace known
    exact ⟨history ++ [turn], workspace, List.prefix_rfl, ran ▸ known⟩

end TodoService

end Workboard
