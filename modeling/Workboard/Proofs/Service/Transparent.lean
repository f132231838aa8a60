import Workboard.Proofs.Cache.Binary
import Workboard.Proofs.Service.Questions
import Workboard.Proofs.Service.Replay

/-!
The cache is transparent: at any moment of any run, every read answers as the stored rows do.
-/

namespace Workboard

def TodoQuestion.reading (c : TodoCache) : TodoQuestion → Reading CachedTodos
  | .one id => CachedTodos.readOne c.form id c.entityTtl
  | .many workspace => CachedTodos.readMany workspace c.queryTtl

namespace TodoService

open CachedTodos

variable {form : BinaryForm Todo} {root : String} {tagTtl : Nat} {s : TodoService} {c : TodoCache}

theorem read_wall {α : Type} (s : TodoService) (reading : TodoCache → Reading CachedTodos) (wrap : α → CachedTodos)
    (unwrap? : CachedTodos → Option α) (fetch : Repository → Except ServiceError α × Repository) :
    (s.read reading wrap unwrap? fetch).2.wall = s.wall := by
  unfold read
  split
  · rfl
  · dsimp only
    split
    · split <;> rfl
    all_goals rfl

theorem wall_le_after (s : TodoService) (e : ServiceEvent) : s.wall ≤ (s.after e).wall := by
  cases ht : e.task? s.mapper with
  | some task => exact Nat.le_of_eq (by rw [after_of_task ht, execute_snd])
  | none =>
    cases e with
    | get id => exact Nat.le_of_eq (s.read_wall _ _ _ _).symm
    | list workspace => exact Nat.le_of_eq (s.read_wall _ _ _ _).symm
    | wait ms => exact Nat.le_add_right _ _
    | fill place pause =>
      rw [TodoService.after, TodoService.doFill]
      split
      · exact Nat.le_refl _
      · exact Nat.le_add_right _ _
    | _ => first | exact Nat.le_refl _ | cases ht

theorem wall_le_run (s : TodoService) (history : List ServiceEvent) : s.wall ≤ (s.run history).wall := by
  induction history generalizing s with
  | nil => exact Nat.le_refl _
  | cons e history ih => exact Nat.le_trans (s.wall_le_after e) (ih (s.after e))

/-- Everything that the service has cached is right, and so is what fills will put there. Tags live as long as
anything that is cached. -/
structure Faithful (form : BinaryForm Todo) (root : String) (tagTtl : Nat) (s : TodoService) (c : TodoCache) :
    Prop where
  cached : s.cache = some c
  same_form : c.form = form
  same_root : c.aside.root = root
  same_tagTtl : c.aside.tagTtl = tagTtl
  entityLives : c.entityTtl ≤ c.aside.tagTtl
  queryLives : c.queryTtl ≤ c.aside.tagTtl
  coherent : c.aside.Coherent (truth form root s.db.repository) s.wall
  fills : ∀ f ∈ s.fills, f.Current (truth form root s.db.repository) c.aside.tagTtl c.aside.epoch

/-- The service after something that changes no row and makes nothing invalid. -/
theorem Faithful.congr (h : s.Faithful form root tagTtl c) {t : TodoService} (aside : CacheAside CachedTodos)
    (cached : t.cache = some { c with aside := aside })
    (rows : t.db.repository.rows = s.db.repository.rows) (passed : c.aside.Passed 0 aside)
    (coherent : aside.Coherent (truth form root s.db.repository) t.wall)
    (fills : ∀ f ∈ t.fills, f.Current (truth form root s.db.repository) c.aside.tagTtl c.aside.epoch) :
    t.Faithful form root tagTtl { c with aside := aside } := by
  refine ⟨cached, h.same_form, passed.root.trans h.same_root, passed.tagTtl.trans h.same_tagTtl, ?_, ?_, ?_, ?_⟩
  · exact passed.tagTtl ▸ h.entityLives
  · exact passed.tagTtl ▸ h.queryLives
  · rwa [truth_congr rows]
  · dsimp only
    rwa [truth_congr rows, passed.tagTtl, passed.epoch]

/-- The service after something was made invalid; all fills that wait have come too late. -/
theorem Faithful.outdate (h : s.Faithful form root tagTtl c) {t : TodoService} (aside : CacheAside CachedTodos)
    (cached : t.cache = some { c with aside := aside }) {changes : Nat}
    (passed : c.aside.Passed (changes + 1) aside)
    (coherent : aside.Coherent (truth form root t.db.repository) t.wall) (fills : t.fills = s.fills) :
    t.Faithful form root tagTtl { c with aside := aside } := by
  refine ⟨cached, h.same_form, passed.root.trans h.same_root, passed.tagTtl.trans h.same_tagTtl, ?_, ?_, coherent, ?_⟩
  · exact passed.tagTtl ▸ h.entityLives
  · exact passed.tagTtl ▸ h.queryLives
  · intro f hf
    obtain ⟨past, lives, tagLives, -⟩ := h.fills f (fills ▸ hf)
    dsimp only
    rw [passed.tagTtl, passed.epoch]
    refine ⟨by omega, lives, tagLives, ?_⟩
    intro observed
    omega

/-- How the answer to a question is fetched from the rows. -/
structure Asks {α : Type} (q : TodoQuestion) (wrap : α → CachedTodos) (unwrap? : CachedTodos → Option α)
    (fetch : Repository → Except ServiceError α × Repository) : Prop where
  back : ∀ a, unwrap? (wrap a) = some a
  keeps : ∀ r, (fetch r).2.rows = r.rows
  answers : ∀ r, (wrapped wrap fetch r).1.toOption = (q.answer? r).map (·.1)

theorem asks_one (id : TodoId) : Asks (.one id) .one one? (fetchOne id) := by
  refine ⟨fun _ => rfl, fetchOne_rows id, ?_⟩
  intro r
  cases found : r.find? id <;>
    simp [wrapped, fetchOne, Repository.queryGet, TodoQuestion.answer?, found, Except.map,
      Except.toOption]

theorem asks_many (workspace : WorkspaceId) :
    Asks (.many workspace) .many many? (fetchMany workspace) :=
  ⟨fun _ => rfl, fetchMany_rows workspace, fun _ => rfl⟩

theorem get_eq_read (s : TodoService) (id : TodoId) :
    s.get id = s.read (TodoQuestion.one id).reading .one one? (fetchOne id) := rfl

theorem list_eq_read (s : TodoService) (workspace : WorkspaceId) :
    s.list workspace =
      s.read (TodoQuestion.many workspace).reading .many many? (fetchMany workspace) := rfl

theorem wrapped_fst {α : Type} (wrap : α → CachedTodos) (fetch : Repository → Except ServiceError α × Repository)
    (r : Repository) : (wrapped wrap fetch r).1 = (fetch r).1.map wrap := rfl

/-- A read answers what the cache does. -/
theorem Asks.read_eq {α : Type} {q : TodoQuestion} {wrap : α → CachedTodos}
    {unwrap? : CachedTodos → Option α} {fetch : Repository → Except ServiceError α × Repository}
    (asks : Asks q wrap unwrap? fetch) (cached : s.cache = some c) {answer : Except ServiceError α}
    {fill : Option (Fill CachedTodos)} {aside : CacheAside CachedTodos} {repository : Repository}
    (ran : (q.reading c).run s.wall (wrapped wrap fetch) c.aside s.db.repository =
      (some (answer.map wrap), fill, aside, repository)) :
    s.read q.reading wrap unwrap? fetch = (answer, { s with
      cache := some { c with aside := aside }
      db := { s.db with repository := repository }
      fills := s.fills ++ fill.toList }) := by
  rw [read, cached]
  dsimp only
  rw [ran]
  rcases answer with e | a
  · rfl
  · simp only [Except.map, asks.back]

theorem Faithful.current (h : s.Faithful form root tagTtl c) (whole : ∀ t, form.whole? (form.write t) = some t.asWritten)
    {q : TodoQuestion} {v : CachedTodos} {workspace : WorkspaceId}
    (answer : q.answer? s.db.repository = some (v, workspace)) :
    ((q.reading c).fill c.aside c.aside.epoch v).Current (truth form root s.db.repository)
      c.aside.tagTtl c.aside.epoch := by
  have form_eq := h.same_form
  have root_eq := h.same_root
  subst form_eq root_eq
  have tags : (q.reading c).tagsFor v = [workspaceTag workspace] := by
    cases q with
    | one id =>
      obtain ⟨t, -, same⟩ := Option.map_eq_some_iff.mp answer
      cases same
      rfl
    | many asked =>
      cases answer
      rfl
  have key : (q.reading c).key = q.key := by cases q <;> rfl
  have codec : (q.reading c).codec = q.codec c.form := by cases q <;> rfl
  have lives : (q.reading c).ttl ≤ c.aside.tagTtl := by
    cases q with
    | one id => exact h.entityLives
    | many asked => exact h.queryLives
  refine ⟨Nat.le_refl _, lives, Nat.max_eq_left lives, fun _ => ⟨c.aside.fullKey (workspaceTag workspace), ?_, ?_⟩⟩
  · rw [Reading.fill, tags]
    rfl
  · intro bytes encoded
    rw [Reading.fill, codec] at encoded
    exact ⟨q, v, workspace, congrArg c.aside.fullKey key, rfl, answer,
      TodoQuestion.codec_readsBack whole q v bytes encoded⟩

/-- A read answers as the rows do, or, from the cache, with what the text of that answer names. -/
theorem Faithful.read {α : Type} (h : s.Faithful form root tagTtl c)
    (whole : ∀ t, form.whole? (form.write t) = some t.asWritten) (q : TodoQuestion) {wrap : α → CachedTodos}
    {unwrap? : CachedTodos → Option α} {fetch : Repository → Except ServiceError α × Repository}
    (asks : Asks q wrap unwrap? fetch) (back : α → α) (written : ∀ a, (wrap a).asWritten = wrap (back a)) :
    ((s.read q.reading wrap unwrap? fetch).1 = (fetch s.db.repository).1 ∨
        (s.read q.reading wrap unwrap? fetch).1 = (fetch s.db.repository).1.map back) ∧
      ∃ d, (s.read q.reading wrap unwrap? fetch).2.Faithful form root tagTtl d := by
  obtain ⟨aside, coherent, passed, hit | ran⟩ :=
    h.coherent.run (q.reading c) (wrapped wrap fetch) s.db.repository
  · obtain ⟨v, tag, bytes, right, decoded, ran⟩ := hit
    have key : c.aside.fullKey (q.reading c).key = CacheKey.full root q.key := by
      rw [CacheAside.fullKey, h.same_root]
      cases q <;> rfl
    have codec : (q.reading c).codec = q.codec form := by
      rw [← h.same_form]
      cases q <;> rfl
    rw [key] at right
    rw [codec] at decoded
    obtain ⟨u, workspace, answer, rfl⟩ := answer?_of_right right decoded
    have told : Except.ok u.asWritten = ((fetch s.db.repository).1.map back).map wrap := by
      have same := asks.answers s.db.repository
      rw [answer, wrapped_fst] at same
      rcases hf : (fetch s.db.repository).1 with e | a
      · rw [hf] at same
        cases same
      · rw [hf] at same
        obtain rfl : wrap a = u := Option.some.inj same
        exact congrArg Except.ok (written a)
    rw [told] at ran
    rw [asks.read_eq h.cached ran]
    refine ⟨.inr rfl, _, h.congr aside rfl rfl passed coherent ?_⟩
    simpa using h.fills
  · rw [asks.read_eq h.cached ran]
    refine ⟨.inl rfl, _, h.congr aside rfl (asks.keeps s.db.repository) passed coherent ?_⟩
    intro f hf
    rcases List.mem_append.mp hf with old | new
    · exact h.fills f old
    · rw [asks.answers] at new
      cases answer : q.answer? s.db.repository with
      | none => simp [answer] at new
      | some known =>
        obtain ⟨v, workspace⟩ := known
        obtain rfl : f = (q.reading c).fill c.aside c.aside.epoch v := by simpa [answer] using new
        exact h.current whole answer

theorem Faithful.doFill (h : s.Faithful form root tagTtl c) (place pause : Nat)
    (named : (s.doFill place pause).wall + tagTtl < MemoryStore.horizon) :
    ∃ d, (s.doFill place pause).Faithful form root tagTtl d := by
  rcases found : s.fills[place]? with _ | f <;> rw [TodoService.doFill, found] at named ⊢ <;> dsimp only at named ⊢
  · exact ⟨c, h⟩
  · obtain ⟨coherent, passed⟩ := h.coherent.fill (h.fills f (List.mem_of_getElem? found))
      (Nat.le_add_right s.wall pause) (h.same_tagTtl.symm ▸ named)
    refine ⟨_, h.congr _ ?_ rfl passed coherent ?_⟩
    · rw [h.cached]
      rfl
    · intro g hg
      exact h.fills g (List.mem_of_mem_eraseIdx hg)

/-- What a change outdates is dropped, and all fills under way will be given up. -/
theorem invalidate_coherent {aside : CacheAside CachedTodos} {wall : Nat} (changed : ChangedTodo)
    {before : CacheTruth (IsTag aside.root)} (after : CacheTruth (IsTag aside.root))
    (h : aside.Coherent before wall)
    (others : ∀ {tag key : String} {bytes : Bytes},
      tag ≠ aside.fullKey (workspaceTag changed.workspaceId) → before.right tag key bytes →
        after.right tag key bytes) :
    (invalidate wall aside changed).Coherent after wall ∧
      aside.Passed 2 (invalidate wall aside changed) := by
  have plain : ¬IsTag aside.root (aside.fullKey (todoKey changed.id)) := by
    rintro ⟨workspace, same⟩
    exact (TodoQuestion.one changed.id).key_ne_workspaceTag workspace (CacheKey.full_injective same)
  obtain ⟨middle, first⟩ := h.invalidate_entity plain changed.workspaceId.toText
  have names := first.root
  obtain ⟨last, second⟩ := middle.invalidate_tag (workspaceTag changed.workspaceId) after (by
    intro tag key bytes ne
    rw [CacheAside.fullKey, names] at ne
    exact others ne)
  have passed := second.epoch
  rw [first.epoch] at passed
  rw [invalidate]
  exact ⟨last, second.root.trans first.root, second.tagTtl.trans first.tagTtl, passed⟩

theorem Faithful.change (h : s.Faithful form root tagTtl c) (proper : Proper s.db) {task : Task Todo}
    (change : Change s.mapper s.db (executed task s.db s.clock).db (executed task s.db s.clock).hooks) :
    ∃ d, (s.execute task).2.Faithful form root tagTtl d := by
  rw [execute_snd, h.cached]
  rcases change.touched with ⟨nothing, repository⟩ | ⟨changed, one, own, touched⟩
  · rw [nothing]
    exact ⟨c, h.congr c.aside rfl (congrArg _ repository) ⟨rfl, rfl, rfl⟩ h.coherent h.fills⟩
  · have root_eq := h.same_root
    subst root_eq
    let truth' := truth form c.aside.root (executed task s.db s.clock).db.repository
    obtain ⟨coherent, passed⟩ := invalidate_coherent changed truth' h.coherent (by
      rintro _ _ bytes other ⟨q, v, workspace, rfl, rfl, answer, decoded⟩
      have ne : workspace ≠ changed.workspaceId := by
        rintro rfl
        exact other rfl
      exact ⟨q, v, workspace, rfl, rfl, answer?_of_touched proper own touched answer ne, decoded⟩)
    rw [one]
    exact ⟨_, h.outdate _ rfl passed coherent rfl⟩

theorem Faithful.after (h : s.Faithful form root tagTtl c) (whole : ∀ t, form.whole? (form.write t) = some t.asWritten)
    (proper : Proper s.db) {e : ServiceEvent} (distinct : (s.after e).db.ids.Distinct)
    (named : (s.after e).wall + tagTtl < MemoryStore.horizon) :
    ∃ d, (s.after e).Faithful form root tagTtl d := by
  cases ht : e.task? s.mapper with
  | some task =>
    have change := proper.change ht distinct
    rw [after_of_task ht, execute_db] at change
    rw [after_of_task ht]
    exact h.change proper change
  | none =>
    cases e with
    | get id =>
      rw [TodoService.after, get_eq_read]
      exact (h.read whole (.one id) (asks_one id) Todo.asWritten fun _ => rfl).2
    | list workspace =>
      rw [TodoService.after, list_eq_read]
      exact (h.read whole (.many workspace) (asks_many workspace) (List.map Todo.asWritten) fun _ => rfl).2
    | failCommits on => exact ⟨c, h.congr _ h.cached rfl ⟨rfl, rfl, rfl⟩ h.coherent h.fills⟩
    | fault call times => exact ⟨c, h.congr _ h.cached rfl ⟨rfl, rfl, rfl⟩ h.coherent h.fills⟩
    | clocks clock now => exact ⟨c, h.congr _ h.cached rfl ⟨rfl, rfl, rfl⟩ h.coherent h.fills⟩
    | wait ms =>
      have later := h.coherent.mono (Nat.le_add_right s.wall ms)
      exact ⟨c, h.congr _ h.cached rfl ⟨rfl, rfl, rfl⟩ later h.fills⟩
    | fill place pause => exact h.doFill place pause named
    | _ => cases ht

theorem run_faithful (whole : ∀ t, form.whole? (form.write t) = some t.asWritten) (proper : Proper s.db)
    (h : s.Faithful form root tagTtl c) (history : List ServiceEvent)
    (fresh : (s.run history).db.ids.Distinct) (named : (s.run history).wall + tagTtl < MemoryStore.horizon) :
    ∃ d, (s.run history).Faithful form root tagTtl d := by
  induction history generalizing s c with
  | nil => exact ⟨c, h⟩
  | cons e history ih =>
    have distinct : (s.after e).db.ids.Distinct := ((s.after e).run_extends history).distinct fresh
    have early := (s.after e).wall_le_run history
    obtain ⟨d, later⟩ := h.after whole proper distinct
      (Nat.lt_of_le_of_lt (Nat.add_le_add_right early tagTtl) named)
    exact ih (proper.after distinct) later fresh named

def uncached (s : TodoService) : TodoService := { s with cache := none }

theorem map_eq_self {α : Type} {back : α → α} {r : Except ServiceError α} (same : ∀ a, r = .ok a → back a = a) :
    r.map back = r := by
  rcases r with e | a
  · rfl
  · exact congrArg Except.ok (same a rfl)

/-- At any moment of a run, every read through the cache answers as it would without the cache, or with what the text of
that answer names, whichever of the fills that earlier reads left have been done, in whatever order and however late.
The two are the same where all times have texts of their own. New identifiers are fresh, the form of single to-dos is
read back, tags live as long as anything that is cached, and the clock can name the ends of their times. -/
theorem reads_as_uncached (s : TodoService) (root : String) (tagTtl entityTtl queryTtl : Nat)
    (form : BinaryForm Todo)
    (cached : s.cache = some ⟨.empty root tagTtl, entityTtl, queryTtl, form⟩) (no_fills : s.fills = [])
    (proper : Proper s.db) (whole : ∀ t, form.whole? (form.write t) = some t.asWritten)
    (entity_lives : entityTtl ≤ tagTtl) (query_lives : queryTtl ≤ tagTtl)
    (history : List ServiceEvent) (fresh : (s.run history).db.ids.Distinct)
    (named : (s.run history).wall + tagTtl < MemoryStore.horizon) :
    let now := s.run history
    (∀ id, ((now.get id).1 = (now.uncached.get id).1 ∨ (now.get id).1 = (now.uncached.get id).1.map Todo.asWritten) ∧
      ((∀ t, (now.uncached.get id).1 = .ok t → t.Expressible) → (now.get id).1 = (now.uncached.get id).1)) ∧
    ∀ workspace, ((now.list workspace).1 = (now.uncached.list workspace).1 ∨
        (now.list workspace).1 = (now.uncached.list workspace).1.map (List.map Todo.asWritten)) ∧
      ((∀ ts, (now.uncached.list workspace).1 = .ok ts → ∀ t ∈ ts, t.Expressible) →
        (now.list workspace).1 = (now.uncached.list workspace).1) := by
  dsimp only
  have start : s.Faithful form root tagTtl ⟨.empty root tagTtl, entityTtl, queryTtl, form⟩ := by
    refine ⟨cached, rfl, rfl, rfl, entity_lives, query_lives, CacheAside.coherent_empty root tagTtl _ _, ?_⟩
    simp [no_fills]
  obtain ⟨c, h⟩ := run_faithful whole proper start history fresh named
  refine ⟨fun id => ?_, fun workspace => ?_⟩
  · have read : ((s.run history).get id).1 = ((s.run history).uncached.get id).1 ∨
        ((s.run history).get id).1 = ((s.run history).uncached.get id).1.map Todo.asWritten :=
      (h.read whole (.one id) (asks_one id) Todo.asWritten fun _ => rfl).1
    refine ⟨read, fun own => read.elim (·) fun told => told.trans (map_eq_self fun t answer => ?_)⟩
    exact Todo.asWritten_eq_self_iff.mpr (own t answer)
  · have read : ((s.run history).list workspace).1 = ((s.run history).uncached.list workspace).1 ∨
        ((s.run history).list workspace).1 =
          ((s.run history).uncached.list workspace).1.map (List.map Todo.asWritten) :=
      (h.read whole (.many workspace) (asks_many workspace) (List.map Todo.asWritten) fun _ => rfl).1
    refine ⟨read, fun own => read.elim (·) fun told => told.trans (map_eq_self fun ts answer => ?_)⟩
    exact Todo.map_asWritten_of_expressible (own ts answer)

def cachedShop : TodoService :=
  { unused with cache := some ⟨.empty "app" 60000, 60000, 30000, .todo⟩ }

/-- A to-do and its list are read, cached and read again. After a change they are read once more, and one of
the two fills comes too late. -/
def visits : List ServiceEvent :=
  [.create shop "milk", .get firstTodo, .list shop, .fill 1 5, .fill 0 0, .get firstTodo, .list shop,
    .rename firstTodo "tea", .get firstTodo, .list shop, .fill 0 0, .complete firstTodo, .wait 10,
    .fill 0 0]

theorem reads_as_uncached_visits :
    ((cachedShop.run visits).get firstTodo).1 = ((cachedShop.run visits).uncached.get firstTodo).1 ∧
      (cachedShop.run visits).cache.map (fun c => (c.aside.hits, c.aside.misses, c.aside.epoch)) =
        some (2, 4, 6) := by
  obtain ⟨counts, few, named, own⟩ : (cachedShop.run visits).cache.map
      (fun c => (c.aside.hits, c.aside.misses, c.aside.epoch)) = some (2, 4, 6) ∧
        (cachedShop.run visits).db.ids.used ≤ 2 ^ 64 ∧ (cachedShop.run visits).wall + 60000 < MemoryStore.horizon ∧
          ((cachedShop.run visits).uncached.get firstTodo).1.toOption.all (fun t => decide t.Expressible) = true := by
    decide +kernel
  have same := reads_as_uncached cachedShop "app" 60000 60000 30000 .todo rfl rfl (proper_of_no_rows rfl)
    BinaryForm.readsBack_todo.whole (by omega) (by omega) visits (distinct_run rfl visits few) named
  refine ⟨(same.1 firstTodo).2 fun t answer => ?_, counts⟩
  rw [answer] at own
  exact of_decide_eq_true own

/-- In such runs a list through the cache, which is empty at first, is the list without the cache. -/
def ListsAsUncached (such : TodoService → (tagTtl : Nat) → Prop) : Prop :=
  ∀ (s : TodoService) (root : String) (tagTtl entityTtl queryTtl : Nat) (history : List ServiceEvent),
    s.cache = some ⟨.empty root tagTtl, entityTtl, queryTtl, .todo⟩ → s.fills = [] → Proper s.db →
    entityTtl ≤ tagTtl → queryTtl ≤ tagTtl → (s.run history).db.ids.Distinct → such (s.run history) tagTtl →
    ∀ workspace, ((s.run history).list workspace).1 = ((s.run history).uncached.list workspace).1

/-- The list is cached when the to-do has been created in a leap second that ends no minute. -/
def strayVisits : List ServiceEvent := strayCreation ++ [.list shop, .fill 0 0]

/-- A shop that keeps tags for longer than the clock can name. -/
def endlessShop : TodoService :=
  { unused with cache := some ⟨.empty "app" MemoryStore.horizon, 60000, 30000, .todo⟩ }

/-- The to-do gets another title after its list was cached. -/
def renamedLater : List ServiceEvent :=
  [.create shop "milk", .list shop, .fill 0 0, .rename firstTodo "tea"]

/-- It takes both, times with texts of their own and tags whose ends the clock can name, for a list to be as it would be
without the cache. -/
theorem lists_otherwise :
    ¬ ListsAsUncached (fun now tagTtl => now.wall + tagTtl < MemoryStore.horizon) ∧
      ¬ ListsAsUncached (fun now _ => ∀ t ∈ now.db.repository.rows, t.Expressible) := by
  refine ⟨fun claim => ?_, fun claim => ?_⟩
  · obtain ⟨few, named, differ⟩ : (cachedShop.run strayVisits).db.ids.used ≤ 2 ^ 64 ∧
        (cachedShop.run strayVisits).wall + 60000 < MemoryStore.horizon ∧
          ((cachedShop.run strayVisits).list shop).1.toOption.map (List.map (·.createdAt)) ≠
            ((cachedShop.run strayVisits).uncached.list shop).1.toOption.map (List.map (·.createdAt)) := by
      decide +kernel
    have same := claim cachedShop "app" 60000 60000 30000 strayVisits rfl rfl (proper_of_no_rows rfl) (by omega)
      (by omega) (distinct_run rfl strayVisits few) named shop
    exact differ (by rw [same])
  · obtain ⟨few, own, differ⟩ : (endlessShop.run renamedLater).db.ids.used ≤ 2 ^ 64 ∧
        (∀ t ∈ (endlessShop.run renamedLater).db.repository.rows, t.Expressible) ∧
          ((endlessShop.run renamedLater).list shop).1.toOption.map (List.map (·.title)) ≠
            ((endlessShop.run renamedLater).uncached.list shop).1.toOption.map (List.map (·.title)) := by
      decide +kernel
    have same := claim endlessShop "app" MemoryStore.horizon 60000 30000 renamedLater rfl rfl (proper_of_no_rows rfl)
      (by decide) (by decide) (distinct_run rfl renamedLater few) own shop
    exact differ (by rw [same])

end TodoService

end Workboard
