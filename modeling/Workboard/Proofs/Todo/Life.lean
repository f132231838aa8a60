import Mathlib.Data.List.DropRight
import Workboard.Todo.Life
import Workboard.Proofs.Todo.Json

/-!
What holds of a to-do throughout its life, whatever is done with it and however its events are taken. Trimming a text
once is enough, so a title that was accepted is accepted as it is.
-/

namespace Workboard

theorem trimChars_eq (cs : List Char) : trimChars cs = (dropBlanks cs).rdropWhile isBlank := rfl

/-- What begins a text without blanks in front has none in front either. -/
theorem dropBlanks_of_prefix {cs ds : List Char} (front : cs <+: ds) (clean : dropBlanks ds = ds) :
    dropBlanks cs = cs := by
  rw [dropBlanks, List.dropWhile_eq_self_iff] at clean ⊢
  intro nonempty
  have longer := Nat.lt_of_lt_of_le nonempty front.length_le
  rw [front.getElem nonempty]
  exact clean longer

theorem dropBlanks_trimChars (cs : List Char) : dropBlanks (trimChars cs) = trimChars cs :=
  dropBlanks_of_prefix (List.rdropWhile_prefix isBlank (dropBlanks cs)) (List.dropWhile_idempotent isBlank cs)

theorem trimChars_trimChars (cs : List Char) : trimChars (trimChars cs) = trimChars cs := by
  rw [trimChars_eq (trimChars cs), dropBlanks_trimChars, trimChars_eq]
  exact List.rdropWhile_idempotent isBlank (dropBlanks cs)

@[simp] theorem trim_trim (s : String) : trim (trim s) = trim s := by
  rw [trim, trim, String.toList_ofList, trimChars_trimChars]

theorem validateTitle_eq_ok_iff {text title : String} :
    validateTitle text = .ok title ↔ title = trim text ∧ 1 ≤ title.length ∧ title.length ≤ maxTitleLength := by
  have length : (trim text).length = (trimChars text.toList).length := by rw [trim, String.length_ofList]
  unfold validateTitle
  dsimp only
  split
  next blank =>
    rw [List.isEmpty_iff] at blank
    refine ⟨nofun, ?_⟩
    rintro ⟨rfl, some_character, -⟩
    rw [length, blank] at some_character
    cases some_character
  next visible =>
    have some_character : 1 ≤ (trimChars text.toList).length :=
      List.length_pos_iff.mpr (mt List.isEmpty_iff.mpr visible)
    split
    next long =>
      refine ⟨nofun, ?_⟩
      rintro ⟨rfl, -, short⟩
      omega
    next short =>
      constructor
      · rintro ⟨⟩
        exact ⟨rfl, length ▸ some_character, length ▸ Nat.le_of_not_lt short⟩
      · rintro ⟨rfl, -⟩
        rfl

/-- A title that was accepted is accepted as it is. -/
theorem validateTitle_accepted {text title : String} (accepted : validateTitle text = .ok title) :
    validateTitle title = .ok title := by
  obtain ⟨rfl, limits⟩ := validateTitle_eq_ok_iff.mp accepted
  exact validateTitle_eq_ok_iff.mpr ⟨(trim_trim text).symm, limits⟩

structure Todo.Proper (t : Todo) : Prop where
  title : validateTitle t.title = .ok t.title
  completion : t.completed = true ↔ t.completedAt.isSome = true

/-- What no change touches. -/
structure Todo.Keeps (old new : Todo) : Prop where
  id : new.id = old.id
  workspace : new.workspaceId = old.workspaceId
  created : new.createdAt = old.createdAt

namespace TrackedTodo

variable {t u : TrackedTodo} {title : String} {now : Instant}

/-- What a change does: nothing at all, or it records one event with the time of the new to-do. -/
inductive Advances (t : TrackedTodo) : TrackedTodo → Prop
  | kept : Advances t t
  | recorded {u : TrackedTodo} (e : TodoEvent) (pending : u.pending = t.pending ++ [e])
      (time : u.todo.updatedAt = e.timestamp) (keeps : t.todo.Keeps u.todo)
      (proper : t.todo.Proper → u.todo.Proper) : Advances t u

/-- The to-do changes and one event is recorded, or nothing at all has happened. -/
def RecordsChange (t u : TrackedTodo) : Prop :=
  (u.todo ≠ t.todo ∧ ∃ e, u.pending = t.pending ++ [e]) ∨ u = t

/-- Renaming in place does what renaming does, and leaves a to-do alone whose new title is refused. -/
theorem renameInPlace_run (title : String) (now : Instant) (t : TrackedTodo) :
    (renameInPlace title now).run t =
      match t.rename title now with
      | .ok u => (.ok (), u)
      | .error e => (.error e, t) := by
  unfold renameInPlace rename
  rcases validateTitle title with e | title
  · rfl
  · show (ite (title = t.todo.title) _ _ : ExceptT DomainError (StateM TrackedTodo) Unit) t =
      match (ite (title = t.todo.title) _ _ : Except DomainError TrackedTodo) with
      | .ok u => (.ok (), u)
      | .error e => (.error e, t)
    split <;> rfl

theorem rename_same {text : String} (proper : t.todo.Proper) (same : trim text = t.todo.title) :
    t.rename text now = .ok t := by
  obtain ⟨-, limits⟩ := validateTitle_eq_ok_iff.mp proper.title
  have accepted : validateTitle text = .ok t.todo.title := validateTitle_eq_ok_iff.mpr ⟨same.symm, limits⟩
  rw [rename, accepted]
  exact if_pos rfl

theorem rename_advances (renamed : t.rename title now = .ok u) : t.Advances u := by
  unfold rename at renamed
  rcases accepted : validateTitle title with e | stored
  · rw [accepted] at renamed
    cases renamed
  · rw [accepted] at renamed
    by_cases same : stored = t.todo.title
    · obtain rfl : t = u := Except.ok.inj ((if_pos same).symm.trans renamed)
      exact .kept
    · obtain rfl := Except.ok.inj ((if_neg same).symm.trans renamed)
      exact .recorded _ rfl rfl ⟨rfl, rfl, rfl⟩ fun proper =>
        ⟨validateTitle_accepted accepted, proper.completion⟩

theorem renameInPlace_advances (title : String) (now : Instant) (t : TrackedTodo) :
    t.Advances ((renameInPlace title now).run t).2 := by
  rw [renameInPlace_run]
  rcases renamed : t.rename title now with e | u
  · exact .kept
  · exact rename_advances renamed

theorem complete_advances (t : TrackedTodo) (now : Instant) : t.Advances (t.complete now) := by
  unfold complete
  split
  · exact .kept
  · exact .recorded _ rfl rfl ⟨rfl, rfl, rfl⟩ fun proper => ⟨proper.title, .rfl⟩

theorem reopen_advances (t : TrackedTodo) (now : Instant) : t.Advances (t.reopen now) := by
  unfold reopen
  split
  · exact .recorded _ rfl rfl ⟨rfl, rfl, rfl⟩ fun proper => ⟨proper.title, .rfl⟩
  · exact .kept

theorem markDeleted_advances (t : TrackedTodo) (now : Instant) : t.Advances (t.markDeleted now) :=
  .recorded _ rfl rfl ⟨rfl, rfl, rfl⟩ fun proper => ⟨proper.title, proper.completion⟩

theorem complete_recordsChange (t : TrackedTodo) (now : Instant) : t.RecordsChange (t.complete now) := by
  unfold complete
  split
  · exact .inr rfl
  next unfinished =>
    refine .inl ⟨fun same => unfinished ?_, _, rfl⟩
    exact (congrArg Todo.completed same).symm

theorem reopen_recordsChange (t : TrackedTodo) (now : Instant) : t.RecordsChange (t.reopen now) := by
  unfold reopen
  split
  next finished =>
    refine .inl ⟨fun same => ?_, _, rfl⟩
    have unfinished : false = t.todo.completed := congrArg Todo.completed same
    rw [finished] at unfinished
    cases unfinished
  · exact .inr rfl

end TrackedTodo

namespace TodoLife

variable {l : TodoLife} {origin : Todo}

/-- What is left of a time: the time itself, or the one that its text names if it was written. -/
def Shows (written : Prop) (shown time : Instant) : Prop := shown = time ∨ written ∧ shown = time.asWritten

variable {written written' : Prop} {shown time : Instant}

theorem Shows.mono (h : Shows written shown time) (more : written → written') : Shows written' shown time :=
  h.imp_right (And.imp_left more)

theorem Shows.again (h : Shows written shown time) : Shows True shown.asWritten time := by
  obtain rfl | ⟨-, rfl⟩ := h
  · exact .inr ⟨trivial, rfl⟩
  · exact .inr ⟨trivial, Instant.asWritten_asWritten time⟩

/-- What holds at each moment of a life, in which the to-do was written as JSON or was not. -/
structure Sound (origin : Todo) (written : Prop) (l : TodoLife) : Prop where
  proper : l.tracked.todo.Proper
  id : l.tracked.todo.id = origin.id
  workspace : l.tracked.todo.workspaceId = origin.workspaceId
  created : Shows written l.tracked.todo.createdAt origin.createdAt
  pending : l.tracked.pending <:+ l.recorded
  latest : ∃ e, l.recorded.getLast? = some e ∧ Shows written l.tracked.todo.updatedAt e.timestamp

theorem sound_ofNew {id : TodoId} {workspace : WorkspaceId} {title : String} {now : Instant} {t : TrackedTodo}
    (created : TrackedTodo.create id workspace title now = .ok t) :
    (ofNew t).Sound t.todo False ∧ t.todo.id = id ∧ t.todo.workspaceId = workspace ∧ t.todo.createdAt = now := by
  unfold TrackedTodo.create at created
  rcases accepted : validateTitle title with e | stored
  · rw [accepted] at created
    cases created
  · rw [accepted] at created
    cases created
    exact ⟨⟨⟨validateTitle_accepted accepted, .rfl⟩, rfl, rfl, .inl rfl, List.suffix_refl _, _, rfl, .inl rfl⟩, rfl, rfl,
      rfl⟩

theorem Sound.mono (sound : l.Sound origin written) (more : written → written') : l.Sound origin written' := by
  obtain ⟨e, last, updated⟩ := sound.latest
  exact ⟨sound.proper, sound.id, sound.workspace, sound.created.mono more, sound.pending, e, last, updated.mono more⟩

theorem Sound.changed {t : TrackedTodo} (sound : l.Sound origin written) (advances : l.tracked.Advances t) :
    (l.changed t).Sound origin written := by
  cases advances with
  | kept =>
    have none : l.tracked.pending.drop l.tracked.pending.length = [] := List.drop_length
    rw [TodoLife.changed, none, List.append_nil]
    exact sound
  | recorded e pending time keeps proper =>
    have one : t.pending.drop l.tracked.pending.length = [e] := by rw [pending, List.drop_left]
    rw [TodoLife.changed, one]
    refine ⟨proper sound.proper, ?_, ?_, ?_, ?_, e, List.getLast?_concat, .inl time⟩
    · exact keeps.id.trans sound.id
    · exact keeps.workspace.trans sound.workspace
    · exact keeps.created.symm ▸ sound.created
    · obtain ⟨before, whole⟩ := sound.pending
      exact ⟨before, by rw [pending, ← whole, List.append_assoc]⟩

/-- A round trip leaves the times as their texts name them, and no event pending. -/
theorem Sound.roundTrip (sound : l.Sound origin written) :
    ∃ m, l.act .roundTrip = some m ∧ m.Sound origin True := by
  refine ⟨⟨.restore l.tracked.todo.asWritten, l.recorded⟩, ?_, ⟨sound.proper.title, ?_⟩, sound.id, sound.workspace,
    sound.created.again, List.nil_suffix, ?_⟩
  · rw [TodoLife.act, Todo.ofBytes?_toBytes, Option.map_some]
  · exact sound.proper.completion.trans (Bool.eq_iff_iff.mp (Option.isSome_map ..).symm)
  · obtain ⟨e, last, updated⟩ := sound.latest
    exact ⟨e, last, updated.again⟩

theorem Sound.act (sound : l.Sound origin written) (a : TodoAct) :
    ∃ m, l.act a = some m ∧ m.Sound origin (written ∨ a = .roundTrip) := by
  cases a with
  | rename title now =>
    exact ⟨_, rfl, (sound.changed (TrackedTodo.renameInPlace_advances title now _)).mono .inl⟩
  | complete now => exact ⟨_, rfl, (sound.changed (TrackedTodo.complete_advances _ now)).mono .inl⟩
  | reopen now => exact ⟨_, rfl, (sound.changed (TrackedTodo.reopen_advances _ now)).mono .inl⟩
  | markDeleted now => exact ⟨_, rfl, (sound.changed (TrackedTodo.markDeleted_advances _ now)).mono .inl⟩
  | takeEvents =>
    have taken : Sound origin written { l with tracked := l.tracked.takeEvents.2 } :=
      ⟨sound.proper, sound.id, sound.workspace, sound.created, List.nil_suffix, sound.latest⟩
    exact ⟨_, rfl, taken.mono .inl⟩
  | roundTrip =>
    obtain ⟨m, read, again⟩ := sound.roundTrip
    exact ⟨m, read, again.mono fun _ => .inr rfl⟩

theorem Sound.after (sound : l.Sound origin written) (acts : List TodoAct) :
    ∃ m, l.after acts = some m ∧ m.Sound origin (written ∨ .roundTrip ∈ acts) := by
  induction acts generalizing l written with
  | nil => exact ⟨l, rfl, sound.mono .inl⟩
  | cons a acts ih =>
    obtain ⟨next, stepped, kept⟩ := sound.act a
    obtain ⟨m, rest, final⟩ := ih kept
    refine ⟨m, ?_, final.mono ?_⟩
    · rw [TodoLife.after, List.foldlM_cons, stepped]
      exact rest
    · rintro ((before | rfl) | later)
      · exact .inl before
      · exact .inr List.mem_cons_self
      · exact .inr (List.mem_cons_of_mem _ later)

/-- A to-do that was created stays in order whatever is done with it: its title is trimmed and of admissible length,
it is completed exactly if the time of that is known, and what identifies it never changes. Renaming to the title it
has does nothing, a refused title leaves everything as it was, and completing or reopening records the one event of
its change. The to-do was created when it was, and updated when the last of all its events was recorded; after a round
trip these are the times that the texts of the two name. -/
theorem stays_in_order {id : TodoId} {workspace : WorkspaceId} {title : String} {now : Instant} {t : TrackedTodo}
    (created : TrackedTodo.create id workspace title now = .ok t) (acts : List TodoAct) :
    ∃ l, (ofNew t).after acts = some l ∧
      (trim l.tracked.todo.title = l.tracked.todo.title ∧ 1 ≤ l.tracked.todo.title.length ∧
        l.tracked.todo.title.length ≤ 200) ∧
      (l.tracked.todo.completed = true ↔ l.tracked.todo.completedAt.isSome = true) ∧
      (l.tracked.todo.id = id ∧ l.tracked.todo.workspaceId = workspace ∧
        Shows (.roundTrip ∈ acts) l.tracked.todo.createdAt now) ∧
      (∀ text accepted, validateTitle text = .ok accepted → validateTitle accepted = .ok accepted) ∧
      (∀ text time, trim text = l.tracked.todo.title →
        (TrackedTodo.renameInPlace text time).run l.tracked = (.ok (), l.tracked)) ∧
      (∀ text time e u, (TrackedTodo.renameInPlace text time).run l.tracked = (.error e, u) → u = l.tracked) ∧
      (∀ time, l.tracked.RecordsChange (l.tracked.complete time) ∧ l.tracked.RecordsChange (l.tracked.reopen time)) ∧
      l.tracked.pending <:+ l.recorded ∧
      ∃ e, l.recorded.getLast? = some e ∧ Shows (.roundTrip ∈ acts) l.tracked.todo.updatedAt e.timestamp := by
  obtain ⟨new, sameId, sameWorkspace, sameTime⟩ := sound_ofNew created
  obtain ⟨l, ran, again⟩ := new.after acts
  have sound : l.Sound t.todo (.roundTrip ∈ acts) := again.mono fun either => either.resolve_left not_false
  obtain ⟨trimmed, limits⟩ := validateTitle_eq_ok_iff.mp sound.proper.title
  refine ⟨l, ran, ⟨trimmed.symm, limits⟩, sound.proper.completion, ⟨?_, ?_, ?_⟩, fun _ _ => validateTitle_accepted,
    ?_, ?_, ?_, sound.pending, sound.latest⟩
  · exact sound.id.trans sameId
  · exact sound.workspace.trans sameWorkspace
  · exact sameTime ▸ sound.created
  · intro text time same
    rw [TrackedTodo.renameInPlace_run, TrackedTodo.rename_same sound.proper same]
  · intro text time e u failed
    rw [TrackedTodo.renameInPlace_run] at failed
    split at failed <;> cases failed
    rfl
  · exact fun time => ⟨TrackedTodo.complete_recordsChange _ time, TrackedTodo.reopen_recordsChange _ time⟩

/-- A title between wide blanks, a second one that is kept, and one of blanks alone that is refused. -/
theorem stays_in_order_milk :
    let noon : Instant := ⟨⟨2025, 3, 1, rfl⟩, 12, 0, 0, 0, rfl⟩
    let one : Instant := ⟨⟨2025, 3, 1, rfl⟩, 13, 0, 0, 0, rfl⟩
    let acts : List TodoAct := [.rename "oat milk " noon, .complete noon, .takeEvents, .roundTrip,
      .rename "\t" one, .complete one, .markDeleted one, .rename " oat milk" noon]
    ∃ t l, TrackedTodo.create ⟨⟨1⟩⟩ ⟨⟨2⟩⟩ "\u00a0 milk\u3000" noon = .ok t ∧ t.todo.title = "milk" ∧
      (ofNew t).after acts = some l ∧ l.tracked.todo.title = "oat milk" ∧ l.tracked.todo.id = ⟨⟨1⟩⟩ ∧
      l.recorded.map (fun e => e.change) =
        [.created "milk", .renamed "oat milk", .completed, .deleted] ∧
      ∃ e, l.recorded.getLast? = some e ∧ Shows (.roundTrip ∈ acts) l.tracked.todo.updatedAt e.timestamp := by
  intro noon one acts
  let t : TrackedTodo := ⟨⟨⟨⟨1⟩⟩, ⟨⟨2⟩⟩, "milk", false, noon, noon, none⟩,
    ⟨[⟨⟨⟨1⟩⟩, ⟨⟨2⟩⟩, .created "milk", noon⟩]⟩⟩
  have created : TrackedTodo.create ⟨⟨1⟩⟩ ⟨⟨2⟩⟩ "\u00a0 milk\u3000" noon = .ok t := by decide +kernel
  have run : ((ofNew t).after acts).map (fun l => (l.tracked.todo.title, l.recorded.map fun e => e.change)) =
      some ("oat milk", [.created "milk", .renamed "oat milk", .completed, .deleted]) := by
    decide +kernel
  obtain ⟨l, ran, -, -, ⟨id, -⟩, -, -, -, -, -, latest⟩ := stays_in_order created acts
  rw [ran] at run
  obtain ⟨title, events⟩ := Prod.mk.inj (Option.some.inj run)
  exact ⟨t, l, created, rfl, ran, title, id, events, latest⟩

/-- A to-do that was created in a leap second behind the fourth second of a minute is of another time after a round
trip. -/
theorem stray_creation_moves :
    let t : TrackedTodo := ⟨⟨⟨⟨1⟩⟩, ⟨⟨2⟩⟩, "milk", false, .strayLeap, .strayLeap, none⟩,
      ⟨[⟨⟨⟨1⟩⟩, ⟨⟨2⟩⟩, .created "milk", .strayLeap⟩]⟩⟩
    TrackedTodo.create ⟨⟨1⟩⟩ ⟨⟨2⟩⟩ "milk" .strayLeap = .ok t ∧
      ∃ l, (ofNew t).after [.roundTrip] = some l ∧ l.tracked.todo.createdAt ≠ .strayLeap ∧
        l.recorded.getLast?.map (fun e => e.timestamp) ≠ some l.tracked.todo.updatedAt := by
  intro t
  refine ⟨by decide +kernel, ⟨.restore t.todo.asWritten, t.pending⟩, ?_, ?_, ?_⟩
  · simp only [TodoLife.after, List.foldlM_cons, List.foldlM_nil, act, ofNew, Todo.ofBytes?_toBytes]
    rfl
  · decide
  · decide

end TodoLife

end Workboard
