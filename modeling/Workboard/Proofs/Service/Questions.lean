import Workboard.Proofs.Cache.Codec
import Workboard.Proofs.Cache.Coherent
import Workboard.Proofs.Cache.Keys
import Workboard.Proofs.Service.Stored
import Workboard.Proofs.Todo.Json

/-!
The questions that the cache answers, what is right to be cached for each of them at a moment, and which of
them a change leaves alone.
-/

namespace Workboard

inductive TodoQuestion where
  | one (id : TodoId)
  | many (workspace : WorkspaceId)

namespace CachedTodos

theorem codecFor_readsBack {α : Type} {codec : Codec α} {back : α → α} (h : codec.ReadsBack back)
    {wrap : α → CachedTodos} {unwrap? : CachedTodos → Option α}
    (written : ∀ v a, unwrap? v = some a → wrap (back a) = v.asWritten) :
    (codecFor codec wrap unwrap?).ReadsBack asWritten := by
  intro v bytes encoded
  simp only [codecFor] at encoded ⊢
  split at encoded
  next a unwrapped =>
    rw [h a bytes encoded, ← written v a unwrapped]
    rfl
  next => cases encoded

theorem oneCodec_readsBack {form : BinaryForm Todo} (whole : ∀ t, form.whole? (form.write t) = some t.asWritten) :
    (oneCodec form).ReadsBack asWritten := by
  refine codecFor_readsBack (Codec.readsBack_framed whole _) ?_
  rintro (t | ts) a ⟨⟩
  rfl

theorem manyCodec_readsBack : manyCodec.ReadsBack asWritten := by
  have legible := JsonForm.legible_list (f := .todo) Todo.legible_toValue
  have read := JsonForm.read_list (f := .todo) Todo.ofNode?_toNode
  refine codecFor_readsBack (Codec.readsBack_json legible read) ?_
  rintro (t | ts) as ⟨⟩
  rfl

end CachedTodos

namespace TodoQuestion

open CachedTodos

def key : TodoQuestion → String
  | one id => todoKey id
  | many workspace => listKey workspace

def codec (form : BinaryForm Todo) : TodoQuestion → Codec CachedTodos
  | one _ => oneCodec form
  | many _ => manyCodec

/-- What is to be cached, and the workspace under whose tag. A to-do that does not exist is not cached. -/
def answer? (r : Repository) : TodoQuestion → Option (CachedTodos × WorkspaceId)
  | one id => (r.find? id).map fun t => (.one t, t.workspaceId)
  | many workspace => some (.many (r.inWorkspace workspace), workspace)

/-- A question has the key of a to-do or of a list. -/
def name : TodoQuestion → TodoName
  | one id => .todo id
  | many workspace => .list workspace

theorem key_name (q : TodoQuestion) : q.name.key = q.key := by
  cases q <;> rfl

theorem key_injective {q p : TodoQuestion} (h : q.key = p.key) : q = p := by
  rw [← key_name q, ← key_name p] at h
  have same := TodoName.key_injective h
  cases q <;> cases p <;> cases same <;> rfl

theorem key_ne_workspaceTag (q : TodoQuestion) (workspace : WorkspaceId) :
    q.key ≠ workspaceTag workspace := by
  intro h
  rw [← key_name q] at h
  have same := TodoName.key_injective (b := .tag workspace) h
  cases q <;> cases same

theorem codec_readsBack {form : BinaryForm Todo} (whole : ∀ t, form.whole? (form.write t) = some t.asWritten)
    (q : TodoQuestion) : (q.codec form).ReadsBack CachedTodos.asWritten := by
  cases q with
  | one id => exact oneCodec_readsBack whole
  | many workspace => exact manyCodec_readsBack

theorem answer?_congr {r s : Repository} (h : s.rows = r.rows) (q : TodoQuestion) :
    q.answer? s = q.answer? r := by
  cases q with
  | one id => rw [answer?, answer?, Repository.find?_congr h]
  | many workspace => rw [answer?, answer?, Repository.inWorkspace_congr h]

end TodoQuestion

namespace CachedTodos

def IsTag (root name : String) : Prop := ∃ workspace, name = CacheKey.full root (workspaceTag workspace)

def truth (form : BinaryForm Todo) (root : String) (r : Repository) : CacheTruth (IsTag root) where
  right tag key bytes := ∃ (q : TodoQuestion) (v : CachedTodos) (workspace : WorkspaceId),
    key = CacheKey.full root q.key ∧ tag = CacheKey.full root (workspaceTag workspace) ∧
      q.answer? r = some (v, workspace) ∧ (q.codec form).decode bytes = .ok v.asWritten
  tags := by
    rintro _ _ bytes ⟨q, v, workspace, rfl, rfl, -⟩
    refine ⟨⟨workspace, rfl⟩, ?_⟩
    rintro ⟨other, h⟩
    exact q.key_ne_workspaceTag other (CacheKey.full_injective h)

theorem truth_congr {r s : Repository} (h : s.rows = r.rows) (form : BinaryForm Todo) (root : String) :
    truth form root s = truth form root r := by
  simp only [truth, TodoQuestion.answer?_congr h]

/-- What is right under the key of a question tells the answer to it. -/
theorem answer?_of_right {form : BinaryForm Todo} {root tag : String} {r : Repository} {q : TodoQuestion}
    {bytes : Bytes} {v : CachedTodos}
    (right : (truth form root r).right tag (CacheKey.full root q.key) bytes)
    (decoded : (q.codec form).decode bytes = .ok v) :
    ∃ u workspace, q.answer? r = some (u, workspace) ∧ v = u.asWritten := by
  obtain ⟨p, u, workspace, same, -, answer, read⟩ := right
  obtain rfl := TodoQuestion.key_injective (CacheKey.full_injective same)
  rw [decoded] at read
  cases read
  exact ⟨u, workspace, answer, rfl⟩

end CachedTodos

namespace TodoService

variable {mapper : EventMapper} {db after : Database} {hooks : List ChangedTodo}

/-- Either the rows are as they were, or the cache is told of the one to-do that was changed. -/
theorem Change.touched (h : Change mapper db after hooks) :
    (hooks = [] ∧ after.repository = db.repository) ∨
      ∃ changed : ChangedTodo, hooks = [changed] ∧
        (∀ t, db.repository.find? changed.id = some t → t.workspaceId = changed.workspaceId) ∧
        (after.repository = db.repository.erase changed.id ∨
          ∃ t : Todo, t.id = changed.id ∧ t.workspaceId = changed.workspaceId ∧
            after.repository = db.repository.insert t) := by
  cases h with
  | nothing _ repository => exact .inl ⟨rfl, repository⟩
  | same t found _ repository =>
    refine .inr ⟨_, rfl, ?_, .inr ⟨t, rfl, rfl, repository⟩⟩
    intro u hu
    rw [Option.some.inj (found.symm.trans hu)]
  | event e rows new _ _ replays repository _ =>
    obtain ⟨-, old, named⟩ := TodoEvent.replay?_some replays
    refine .inr ⟨_, rfl, fun t ht => (old t ht).2, ?_⟩
    cases new with
    | none => exact .inl repository
    | some t => exact .inr ⟨t, (named t rfl).1, (named t rfl).2, repository⟩

/-- A change leaves alone what is cached under the tags of other workspaces. -/
theorem answer?_of_touched {changed : ChangedTodo} (proper : Proper db)
    (own : ∀ t, db.repository.find? changed.id = some t → t.workspaceId = changed.workspaceId)
    (touched : after.repository = db.repository.erase changed.id ∨
      ∃ t : Todo, t.id = changed.id ∧ t.workspaceId = changed.workspaceId ∧
        after.repository = db.repository.insert t)
    {q : TodoQuestion} {v : CachedTodos} {workspace : WorkspaceId}
    (answer : q.answer? db.repository = some (v, workspace)) (other : workspace ≠ changed.workspaceId) :
    q.answer? after.repository = some (v, workspace) := by
  have apart : ∀ t ∈ db.repository.rows, t.id = changed.id → t.workspaceId ≠ workspace := by
    intro t ht same
    have found := Repository.find?_of_mem proper.single ht
    rw [own t (same ▸ found)]
    exact other.symm
  rw [← answer]
  cases q with
  | one id =>
    have ne : id ≠ changed.id := by
      rintro rfl
      obtain ⟨t, found, same⟩ := Option.map_eq_some_iff.mp answer
      cases same
      exact other (own t found)
    rcases touched with repository | ⟨t, same_id, -, repository⟩
    · rw [TodoQuestion.answer?, TodoQuestion.answer?, repository, Repository.find?_erase_of_ne _ ne]
    · rw [TodoQuestion.answer?, TodoQuestion.answer?, repository,
        Repository.find?_insert_of_ne _ (same_id ▸ ne)]
  | many asked =>
    obtain ⟨-, rfl⟩ := Prod.mk.inj (Option.some.inj answer)
    rcases touched with repository | ⟨t, same_id, same_workspace, repository⟩
    · rw [TodoQuestion.answer?, TodoQuestion.answer?, repository,
        Repository.inWorkspace_erase_of_ne _ apart]
    · rw [TodoQuestion.answer?, TodoQuestion.answer?, repository,
        Repository.inWorkspace_insert_of_ne _ (same_workspace ▸ other.symm) (same_id ▸ apart)]

end TodoService

end Workboard
