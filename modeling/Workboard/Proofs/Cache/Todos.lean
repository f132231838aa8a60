import Workboard.Proofs.Cache.Codec
import Workboard.Proofs.Todo.Json

/-!
To-dos as they are cached in JSON. What is read back has the fields that the text names, and nothing is pending on it.
-/

namespace Workboard

namespace TrackedTodo

/-- What is left of a to-do that is known by its text only. -/
def settled (t : TrackedTodo) : TrackedTodo := restore t.todo.asWritten

@[simp] theorem todo_settled (t : TrackedTodo) : t.settled.todo = t.todo.asWritten := rfl

@[simp] theorem pending_settled (t : TrackedTodo) : t.settled.pending = [] := rfl

end TrackedTodo

namespace JsonForm

theorem legible_tracked (t : TrackedTodo) : (tracked.write t).Legible := t.todo.legible_toValue

/-- Events that are pending leave no mark. -/
theorem write_settled (t : TrackedTodo) : tracked.write t.settled = tracked.write t := t.todo.toValue_asWritten

theorem read_tracked (t : TrackedTodo) : tracked.read? (tracked.write t).toNode = some t.settled := by
  simp only [tracked, Todo.ofNode?_toNode, Option.map_some, TrackedTodo.settled]

end JsonForm

namespace Codec

/-- To-dos with any title, times and events pending on them, alone or in lists of any length, are encoded in JSON and
decoded again as their texts name them, with no events. They have the fields that they had exactly if all their times
have texts of their own. What was decoded is encoded to the same bytes in any case. -/
theorem todos_survive_json :
    (∀ t : TrackedTodo, ∃ bytes u, (json .tracked).encode t = .ok bytes ∧ (json .tracked).decode bytes = .ok u ∧
      u.todo = t.todo.asWritten ∧ (u.todo = t.todo ↔ t.todo.Expressible) ∧ u.pending = [] ∧
      (json .tracked).encode u = .ok bytes) ∧
    ∀ ts : List TrackedTodo, ∃ bytes us,
      (json (.list .tracked)).encode ts = .ok bytes ∧ (json (.list .tracked)).decode bytes = .ok us ∧
      us.map (·.todo) = ts.map (·.todo.asWritten) ∧
      (us.map (·.todo) = ts.map (·.todo) ↔ ∀ t ∈ ts, t.todo.Expressible) ∧
      (∀ u ∈ us, u.pending = []) ∧ (json (.list .tracked)).encode us = .ok bytes := by
  constructor
  · intro t
    refine ⟨_, t.settled, rfl, ?_, t.todo_settled, Todo.asWritten_eq_self_iff, t.pending_settled, ?_⟩
    · exact decode_print (JsonForm.legible_tracked t) (JsonForm.read_tracked t)
    · rw [encode_json, JsonForm.write_settled]
  · intro ts
    have legible := JsonForm.legible_list JsonForm.legible_tracked ts
    have read := JsonForm.read_list JsonForm.read_tracked ts
    have again : (JsonForm.list .tracked).write (ts.map TrackedTodo.settled) = (JsonForm.list .tracked).write ts := by
      simp only [JsonForm.list, List.map_map, Function.comp_def, JsonForm.write_settled]
    refine ⟨_, ts.map TrackedTodo.settled, rfl, decode_print legible read, ?_, ?_, ?_, ?_⟩
    · simp
    · simp [List.map_inj_left, Todo.asWritten_eq_self_iff]
    · simp
    · rw [encode_json, again]

/-- A to-do that was created in a leap second behind the fourth second of a minute comes back from JSON with another
time. -/
theorem stray_leap_second_lost :
    let t : TrackedTodo := .restore ⟨⟨⟨1⟩⟩, ⟨⟨2⟩⟩, "milk", false, .strayLeap, .strayLeap, none⟩
    ∃ bytes u, (json .tracked).encode t = .ok bytes ∧ (json .tracked).decode bytes = .ok u ∧
      u.todo.createdAt = ⟨⟨2015, 6, 30, rfl⟩, 23, 56, 5, 333000000, rfl⟩ ∧ u.todo ≠ t.todo := by
  intro t
  refine ⟨_, t.settled, rfl, decode_print (JsonForm.legible_tracked t) (JsonForm.read_tracked t), ?_, ?_⟩
  · exact Instant.asWritten_strayLeap
  · exact fun same => absurd (Todo.asWritten_eq_self_iff.mp same).created (by decide)

end Codec

end Workboard
