import Mathlib.Data.List.Nodup
import Workboard.Todo.Repository

/-!
What is found in the repository after a row was stored or removed.
-/

namespace Workboard.Repository

theorem find?_congr {r s : Repository} (h : s.rows = r.rows) (id : TodoId) : s.find? id = r.find? id := by
  rw [find?, find?, h]

theorem find?_some {r : Repository} {id : TodoId} {t : Todo} (h : r.find? id = some t) :
    t ∈ r.rows ∧ t.id = id :=
  ⟨List.mem_of_find?_eq_some h, by simpa using List.find?_some h⟩

@[simp] theorem find?_erase_self (r : Repository) (id : TodoId) : (r.erase id).find? id = none := by
  simp [find?, erase]

theorem find?_erase_of_ne (r : Repository) {id other : TodoId} (h : other ≠ id) :
    (r.erase id).find? other = r.find? other := by
  rw [find?, find?, erase, List.find?_filter]
  congr 1
  funext t
  by_cases same : t.id = other
  · simp [same, h]
  · simp [same]

@[simp] theorem find?_insert_self (r : Repository) (t : Todo) : (r.insert t).find? t.id = some t := by
  simp [find?, insert]

theorem find?_insert_of_ne (r : Repository) {t : Todo} {other : TodoId} (h : other ≠ t.id) :
    (r.insert t).find? other = r.find? other := by
  have rest := r.find?_erase_of_ne h
  rw [find?, insert, List.find?_cons_of_neg (by simpa using Ne.symm h)]
  exact rest

theorem mem_insert {r : Repository} {t u : Todo} (h : u ∈ (r.insert t).rows) : u = t ∨ u ∈ r.rows := by
  rcases List.mem_cons.mp h with rfl | h
  · exact .inl rfl
  · exact .inr ((List.mem_filter.mp h).1)

theorem mem_erase {r : Repository} {id : TodoId} {u : Todo} (h : u ∈ (r.erase id).rows) : u ∈ r.rows :=
  (List.mem_filter.mp h).1

theorem nodup_erase (r : Repository) (id : TodoId) (h : (r.rows.map (·.id)).Nodup) :
    ((r.erase id).rows.map (·.id)).Nodup :=
  h.sublist (List.filter_sublist.map _)

theorem nodup_insert (r : Repository) (t : Todo) (h : (r.rows.map (·.id)).Nodup) :
    ((r.insert t).rows.map (·.id)).Nodup := by
  refine List.nodup_cons.mpr ⟨?_, r.nodup_erase t.id h⟩
  simp [erase]

theorem find?_of_mem {r : Repository} (single : (r.rows.map (·.id)).Nodup) {t : Todo} (h : t ∈ r.rows) :
    r.find? t.id = some t := by
  cases found : r.find? t.id with
  | none =>
    have absent := List.find?_eq_none.mp found t h
    simp at absent
  | some u =>
    obtain ⟨hu, same⟩ := find?_some found
    rw [List.inj_on_of_nodup_map single hu h same]

theorem inWorkspace_congr {r s : Repository} (h : s.rows = r.rows) (workspace : WorkspaceId) :
    s.inWorkspace workspace = r.inWorkspace workspace := by
  rw [inWorkspace, inWorkspace, h]

theorem inWorkspace_erase_of_ne (r : Repository) {id : TodoId} {workspace : WorkspaceId}
    (h : ∀ t ∈ r.rows, t.id = id → t.workspaceId ≠ workspace) :
    (r.erase id).inWorkspace workspace = r.inWorkspace workspace := by
  have same : ((r.erase id).rows.filter fun t => t.workspaceId = workspace) =
      r.rows.filter fun t => t.workspaceId = workspace := by
    rw [erase, List.filter_filter]
    refine List.filter_congr ?_
    intro t ht
    by_cases own : t.id = id
    · simp [h t ht own]
    · simp [own]
  rw [inWorkspace, inWorkspace, same]

theorem inWorkspace_insert_of_ne (r : Repository) {t : Todo} {workspace : WorkspaceId}
    (other : t.workspaceId ≠ workspace)
    (h : ∀ u ∈ r.rows, u.id = t.id → u.workspaceId ≠ workspace) :
    (r.insert t).inWorkspace workspace = r.inWorkspace workspace := by
  rw [← r.inWorkspace_erase_of_ne h, inWorkspace, inWorkspace, insert,
    List.filter_cons_of_neg (by simpa using other)]

end Workboard.Repository
