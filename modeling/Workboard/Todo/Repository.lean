import Workboard.Todo.Basic

/-!
The stored to-dos: one row for each identifier.
-/

namespace Workboard

inductive RowWrite where
  | put (todo : Todo)
  | remove (id : TodoId)

structure Repository where
  rows : List Todo
  /-- How many queries were answered. -/
  reads : Nat

namespace Repository

def empty : Repository := ⟨[], 0⟩

def find? (r : Repository) (id : TodoId) : Option Todo := r.rows.find? fun t => t.id = id

def erase (r : Repository) (id : TodoId) : Repository :=
  { r with rows := r.rows.filter fun t => t.id ≠ id }

/-- Stores a row in place of the one with the same identifier. -/
def insert (r : Repository) (todo : Todo) : Repository :=
  { r with rows := todo :: (r.erase todo.id).rows }

def size (r : Repository) : Nat := r.rows.length

def apply (r : Repository) : RowWrite → Repository
  | .put todo => r.insert todo
  | .remove id => r.erase id

/-- The to-dos of a workspace in their order. -/
def inWorkspace (r : Repository) (workspace : WorkspaceId) : List Todo :=
  (r.rows.filter fun t => t.workspaceId = workspace).mergeSort fun a b => a.compare b != .gt

/-- A query for one to-do is counted whether it finds one or not. -/
def queryGet (r : Repository) (id : TodoId) : Option Todo × Repository :=
  (r.find? id, { r with reads := r.reads + 1 })

def queryList (r : Repository) (workspace : WorkspaceId) : List Todo × Repository :=
  (r.inWorkspace workspace, { r with reads := r.reads + 1 })

end Repository

end Workboard
