import Workboard.Json.Fields
import Workboard.Proofs.Json.Value
import Workboard.Proofs.Time.Rfc3339
import Workboard.Proofs.Uuid

/-!
Typed data are read from the tree of the value that was written for them.
-/

namespace Workboard.Json

namespace Node

@[simp] theorem text?_toNode (s : String) : text? (Value.string s).toNode = some s := by
  simp [text?, Value.toNode]

@[simp] theorem bool?_toNode (b : Bool) : bool? (Value.bool b).toNode = some b := rfl

@[simp] theorem uuid?_toNode (u : Uuid) : uuid? (Value.uuid u).toNode = some u := by
  simp [uuid?, Value.uuid]

@[simp] theorem instant?_toNode (t : Instant) : instant? (Value.instant t).toNode = some t.asWritten := by
  simp [instant?, Value.instant]

/-- A value that is written other than as null is told from one that is missing. -/
theorem optional?_toNode {α β : Type} {write : α → Value} {read : Node → Option β} {back : α → β}
    (present : ∀ a, (write a).toNode.isNull = false) (h : ∀ a, read (write a).toNode = some (back a))
    (o : Option α) : optional? read (Value.optional write o).toNode = some (o.map back) := by
  cases o with
  | none => rfl
  | some a => simp [optional?, Value.optional, present, h]

theorem items?_toNode {α β : Type} {write : α → Value} {read : Node → Option β} {back : α → β} {as : List α}
    (h : ∀ a ∈ as, read (write a).toNode = some (back a)) :
    items? read (Value.array (as.map write)).toNode = some (as.map back) := by
  have nodes : ∀ vs : List Value, Value.itemNodes vs = vs.map Value.toNode := by
    intro vs
    induction vs with
    | nil => rfl
    | cons v vs ih => rw [Value.itemNodes, ih, List.map_cons]
  rw [Value.toNode, nodes, List.map_map]
  exact mapM_map_eq_some h

end Node

theorem memberNodes_eq_map (ms : List (String × Value)) :
    Value.memberNodes ms = ms.map fun m => (escape (Bytes.ofText m.1), m.2.toNode) := by
  induction ms with
  | nil => rfl
  | cons m ms ih =>
    obtain ⟨name, v⟩ := m
    rw [Value.memberNodes, ih, List.map_cons]

namespace Fields

/-- The known members of an object are found as they were written, if their names are distinct. Others are
skipped. -/
theorem known?_memberNodes {names : List String} {ms : List (String × Value)}
    (distinct : ((ms.filter fun m => names.contains m.1).map (·.1)).Nodup) :
    known? names (Value.memberNodes ms) =
      some ((ms.filter fun m => names.contains m.1).map fun m => (m.1, m.2.toNode)) := by
  induction ms with
  | nil => rfl
  | cons m ms ih =>
    obtain ⟨name, v⟩ := m
    by_cases known : names.contains name = true
    · have kept := List.filter_cons_of_pos (p := fun m : String × Value => names.contains m.1) (a := (name, v))
        (l := ms) known
      rw [kept] at distinct ⊢
      rw [List.map_cons, List.nodup_cons] at distinct
      have once : ((ms.filter fun m => names.contains m.1).map fun m => (m.1, m.2.toNode)).any
          (fun m => decide (m.1 = name)) = false := by
        rw [List.any_eq_false]
        intro q hq
        obtain ⟨m, hm, rfl⟩ := List.mem_map.mp hq
        have other : m.1 ≠ name := by
          rintro rfl
          exact distinct.1 (List.mem_map.mpr ⟨m, hm, rfl⟩)
        simpa using other
      simp only [Value.memberNodes, known?, textOfBody?_escape, Option.bind_eq_bind, Option.bind_some,
        ih distinct.2, known, once, if_true, List.map_cons]
      rfl
    · have skipped := List.filter_cons_of_neg (p := fun m : String × Value => names.contains m.1)
        (a := (name, v)) (l := ms) known
      rw [skipped] at distinct ⊢
      simp only [Value.memberNodes, known?, textOfBody?_escape, Option.bind_eq_bind, Option.bind_some,
        ih distinct, known]
      rfl

theorem ofNode?_toNode {names : List String} {ms : List (String × Value)}
    (distinct : (ms.map (·.1)).Nodup) (all : ∀ m ∈ ms, m.1 ∈ names) :
    ofNode? names (Value.object ms).toNode = some (.named (ms.map fun m => (m.1, m.2.toNode))) := by
  have every : ms.filter (fun m => names.contains m.1) = ms :=
    List.filter_eq_self.mpr fun m hm => by simpa using all m hm
  rw [Value.toNode, ofNode?, known?_memberNodes (by rwa [every]), every]
  rfl

end Fields

theorem ofNode?_texts (depth : Nat) (ms : List (String × String)) :
    Value.ofNode? (depth + 1) (Value.object (ms.map fun m => (m.1, .string m.2))).toNode =
      some (.object (sortMembers (ms.map fun m => (m.1, .string m.2)))) := by
  have each : (Value.memberNodes (ms.map fun m => (m.1, .string m.2))).mapM (fun m => do
      let name ← textOfBody? m.1
      let v ← Value.ofNode? depth m.2
      some (name, v)) = some (ms.map fun m => (m.1, .string m.2)) := by
    induction ms with
    | nil => rfl
    | cons m ms ih =>
      simp [Value.memberNodes, Value.toNode, Value.ofNode?, List.mapM_cons] at ih ⊢
      simp [ih]
  simp only [Value.toNode, Value.ofNode?, each]
  rfl

end Workboard.Json
