import Workboard.Todo.Basic
import Workboard.Proofs.Json.Fields
import Workboard.Proofs.Json.Members

/-!
To-dos and their events are read back from the JSON texts that are written for them, as far as these tell their times.
-/

namespace Workboard

open Json

namespace TodoEvent

/-- The members of an event's JSON form besides its tag, all of which are texts. -/
def fields (e : TodoEvent) : List (String × String) :=
  [("todo_id", e.todoId.uuid.toText), ("workspace_id", e.workspaceId.uuid.toText)] ++
    (e.change.title?.map fun title => ("title", title)).toList ++ [("timestamp", e.timestamp.toText)]

def asTexts (ms : List (String × String)) : List (String × Value) :=
  ms.map fun m => (m.1, .string m.2)

theorem toValue_eq (e : TodoEvent) : e.toValue = .object (asTexts (("type", e.change.tag) :: e.fields)) := by
  obtain ⟨todo, workspace, change, time⟩ := e
  cases change <;> rfl

theorem legible_asTexts (ms : List (String × String)) : (Value.object (asTexts ms)).Legible := by
  show Value.LegibleMembers _
  induction ms with
  | nil => trivial
  | cons m ms ih => exact ⟨trivial, ih⟩

theorem names_fields (e : TodoEvent) : (("type" :: e.fields.map (·.1)).Nodup) := by
  obtain ⟨todo, workspace, change, time⟩ := e
  cases change <;> simp [fields, TodoChange.title?]

theorem known_fields (e : TodoEvent) : ∀ m ∈ e.fields, m.1 ∈ fieldNames e.change.tag := by
  obtain ⟨todo, workspace, change, time⟩ := e
  cases change <;> simp [fields, TodoChange.title?, fieldNames, TodoChange.tag]

/-- The fields of an event are found in whatever order they stand. -/
theorem fields_found (e : TodoEvent) {ms : List (String × String)} (same : ms.Perm e.fields) :
    Fields.ofNode? (fieldNames e.change.tag) (Value.object (asTexts ms)).toNode =
        some (.named ((asTexts ms).map fun m => (m.1, m.2.toNode))) ∧
      Fields.get? (.named ((asTexts ms).map fun m => (m.1, m.2.toNode))) =
        Fields.get? (.named ((asTexts e.fields).map fun m => (m.1, m.2.toNode))) := by
  have names : ∀ ns : List (String × String), (asTexts ns).map (·.1) = ns.map (·.1) := by
    intro ns
    rw [asTexts, List.map_map]
    rfl
  have distinct : (ms.map (·.1)).Nodup := (same.map _).nodup_iff.mpr (List.nodup_cons.mp e.names_fields).2
  constructor
  · refine Fields.ofNode?_toNode (by rwa [names]) fun m hm => ?_
    obtain ⟨q, hq, rfl⟩ := List.mem_map.mp hm
    exact e.known_fields q (same.mem_iff.mp hq)
  · refine Fields.get?_of_perm ((same.map _).map _) ?_
    rw [List.map_map]
    exact (names ms).symm ▸ distinct

theorem ofFields?_of_perm (e : TodoEvent) {ms : List (String × String)} (same : ms.Perm e.fields) :
    ofFields? e.change.tag (Value.object (asTexts ms)).toNode = some e.asWritten := by
  obtain ⟨found, agree⟩ := e.fields_found same
  rw [ofFields?, found]
  obtain ⟨⟨todo⟩, ⟨workspace⟩, change, time⟩ := e
  have uuid (u : Uuid) : Node.uuid? (Value.string u.toText).toNode = some u := Node.uuid?_toNode u
  have instant (t : Instant) : Node.instant? (Value.string t.toText).toNode = some t.asWritten :=
    Node.instant?_toNode t
  simp only [Option.bind_eq_bind, Option.bind_some, Fields.required?, agree]
  cases change <;>
    simp [fields, asTexts, TodoChange.title?, TodoChange.tag, Fields.get?, uuid, instant, asWritten]

/-- An event is read from its members in whatever order they stand. -/
theorem ofNode?_of_perm (e : TodoEvent) {ms : List (String × String)}
    (same : ms.Perm (("type", e.change.tag) :: e.fields)) :
    ofNode? (Value.object (asTexts ms)).toNode = some e.asWritten := by
  let node (m : String × String) : Bytes × Node := (escape (Bytes.ofText m.1), (Value.string m.2).toNode)
  have nodes (ns : List (String × String)) : Value.memberNodes (asTexts ns) = ns.map node := by
    rw [memberNodes_eq_map, asTexts, List.map_map]
    rfl
  have tagged : isTag ∘ node = fun m => decide (m.1 = "type") := by
    funext m
    simp [isTag, node, Bool.beq_eq_decide_eq]
  have others : ∀ m ∈ e.fields, m.1 ≠ "type" := by
    intro m hm own
    exact (List.nodup_cons.mp e.names_fields).1 (own ▸ List.mem_map.mpr ⟨m, hm, rfl⟩)
  have tag : (ms.map node).filter isTag = [node ("type", e.change.tag)] := by
    have alone : e.fields.filter (fun m => decide (m.1 = "type")) = [] :=
      List.filter_eq_nil_iff.mpr fun m hm => by simpa using others m hm
    have once := same.filter fun m => decide (m.1 = "type")
    rw [List.filter_cons_of_pos (by simp), alone] at once
    rw [List.filter_map, tagged, List.perm_singleton.mp once]
    rfl
  have rest : ((ms.map node).filter fun m => !isTag m) =
      Value.memberNodes (asTexts (ms.filter fun m => !decide (m.1 = "type"))) := by
    have untagged : (fun m => !isTag m) ∘ node = fun m => !decide (m.1 = "type") := by
      funext m
      exact congrArg (!·) (congrFun tagged m)
    rw [List.filter_map, untagged, nodes]
  have left : (ms.filter fun m => !decide (m.1 = "type")).Perm e.fields := by
    have all : e.fields.filter (fun m => !decide (m.1 = "type")) = e.fields :=
      List.filter_eq_self.mpr fun m hm => by simpa using others m hm
    have kept := same.filter fun m => !decide (m.1 = "type")
    rwa [List.filter_cons_of_neg (by simp), all] at kept
  have free := ofNode?_texts 126 ms
  have whole : (Value.object (asTexts ms)).toNode = .object (ms.map node) := by rw [Value.toNode, nodes]
  rw [show ms.map (fun m => (m.1, Value.string m.2)) = asTexts ms from rfl, whole] at free
  have text : (node ("type", e.change.tag)).2.text? = some e.change.tag := Node.text?_toNode _
  rw [whole]
  simp only [ofNode?, Value.maxDepth, free, tag, rest, text, Option.bind_eq_bind, Option.bind_some]
  rw [← Value.toNode]
  exact e.ofFields?_of_perm left

@[simp] theorem ofBytes?_toBytes (e : TodoEvent) : ofBytes? e.toBytes = some e.asWritten := by
  rw [ofBytes?, toBytes, toValue_eq, Value.ofBytes?_print (legible_asTexts _), Option.bind_some,
    e.ofNode?_of_perm (.refl _)]

end TodoEvent

namespace Todo

theorem legible_toValue (t : Todo) : t.toValue.Legible := by
  refine ⟨trivial, trivial, trivial, trivial, trivial, trivial, ?_, trivial⟩
  cases t.completedAt <;> trivial

@[simp] theorem ofNode?_toNode (t : Todo) : ofNode? t.toValue.toNode = some t.asWritten := by
  have completed := Node.optional?_toNode (fun _ => rfl) Node.instant?_toNode t.completedAt
  rw [ofNode?, toValue, Fields.ofNode?_toNode (by simp) (by simp [fieldNames])]
  simp [Fields.required?, Fields.optional?, Fields.get?, completed, asWritten]

@[simp] theorem ofBytes?_toBytes (t : Todo) : ofBytes? t.toBytes = some t.asWritten := by
  rw [ofBytes?, toBytes, Value.ofBytes?_print t.legible_toValue, Option.bind_some, ofNode?_toNode]

/-- A to-do and the one that its text names have the same text. -/
theorem toValue_asWritten (t : Todo) : t.asWritten.toValue = t.toValue := by
  have time (t : Instant) : Value.instant t.asWritten = Value.instant t := by
    rw [Value.instant, Instant.toText_asWritten, Value.instant]
  have completed : Value.optional .instant (t.completedAt.map Instant.asWritten) =
      Value.optional .instant t.completedAt := by
    cases t.completedAt with
    | none => rfl
    | some done => exact time done
  simp only [toValue, asWritten, time, completed]

end Todo

end Workboard

/-!
To-dos and events as their texts name them. They are the to-dos and events themselves where every time has a text of
its own.
-/

namespace Workboard

theorem TodoEvent.asWritten_eq_self_iff {e : TodoEvent} : e.asWritten = e ↔ e.timestamp.Expressible := by
  rw [← Instant.asWritten_eq_self_iff]
  refine ⟨congrArg TodoEvent.timestamp, fun same => ?_⟩
  rw [TodoEvent.asWritten, same]

namespace Todo

@[simp] theorem asWritten_asWritten (t : Todo) : t.asWritten.asWritten = t.asWritten := by
  simp [asWritten, Function.comp_def]

theorem asWritten_eq_self_iff {t : Todo} : t.asWritten = t ↔ t.Expressible := by
  have completed : t.completedAt.map Instant.asWritten = t.completedAt ↔
      ∀ time ∈ t.completedAt, time.Expressible := by
    cases t.completedAt with
    | none => simp
    | some done => simp [Instant.asWritten_eq_self_iff]
  constructor
  · intro same
    refine ⟨Instant.asWritten_eq_self_iff.mp (congrArg Todo.createdAt same),
      Instant.asWritten_eq_self_iff.mp (congrArg Todo.updatedAt same), ?_⟩
    exact completed.mp (congrArg Todo.completedAt same)
  · rintro ⟨created, updated, done⟩
    simp only [asWritten, Instant.asWritten_of_expressible created, Instant.asWritten_of_expressible updated,
      completed.mpr done]

instance (t : Todo) : Decidable t.Expressible := decidable_of_iff _ asWritten_eq_self_iff

theorem map_asWritten_of_expressible {ts : List Todo} (own : ∀ t ∈ ts, t.Expressible) : ts.map asWritten = ts :=
  (List.map_congr_left fun t mem => asWritten_eq_self_iff.mpr (own t mem)).trans (List.map_id' ts)

end Todo

end Workboard
