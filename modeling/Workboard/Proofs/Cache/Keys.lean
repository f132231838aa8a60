import Workboard.Proofs.Uuid
import Workboard.Service.CachedTodos

/-!
Keys of the cache. A key joins its parts by colons, and parts that have no colon of their own are read back from it. So
keys that are built in different ways, or from different parts, are different.
-/

namespace Workboard

/-- What a key is built from. -/
inductive CacheName where
  | entity (kind id : String)
  | query (name : String) (params : List String)
  | tag (kind id : String)
  | revision (scope : String)
  deriving DecidableEq

namespace CacheKey

theorem full_injective {root a b : String} (h : full root a = full root b) : a = b := by
  unfold full at h
  split at h
  · exact h
  · exact (String.append_right_inj _).mp h

/-- Parameters are added to the parts that a key has so far. -/
theorem foldl_intercalate {parts : List String} (some_part : parts ≠ []) (params : List String) :
    params.foldl (fun key p => key ++ ":" ++ p) (":".intercalate parts) = ":".intercalate (parts ++ params) := by
  induction params generalizing parts with
  | nil => rw [List.append_nil, List.foldl_nil]
  | cons p params ih =>
    have one : ":".intercalate parts ++ ":" ++ p = ":".intercalate (parts ++ [p]) := by
      rw [String.intercalate_append_of_ne_nil some_part (List.cons_ne_nil p []), String.intercalate_singleton]
    rw [List.foldl_cons, one, ih (List.append_ne_nil_of_left_ne_nil some_part [p]), List.append_assoc]
    rfl

/-- Parts without colons are read back from the text that joins them. -/
theorem intercalate_injective {parts others : List String} (some_part : parts ≠ []) (some_other : others ≠ [])
    (plain : ∀ part ∈ parts, ':' ∉ part.toList) (plain' : ∀ part ∈ others, ':' ∉ part.toList)
    (same : ":".intercalate parts = ":".intercalate others) : parts = others := by
  have split {ps : List String} (some_p : ps ≠ []) (plain : ∀ p ∈ ps, ':' ∉ p.toList) :
      List.splitOn ':' (":".intercalate ps).toList = ps.map String.toList := by
    rw [String.toList_intercalate]
    refine List.splitOn_intercalate ':' ?_ (by simpa using some_p)
    intro chars mem
    obtain ⟨p, inside, rfl⟩ := List.mem_map.mp mem
    exact plain p inside
  have texts : parts.map String.toList = others.map String.toList := by
    rw [← split some_part plain, same, split some_other plain']
  exact List.map_injective_iff.mpr (fun _ _ => String.toList_inj.mp) texts

end CacheKey

namespace CacheName

/-- The words with which keys other than those of entities begin. -/
def reserved : List String := ["q", "tag", "rev"]

def key : CacheName → String
  | entity kind id => CacheKey.entity kind id
  | query name params => CacheKey.query name params
  | tag kind id => CacheKey.tag kind id
  | revision scope => CacheKey.revision scope

/-- What the key was asked for with. -/
def arguments : CacheName → List String
  | entity kind id => [kind, id]
  | query name params => name :: params
  | tag kind id => [kind, id]
  | revision scope => [scope]

def entityKind? : CacheName → Option String
  | entity kind _ => some kind
  | _ => none

/-- No argument has a colon, and the kind of an entity is not a word that tells other keys apart. -/
structure Plain (n : CacheName) : Prop where
  arguments : ∀ part ∈ n.arguments, ':' ∉ part.toList
  kind : ∀ kind ∈ n.entityKind?, kind ∉ reserved

/-- Everything that stands between the colons of a key. -/
def parts : CacheName → List String
  | entity kind id => [kind, id]
  | query name params => "q" :: name :: params
  | tag kind id => ["tag", kind, id]
  | revision scope => ["rev", scope]

theorem parts_ne_nil (n : CacheName) : n.parts ≠ [] := by
  cases n <;> exact List.cons_ne_nil _ _

theorem key_eq_intercalate (n : CacheName) : n.key = ":".intercalate n.parts := by
  cases n with
  | entity kind id => simp [key, parts, CacheKey.entity]
  | query name params =>
    have joined := CacheKey.foldl_intercalate (List.cons_ne_nil "q" [name]) params
    rw [String.intercalate_cons_cons, String.intercalate_singleton] at joined
    exact joined
  | tag kind id => simp [key, parts, CacheKey.tag, String.append_assoc]
  | revision scope => simp [key, parts, CacheKey.revision]

theorem Plain.parts {n : CacheName} (plain : n.Plain) : ∀ part ∈ n.parts, ':' ∉ part.toList := by
  have own := plain.arguments
  cases n with
  | entity kind id => exact own
  | query name params | tag kind id | revision scope =>
    exact List.forall_mem_cons.mpr ⟨by decide, own⟩

/-- The first part tells how a key was built. -/
theorem eq_of_parts_eq {a b : CacheName} (ha : a.Plain) (hb : b.Plain) (same : a.parts = b.parts) : a = b := by
  have kindA := ha.kind
  have kindB := hb.kind
  cases a <;> cases b <;> simp_all [CacheName.parts, entityKind?, reserved]

theorem key_injective {a b : CacheName} (ha : a.Plain) (hb : b.Plain) (same : a.key = b.key) : a = b := by
  rw [key_eq_intercalate, key_eq_intercalate] at same
  exact eq_of_parts_eq ha hb
    (CacheKey.intercalate_injective a.parts_ne_nil b.parts_ne_nil ha.parts hb.parts same)

end CacheName

/-- What the cache of the service has a key for. -/
inductive TodoName where
  | todo (id : TodoId)
  | list (workspace : WorkspaceId)
  | tag (workspace : WorkspaceId)
  | revision (workspace : WorkspaceId)
  deriving DecidableEq

namespace TodoName

def key : TodoName → String
  | todo id => CachedTodos.todoKey id
  | list workspace => CachedTodos.listKey workspace
  | tag workspace => CachedTodos.workspaceTag workspace
  | revision workspace => CacheKey.revision workspace.toText

def name : TodoName → CacheName
  | todo id => .entity "todo" id.toText
  | list workspace => .query "todos_by_workspace" [workspace.toText]
  | tag workspace => .tag "workspace" workspace.toText
  | revision workspace => .revision workspace.toText

theorem key_name (n : TodoName) : n.name.key = n.key := by
  cases n <;> rfl

theorem plain_name (n : TodoName) : n.name.Plain := by
  constructor
  · have last (u : Uuid) : ∀ part ∈ [u.toText], ':' ∉ part.toList :=
      List.forall_mem_singleton.mpr u.colon_notMem_toText
    cases n with
    | todo id => exact List.forall_mem_cons.mpr ⟨by decide, last id.uuid⟩
    | list workspace => exact List.forall_mem_cons.mpr ⟨by decide, last workspace.uuid⟩
    | tag workspace => exact List.forall_mem_cons.mpr ⟨by decide, last workspace.uuid⟩
    | revision workspace => exact last workspace.uuid
  · cases n with
    | todo id =>
      rintro kind ⟨⟩
      decide
    | list workspace | tag workspace | revision workspace => exact nofun

theorem name_injective {a b : TodoName} (same : a.name = b.name) : a = b := by
  have todos {i j : TodoId} (h : i.toText = j.toText) : i = j := congrArg TodoId.mk (Uuid.toText_injective h)
  have workspaces {v w : WorkspaceId} (h : v.toText = w.toText) : v = w :=
    congrArg WorkspaceId.mk (Uuid.toText_injective h)
  cases a <;> cases b <;> simp only [name, CacheName.entity.injEq, CacheName.query.injEq, CacheName.tag.injEq,
    CacheName.revision.injEq, List.cons.injEq, true_and, and_true, reduceCtorEq] at same
  · rw [todos same]
  · rw [workspaces same]
  · rw [workspaces same]
  · rw [workspaces same]

theorem key_injective {a b : TodoName} (same : a.key = b.key) : a = b := by
  rw [← key_name a, ← key_name b] at same
  exact name_injective (CacheName.key_injective a.plain_name b.plain_name same)

end TodoName

/-- Full keys are the same only if they are built in the same way from the same parts, as long as no part has a colon and
no entity is of a kind that other keys begin with. Identifiers have no colons, so nothing that the service caches
shares its name with anything else. -/
theorem CacheAside.keys_apart {α : Type} (c : CacheAside α) :
    (∀ a b : CacheName, a.Plain → b.Plain → (c.fullKey a.key = c.fullKey b.key ↔ a = b)) ∧
      ∀ a b : TodoName, c.fullKey a.key = c.fullKey b.key ↔ a = b := by
  refine ⟨?_, ?_⟩
  · intro a b ha hb
    constructor
    · intro same
      exact CacheName.key_injective ha hb (CacheKey.full_injective same)
    · rintro rfl
      rfl
  · intro a b
    constructor
    · intro same
      exact TodoName.key_injective (CacheKey.full_injective same)
    · rintro rfl
      rfl

/-- The same words, cut in other ways: without a prefix, a query with two parameters is neither a query with one, nor
the tag or the entity of the same words. -/
theorem CacheAside.keys_apart_alike :
    let c : CacheAside Unit := .empty "" standardTagTtl
    let query : CacheName := .query "todos" ["open", ""]
    query.Plain ∧ (CacheName.query "todos" ["open"]).Plain ∧ (CacheName.tag "todos" "open").Plain ∧
      (CacheName.entity "todos" "open").Plain ∧
      c.fullKey query.key ≠ c.fullKey (CacheName.query "todos" ["open"]).key ∧
      c.fullKey query.key ≠ c.fullKey (CacheName.tag "todos" "open").key ∧
      c.fullKey query.key ≠ c.fullKey (CacheName.entity "todos" "open").key := by
  intro c query
  have plainQuery : query.Plain := ⟨by decide, nofun⟩
  have plainShorter : (CacheName.query "todos" ["open"]).Plain := ⟨by decide, nofun⟩
  have plainTag : (CacheName.tag "todos" "open").Plain := ⟨by decide, nofun⟩
  have plainEntity : (CacheName.entity "todos" "open").Plain := by
    constructor
    · decide
    · rintro kind ⟨⟩
      decide
  have apart := c.keys_apart.1 query
  refine ⟨plainQuery, plainShorter, plainTag, plainEntity, ?_, ?_, ?_⟩
  · exact mt (apart _ plainQuery plainShorter).mp (by decide)
  · exact mt (apart _ plainQuery plainTag).mp (by decide)
  · exact mt (apart _ plainQuery plainEntity).mp (by decide)

end Workboard
