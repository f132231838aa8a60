import Workboard.Proofs.Json.Depth

/-!
Objects as they are written, with every member that they have. A free-form value keeps of each name the last member,
sorted; a reader of named fields refuses a name that it knows and that repeats.
-/

namespace Workboard.Json

/-- A free-form object holds the members that are written, sorted, where of one name the last counts. -/
theorem Value.written?_of_ofBytes? {raw : Bytes} {ms : List (String × Value)}
    (read : ofBytes? raw = some (.object ms)) :
    ∃ members written, Node.ofBytes? raw = some (.object members) ∧ members.mapM (ofMember? (maxDepth - 1)) = some written ∧
      written? raw = some written ∧ ms = sortMembers written := by
  obtain ⟨tree, text, made⟩ := Option.bind_eq_some_iff.mp read
  cases tree with
  | object members =>
    obtain ⟨written, all, same⟩ := Option.map_eq_some_iff.mp made
    have listed : written? raw = some written := by
      rw [written?, text]
      exact all
    exact ⟨members, written, text, all, listed, (Value.object.inj same).symm⟩
  | null | bool b => cases made
  | number w | string body =>
    obtain ⟨_, _, other⟩ := Option.map_eq_some_iff.mp made
    cases other
  | array items =>
    obtain ⟨_, _, other⟩ := Option.map_eq_some_iff.mp made
    cases other

theorem Value.text?_of_ofNode? {d : Nat} {v : Node} {w : Value} (read : ofNode? d v = some w) :
    (v.optional? Node.text?).join = w.text? := by
  cases v with
  | null | bool b =>
    rw [ofNode?] at read
    cases read
    rfl
  | number n =>
    rw [ofNode?] at read
    obtain ⟨_, _, rfl⟩ := Option.map_eq_some_iff.mp read
    rfl
  | string body =>
    rw [ofNode?] at read
    obtain ⟨s, text, rfl⟩ := Option.map_eq_some_iff.mp read
    simp [Node.optional?, Node.isNull, Node.text?, text, Value.text?]
  | array items | object members =>
    cases d with
    | zero => cases read
    | succ d =>
      obtain ⟨_, _, rfl⟩ := Option.map_eq_some_iff.mp read
      rfl

theorem Value.text?_eq_some_iff {w : Value} {s : String} : w.text? = some s ↔ w = .string s := by
  cases w <;> simp [Value.text?]

theorem Value.object_of_member? {name : String} {v : Value} (some_member : (v.member? name).isSome = true) :
    ∃ ms, v = .object ms := by
  cases v with
  | object ms => exact ⟨ms, rfl⟩
  | _ => cases some_member

namespace Fields

/-- Read for one name, an object gives the member of that name, unless there are several. -/
theorem known?_of_ofMember? {d : Nat} {nodes : List (Bytes × Node)} {written : List (String × Value)}
    (all : nodes.mapM (Value.ofMember? d) = some written) (name : String) :
    ∃ found : List Node, List.Forall₂ (fun v w => Value.ofNode? d v = some w) found (membersNamed name written) ∧
      known? [name] nodes = if found.length ≤ 1 then some (found.map fun v => (name, v)) else none := by
  induction nodes generalizing written with
  | nil =>
    cases all
    exact ⟨[], .nil, rfl⟩
  | cons node nodes ih =>
    obtain ⟨key, v⟩ := node
    rw [List.mapM_cons] at all
    obtain ⟨⟨n, w⟩, member, rest⟩ := Option.bind_eq_some_iff.mp all
    obtain ⟨ws, others, same⟩ := Option.bind_eq_some_iff.mp rest
    cases same
    obtain ⟨n', text, valued⟩ := Option.bind_eq_some_iff.mp member
    obtain ⟨w', read, same⟩ := Option.bind_eq_some_iff.mp valued
    cases same
    obtain ⟨found, values, known⟩ := ih others
    by_cases own : n = name
    · subst own
      refine ⟨v :: found, ?_, ?_⟩
      · have first : membersNamed n ((n, w) :: ws) = w :: membersNamed n ws := by simp [membersNamed]
        rw [first]
        exact .cons read values
      · rcases found with _ | ⟨u, _ | ⟨u', found⟩⟩ <;> simp [known?, text, known]
    · refine ⟨found, ?_, ?_⟩
      · have skipped : membersNamed name ((n, w) :: ws) = membersNamed name ws := by simp [membersNamed, own]
        rwa [skipped]
      · have other : ([name].contains n) = false := by simpa using own
        simp only [known?, text, known, Option.bind_eq_bind, Option.bind_some, other, Bool.false_eq_true, if_false,
          Option.bind_fun_some]

/-- A reader that asks for other names too finds the same under one of them. -/
theorem known?_singleton {names : List String} {name : String} (asked : names.contains name = true)
    {nodes : List (Bytes × Node)} {found : List (String × Node)} (read : known? names nodes = some found) :
    known? [name] nodes = some (found.filter fun m => m.1 = name) := by
  induction nodes generalizing found with
  | nil =>
    cases read
    rfl
  | cons node nodes ih =>
    obtain ⟨key, v⟩ := node
    obtain ⟨n, text, rest⟩ := Option.bind_eq_some_iff.mp read
    obtain ⟨others, behind, made⟩ := Option.bind_eq_some_iff.mp rest
    have known := ih behind
    simp only [known?, text, known, Option.bind_eq_bind, Option.bind_some]
    by_cases own : n = name
    · subst own
      rw [if_pos asked] at made
      split at made
      next => cases made
      next once =>
        cases made
        have none_behind : others.filter (fun m => m.1 = n) = [] := by
          rw [List.filter_eq_nil_iff]
          intro m mem same
          exact once (List.any_eq_true.mpr ⟨m, mem, same⟩)
        simp [none_behind]
    · have other : ([name].contains n) = false := by simpa using own
      simp only [other, Bool.false_eq_true, if_false]
      split at made
      next =>
        split at made
        next => cases made
        next =>
          cases made
          rw [List.filter_cons_of_neg (by simpa using own)]
      next =>
        cases made
        rfl

theorem defaulted?_filter {α : Type} (found : List (String × Node)) (name : String) (read : Node → Option α)
    (place place' : Nat) :
    defaulted? (.named (found.filter fun m => m.1 = name)) place name read = defaulted? (.named found) place' name read := by
  have same : (found.filter fun m => m.1 = name).find? (fun m => m.1 = name) = found.find? fun m => m.1 = name := by
    rw [List.find?_filter]
    simp
  rw [defaulted?, defaulted?, get?, get?, same]

end Fields

end Workboard.Json
