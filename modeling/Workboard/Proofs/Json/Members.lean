import Mathlib.Data.List.Nodup
import Workboard.Json.Fields

/-!
Members of objects that are sorted by their names. Sorting puts members with distinct names into another order
and does nothing else, and what is found under a name does not depend on the order.
-/

namespace Workboard.Json

variable {α β : Type} {name : String} {ms ns : List (String × α)}

theorem find?_putMember (name : String) (v : α) (members : List (String × α)) :
    (putMember name v members).find? (fun e => e.1 = name) = some (name, v) := by
  induction members with
  | nil => simp [putMember]
  | cons m members ih =>
    rw [putMember]
    split
    · simp
    · split
      · simp
      next other _ =>
        rw [List.find?_cons_of_neg (by simpa using Ne.symm other)]
        exact ih

theorem find?_putMember_of_ne {other : String} (apart : other ≠ name) (v : α)
    (members : List (String × α)) :
    (putMember name v members).find? (fun e => e.1 = other) = members.find? fun e => e.1 = other := by
  have skips (rest : List (String × α)) :
      ((name, v) :: rest).find? (fun e => e.1 = other) = rest.find? fun e => e.1 = other :=
    List.find?_cons_of_neg (by simpa using apart.symm)
  induction members with
  | nil => exact skips []
  | cons m members ih =>
    obtain ⟨n, w⟩ := m
    rw [putMember]
    split
    next same =>
      subst same
      rw [skips, List.find?_cons_of_neg (by simpa using apart.symm)]
    · split
      · exact skips _
      · rw [List.find?_cons, List.find?_cons, ih]

theorem putMember_perm (v : α) (new : name ∉ ms.map (·.1)) :
    (putMember name v ms).Perm ((name, v) :: ms) := by
  induction ms with
  | nil => exact .refl _
  | cons m ms ih =>
    obtain ⟨n, w⟩ := m
    obtain ⟨other, new⟩ := not_or.mp (mt List.mem_cons.mpr new)
    rw [putMember, if_neg other]
    split
    · exact .refl _
    · exact ((ih new).cons _).trans (.swap _ _ _)

/-- Members that all have names of their own are kept by sorting. -/
theorem sortMembers_perm (distinct : (ms.map (·.1)).Nodup) : (sortMembers ms).Perm ms := by
  have onto : ∀ (rest acc : List (String × α)), ((rest ++ acc).map (·.1)).Nodup →
      (rest.foldl (fun acc m => putMember m.1 m.2 acc) acc).Perm (rest ++ acc) := by
    intro rest
    induction rest with
    | nil => exact fun acc _ => .refl acc
    | cons m rest ih =>
      intro acc distinct
      obtain ⟨n, v⟩ := m
      have split : ((n, v) :: rest ++ acc).Perm (rest ++ (n, v) :: acc) := List.perm_middle.symm
      have apart := (split.map (·.1)).nodup_iff.mp distinct
      have new : n ∉ acc.map (·.1) := by
        rw [List.map_append, List.map_cons] at apart
        exact (List.nodup_cons.mp apart.of_append_right).1
      have put := (putMember_perm v new).append_left rest
      exact (ih _ ((put.map (·.1)).nodup_iff.mpr apart)).trans (put.trans split.symm)
  have all := onto ms [] (by simpa using distinct)
  rwa [List.append_nil] at all

theorem mem_putMember {v : α} {m : String × α} (mem : m ∈ putMember name v ms) : m = (name, v) ∨ m ∈ ms := by
  induction ms with
  | nil => exact .inl (List.mem_singleton.mp mem)
  | cons n ms ih =>
    rw [putMember] at mem
    split at mem
    · exact (List.mem_cons.mp mem).imp_right (List.mem_cons_of_mem n)
    · split at mem
      · exact List.mem_cons.mp mem
      · rcases List.mem_cons.mp mem with rfl | behind
        · exact .inr List.mem_cons_self
        · exact (ih behind).imp_right (List.mem_cons_of_mem n)

theorem mem_sortMembers {m : String × α} (mem : m ∈ sortMembers ms) : m ∈ ms := by
  have onto : ∀ rest acc : List (String × α),
      m ∈ rest.foldl (fun acc m => putMember m.1 m.2 acc) acc → m ∈ rest ∨ m ∈ acc := by
    intro rest
    induction rest with
    | nil => exact fun _ => .inr
    | cons n rest ih =>
      intro acc mem
      rcases ih _ mem with later | before
      · exact .inl (List.mem_cons_of_mem n later)
      · rcases mem_putMember before with rfl | old
        · exact .inl List.mem_cons_self
        · exact .inr old
  exact (onto ms [] mem).resolve_right List.not_mem_nil

/-- Members whose names rise, so that none repeats. -/
def Rising (ms : List (String × α)) : Prop := ms.Pairwise fun m n => m.1 < n.1

theorem rising_putMember (v : α) (rises : Rising ms) : Rising (putMember name v ms) := by
  induction ms with
  | nil => exact List.pairwise_singleton _ _
  | cons m ms ih =>
    obtain ⟨above, rest⟩ := List.pairwise_cons.mp rises
    rw [putMember]
    split
    next same => exact List.pairwise_cons.mpr ⟨same ▸ above, rest⟩
    next other =>
      split
      next below =>
        refine List.pairwise_cons.mpr ⟨fun n mem => ?_, rises⟩
        rcases List.mem_cons.mp mem with rfl | behind
        · exact below
        · exact Std.lt_trans below (above n behind)
      next notBelow =>
        have between : m.1 < name := Std.lt_of_le_of_ne (Std.not_lt.mp notBelow) (Ne.symm other)
        refine List.pairwise_cons.mpr ⟨fun n mem => ?_, ih rest⟩
        rcases mem_putMember mem with rfl | old
        · exact between
        · exact above n old

theorem rising_sortMembers (ms : List (String × α)) : Rising (sortMembers ms) := by
  have onto : ∀ rest acc : List (String × α), Rising acc →
      Rising (rest.foldl (fun acc m => putMember m.1 m.2 acc) acc) := by
    intro rest
    induction rest with
    | nil => exact fun _ rises => rises
    | cons m rest ih => exact fun acc rises => ih _ (rising_putMember m.2 rises)
  exact onto ms [] .nil

theorem putMember_of_above {v : α} (above : ∀ m ∈ ms, m.1 < name) :
    putMember name v ms = ms ++ [(name, v)] := by
  induction ms with
  | nil => rfl
  | cons m ms ih =>
    have below : m.1 < name := above m List.mem_cons_self
    have other : name ≠ m.1 := fun same => Std.lt_irrefl (same ▸ below)
    have notBelow : ¬ name < m.1 := fun back => Std.lt_irrefl (Std.lt_trans below back)
    rw [putMember, if_neg other, if_neg notBelow, ih fun n mem => above n (List.mem_cons_of_mem m mem),
      List.cons_append]

/-- Sorting leaves members as they are that are in order. -/
theorem sortMembers_of_rising (rises : Rising ms) : sortMembers ms = ms := by
  have onto : ∀ rest acc : List (String × α), Rising (acc ++ rest) →
      rest.foldl (fun acc m => putMember m.1 m.2 acc) acc = acc ++ rest := by
    intro rest
    induction rest with
    | nil => exact fun acc _ => (List.append_nil acc).symm
    | cons m rest ih =>
      intro acc rises
      have before : ∀ n ∈ acc, n.1 < m.1 := fun n mem =>
        (List.pairwise_append.mp rises).2.2 n mem m List.mem_cons_self
      rw [List.foldl_cons, putMember_of_above before, ih _ (by simpa using rises), List.append_assoc]
      rfl
  exact onto ms [] rises

theorem putMember_map (f : α → β) (name : String) (v : α) (ms : List (String × α)) :
    putMember name (f v) (ms.map fun m => (m.1, f m.2)) =
      (putMember name v ms).map fun m => (m.1, f m.2) := by
  induction ms with
  | nil => rfl
  | cons m ms ih =>
    rw [List.map_cons, putMember, putMember]
    split
    · rfl
    · split
      · rfl
      · rw [ih, List.map_cons]

theorem sortMembers_map (f : α → β) (ms : List (String × α)) :
    sortMembers (ms.map fun m => (m.1, f m.2)) = (sortMembers ms).map fun m => (m.1, f m.2) := by
  have onto : ∀ rest acc : List (String × α),
      (rest.map fun m => (m.1, f m.2)).foldl (fun acc m => putMember m.1 m.2 acc)
          (acc.map fun m => (m.1, f m.2)) =
        (rest.foldl (fun acc m => putMember m.1 m.2 acc) acc).map fun m => (m.1, f m.2) := by
    intro rest
    induction rest with
    | nil => exact fun _ => rfl
    | cons m rest ih =>
      intro acc
      have put := putMember_map f m.1 m.2 acc
      rw [List.map_cons, List.foldl_cons, List.foldl_cons]
      exact put ▸ ih _
  exact onto ms []

theorem find?_eq_some_iff_mem (distinct : (ms.map (·.1)).Nodup) {m : String × α} :
    ms.find? (fun e => e.1 = name) = some m ↔ m ∈ ms ∧ m.1 = name := by
  constructor
  · exact fun found => ⟨List.mem_of_find?_eq_some found, by simpa using List.find?_some found⟩
  · rintro ⟨hm, rfl⟩
    rcases found : ms.find? fun e => e.1 = m.1 with _ | n
    · have unlike := List.find?_eq_none.mp found m hm
      simp at unlike
    · have same : n.1 = m.1 := by simpa using List.find?_some found
      rw [found, List.inj_on_of_nodup_map distinct (List.mem_of_find?_eq_some found) hm same]

/-- Where names are distinct, the order of members makes no difference to what is found under a name. -/
theorem find?_of_perm (same : ms.Perm ns) (distinct : (ms.map (·.1)).Nodup) (name : String) :
    ms.find? (fun e => e.1 = name) = ns.find? fun e => e.1 = name := by
  have others := (same.map (·.1)).nodup_iff.mp distinct
  ext m
  rw [find?_eq_some_iff_mem distinct, find?_eq_some_iff_mem others, same.mem_iff]

/-- Of several members with one name the last is found among the sorted ones. -/
theorem find?_sortMembers (name : String) (ms : List (String × α)) :
    (sortMembers ms).find? (fun e => e.1 = name) = (ms.filter fun e => e.1 = name).getLast? := by
  have onto : ∀ rest acc : List (String × α),
      (rest.foldl (fun acc m => putMember m.1 m.2 acc) acc).find? (fun e => e.1 = name) =
        (rest.filter fun e => e.1 = name).getLast?.or (acc.find? fun e => e.1 = name) := by
    intro rest
    induction rest with
    | nil => exact fun _ => rfl
    | cons m rest ih =>
      intro acc
      obtain ⟨n, v⟩ := m
      rw [List.foldl_cons, ih]
      by_cases same : n = name
      · subst same
        rw [find?_putMember, List.filter_cons_of_pos (by simp), List.getLast?_cons]
        cases (rest.filter fun e => e.1 = n).getLast? <;> rfl
      · rw [find?_putMember_of_ne (Ne.symm same), List.filter_cons_of_neg (by simpa using same)]
  rw [sortMembers, onto ms []]
  exact Option.or_none

/-- Named fields are read alike in every order. -/
theorem Fields.get?_of_perm {found other : List (String × Node)} (same : found.Perm other)
    (distinct : (found.map (·.1)).Nodup) : get? (.named found) = get? (.named other) := by
  funext place name
  rw [get?, get?, find?_of_perm same distinct]

end Workboard.Json
