import Workboard.Json.Value
import Workboard.Proofs.Json.Fields
import Workboard.Proofs.Json.Members
import Workboard.Proofs.Json.Number

/-!
A value that was read from a text with whole numbers is read from its own text again, at each limit that its
depth keeps and at no other.
-/

namespace Workboard.Json

namespace Value

mutual

/-- What reading makes of a text with whole numbers: members in order, and none of them twice. -/
def Settled : Value → Prop
  | .number n => n.Whole
  | .array items => SettledItems items
  | .object members => Rising members ∧ SettledMembers members
  | _ => True

def SettledItems : List Value → Prop
  | [] => True
  | v :: vs => v.Settled ∧ SettledItems vs

def SettledMembers : List (String × Value) → Prop
  | [] => True
  | (_, v) :: ms => v.Settled ∧ SettledMembers ms

end

theorem settledItems_iff {vs : List Value} : SettledItems vs ↔ ∀ v ∈ vs, v.Settled := by
  induction vs with
  | nil => simp [SettledItems]
  | cons v vs ih => simp [SettledItems, ih]

theorem settledMembers_iff {ms : List (String × Value)} : SettledMembers ms ↔ ∀ m ∈ ms, m.2.Settled := by
  induction ms with
  | nil => simp [SettledMembers]
  | cons m ms ih => simp [SettledMembers, ih]

theorem itemsDepth_le_iff {vs : List Value} {d : Nat} : itemsDepth vs ≤ d ↔ ∀ v ∈ vs, v.depth ≤ d := by
  induction vs with
  | nil => simp [itemsDepth]
  | cons v vs ih => rw [itemsDepth, Nat.max_le, ih, List.forall_mem_cons]

theorem membersDepth_le_iff {ms : List (String × Value)} {d : Nat} :
    membersDepth ms ≤ d ↔ ∀ m ∈ ms, m.2.depth ≤ d := by
  induction ms with
  | nil => simp [membersDepth]
  | cons m ms ih => rw [membersDepth, Nat.max_le, ih, List.forall_mem_cons]

mutual

theorem Settled.legible : ∀ {v : Value}, v.Settled → v.Legible
  | .null, _ | .bool _, _ | .string _, _ => trivial
  | .number _, whole => Number.Whole.legible whole
  | .array _, settled => SettledItems.legible settled
  | .object _, settled => SettledMembers.legible settled.2

theorem SettledItems.legible : ∀ {vs : List Value}, SettledItems vs → LegibleItems vs
  | [], _ => trivial
  | _ :: _, settled => ⟨settled.1.legible, SettledItems.legible settled.2⟩

theorem SettledMembers.legible : ∀ {ms : List (String × Value)}, SettledMembers ms → LegibleMembers ms
  | [], _ => trivial
  | (_, _) :: _, settled => ⟨settled.1.legible, SettledMembers.legible settled.2⟩

end

theorem mem_of_mapM_eq_some {α β : Type} {f : α → Option β} {as : List α} {bs : List β}
    (all : as.mapM f = some bs) {b : β} (mem : b ∈ bs) : ∃ a ∈ as, f a = some b := by
  induction as generalizing bs with
  | nil =>
    cases all
    cases mem
  | cons a as ih =>
    rw [List.mapM_cons] at all
    obtain ⟨first, read, rest⟩ := Option.bind_eq_some_iff.mp all
    obtain ⟨others, readAll, same⟩ := Option.bind_eq_some_iff.mp rest
    cases same
    rcases List.mem_cons.mp mem with rfl | behind
    · exact ⟨a, List.mem_cons_self, read⟩
    · obtain ⟨c, hc, readThis⟩ := ih readAll behind
      exact ⟨c, List.mem_cons_of_mem a hc, readThis⟩

theorem mem_itemNumbers {nodes : List Node} {v : Node} (mem : v ∈ nodes) {w : Bytes} (hw : w ∈ v.numbers) :
    w ∈ Node.itemNumbers nodes := by
  induction nodes with
  | nil => cases mem
  | cons n nodes ih =>
    rw [Node.itemNumbers, List.mem_append]
    rcases List.mem_cons.mp mem with rfl | behind
    · exact .inl hw
    · exact .inr (ih behind)

theorem mem_memberNumbers {nodes : List (Bytes × Node)} {m : Bytes × Node} (mem : m ∈ nodes) {w : Bytes}
    (hw : w ∈ m.2.numbers) : w ∈ Node.memberNumbers nodes := by
  induction nodes with
  | nil => cases mem
  | cons n nodes ih =>
    obtain ⟨name, v⟩ := n
    rw [Node.memberNumbers, List.mem_append]
    rcases List.mem_cons.mp mem with rfl | behind
    · exact .inl hw
    · exact .inr (ih behind)

/-- What is read at the limit of zero nests nothing, and is read alike at every limit. -/
theorem settled_of_ofNode?_zero {v : Node} {x : Value} (read : ofNode? 0 v = some x)
    (whole : ∀ w ∈ v.numbers, Number.isWhole w = true) : x.Settled ∧ ∀ e, x.depth ≤ e := by
  cases v with
  | number w =>
    obtain ⟨n, made, isWhole⟩ := Number.whole_of_isWhole (whole w List.mem_cons_self)
    rw [ofNode?, made] at read
    cases read
    exact ⟨isWhole, Nat.zero_le⟩
  | string body =>
    obtain ⟨s, -, rfl⟩ := Option.map_eq_some_iff.mp read
    exact ⟨trivial, Nat.zero_le⟩
  | null | bool b =>
    cases read
    exact ⟨trivial, Nat.zero_le⟩
  | array items | object members => cases read

/-- Reading keeps to its limit; it settles what it reads. -/
theorem settled_of_ofNode? {d : Nat} {v : Node} {x : Value} (read : ofNode? d v = some x)
    (whole : ∀ w ∈ v.numbers, Number.isWhole w = true) : x.Settled ∧ x.depth ≤ d := by
  -- on the limit, which each array and each object lowers by one
  induction d generalizing v x with
  | zero => exact (settled_of_ofNode?_zero read whole).imp_right (· 0)
  | succ d ih =>
    cases v with
    | null => exact (settled_of_ofNode?_zero (v := .null) read whole).imp_right (· (d + 1))
    | bool b => exact (settled_of_ofNode?_zero (v := .bool b) read whole).imp_right (· (d + 1))
    | number w => exact (settled_of_ofNode?_zero (v := .number w) read whole).imp_right (· (d + 1))
    | string body => exact (settled_of_ofNode?_zero (v := .string body) read whole).imp_right (· (d + 1))
    | array items =>
      obtain ⟨vs, all, rfl⟩ := Option.map_eq_some_iff.mp read
      have each : ∀ v ∈ vs, v.Settled ∧ v.depth ≤ d := by
        intro v mem
        obtain ⟨node, inside, readThis⟩ := mem_of_mapM_eq_some all mem
        exact ih readThis fun w hw => whole w (mem_itemNumbers inside hw)
      exact ⟨settledItems_iff.mpr fun v mem => (each v mem).1,
        Nat.succ_le_succ (itemsDepth_le_iff.mpr fun v mem => (each v mem).2)⟩
    | object members =>
      obtain ⟨ms, all, rfl⟩ := Option.map_eq_some_iff.mp read
      have each : ∀ m ∈ sortMembers ms, m.2.Settled ∧ m.2.depth ≤ d := by
        intro m mem
        obtain ⟨node, inside, readThis⟩ := mem_of_mapM_eq_some all (mem_sortMembers mem)
        obtain ⟨name, -, rest⟩ := Option.bind_eq_some_iff.mp readThis
        obtain ⟨v, readValue, same⟩ := Option.bind_eq_some_iff.mp rest
        cases same
        exact ih readValue fun w hw => whole w (mem_memberNumbers inside hw)
      exact ⟨⟨rising_sortMembers ms, settledMembers_iff.mpr fun m mem => (each m mem).1⟩,
        Nat.succ_le_succ (membersDepth_le_iff.mpr fun m mem => (each m mem).2)⟩

/-- That a value is read from its own tree at one limit. -/
def ReadsBack (d : Nat) (v : Value) : Prop := ofNode? d v.toNode = if v.depth ≤ d then some v else none

theorem mapM_itemNodes {d : Nat} {vs : List Value} (each : ∀ v ∈ vs, v.ReadsBack d) :
    (itemNodes vs).mapM (ofNode? d) = if itemsDepth vs ≤ d then some vs else none := by
  induction vs with
  | nil => rfl
  | cons v vs ih =>
    have first : ofNode? d v.toNode = _ := each v List.mem_cons_self
    have others := ih fun w mem => each w (List.mem_cons_of_mem v mem)
    rw [itemNodes, List.mapM_cons, first, others, itemsDepth]
    simp only [Nat.max_le]
    by_cases fits : v.depth ≤ d <;> by_cases fit : itemsDepth vs ≤ d <;> simp [fits, fit]

theorem mapM_memberNodes {d : Nat} {ms : List (String × Value)} (each : ∀ m ∈ ms, m.2.ReadsBack d) :
    ((memberNodes ms).mapM fun (name, v) => do
      let name ← textOfBody? name
      let v ← ofNode? d v
      some (name, v)) = if membersDepth ms ≤ d then some ms else none := by
  induction ms with
  | nil => rfl
  | cons m ms ih =>
    obtain ⟨name, v⟩ := m
    have first : ofNode? d v.toNode = _ := each (name, v) List.mem_cons_self
    have others := ih fun n mem => each n (List.mem_cons_of_mem _ mem)
    rw [memberNodes, List.mapM_cons, others, membersDepth]
    simp only [textOfBody?_escape, first, Nat.max_le]
    by_cases fits : v.depth ≤ d <;> by_cases fit : membersDepth ms ≤ d <;> simp [fits, fit]

theorem Settled.readsBack {d : Nat} {v : Value} (settled : v.Settled) : v.ReadsBack d := by
  induction d generalizing v with
  | zero =>
    cases v with
    | null | bool b => rfl
    | string s => simp [ReadsBack, toNode, ofNode?, depth]
    | number n => simp [ReadsBack, toNode, ofNode?, depth, Number.Whole.ofWritten? settled]
    | array items | object members => simp [ReadsBack, toNode, ofNode?, depth]
  | succ d ih =>
    cases v with
    | null | bool b => rfl
    | string s => simp [ReadsBack, toNode, ofNode?, depth]
    | number n => simp [ReadsBack, toNode, ofNode?, depth, Number.Whole.ofWritten? settled]
    | array vs =>
      have all := mapM_itemNodes fun v mem => ih (settledItems_iff.mp settled v mem)
      rw [ReadsBack, toNode, ofNode?, all, depth]
      by_cases fits : itemsDepth vs ≤ d <;> simp [fits]
    | object ms =>
      have all := mapM_memberNodes fun m mem => ih (settledMembers_iff.mp settled.2 m mem)
      rw [ReadsBack, toNode, ofNode?, all, depth]
      by_cases fits : membersDepth ms ≤ d <;> simp [fits, sortMembers_of_rising settled.1]

theorem depth_nest (n : Nat) : (nest n).depth = n + 1 := by
  induction n with
  | zero => rfl
  | succ n ih => simp [nest, depth, itemsDepth, ih]

theorem settled_nest (n : Nat) : (nest n).Settled := by
  induction n with
  | zero => trivial
  | succ n ih => exact ⟨ih, trivial⟩

theorem numbers_nest (n : Nat) : (nest n).toNode.numbers = [] := by
  induction n with
  | zero => rfl
  | succ n ih => simp [nest, toNode, itemNodes, Node.numbers, Node.itemNumbers, ih]

theorem print_nest (n : Nat) :
    (nest n).print = List.replicate (n + 1) 0x5B ++ List.replicate (n + 1) 0x5D := by
  induction n with
  | zero => rfl
  | succ n ih =>
    rw [nest, print, printItems, ih, List.append_assoc, ← List.replicate_succ', ← List.cons_append]
    rfl

end Value

end Workboard.Json
