import Workboard.Json.Value
import Workboard.Proofs.Json.Text

/-!
What is printed is read back. The text of a value is a JSON text, and its tree is the tree of the value.
-/

namespace Workboard.Json

/-- No number goes on with the text. -/
def Closed (rest : Bytes) : Prop :=
  ∀ b ∈ rest.head?, isDigit b = false ∧ b ≠ 0x2E ∧ b ≠ 0x65 ∧ b ≠ 0x45

/-- A number whose text is read as it stands. -/
structure Number.Legible (n : Number) : Prop where
  head : ∃ b bs, n.toBytes = b :: bs ∧ (isDigit b = true ∨ b = 0x2D)
  read : ∀ rest, Closed rest → readNumber? (n.toBytes ++ rest) = some (n.toBytes, rest)

namespace Value

mutual

def Legible : Value → Prop
  | .number n => n.Legible
  | .array items => LegibleItems items
  | .object members => LegibleMembers members
  | _ => True

def LegibleItems : List Value → Prop
  | [] => True
  | v :: vs => v.Legible ∧ LegibleItems vs

def LegibleMembers : List (String × Value) → Prop
  | [] => True
  | (_, v) :: ms => v.Legible ∧ LegibleMembers ms

end

theorem legible_array {α : Type} {write : α → Value} {as : List α} (h : ∀ a ∈ as, (write a).Legible) :
    (array (as.map write)).Legible := by
  show LegibleItems (as.map write)
  induction as with
  | nil => trivial
  | cons a as ih => exact ⟨h a List.mem_cons_self, ih fun b hb => h b (List.mem_cons_of_mem a hb)⟩

theorem not_isSpace_of_isDigit {b : UInt8} (h : isDigit b = true) : isSpace b = false := by
  have range : 0x30 ≤ b.toNat ∧ b.toNat ≤ 0x39 := by
    simpa [isDigit, UInt8.le_iff_toNat_le] using h
  have other {c : UInt8} (hc : c.toNat < 0x30) : b ≠ c := by
    rintro rfl
    omega
  simp [isSpace, other (c := 0x20) (by decide), other (c := 0x0A) (by decide),
    other (c := 0x0D) (by decide), other (c := 0x09) (by decide)]

/-- A printed value begins with neither a blank nor a closing bracket. -/
theorem print_eq_cons {v : Value} (h : v.Legible) :
    ∃ b bs, v.print = b :: bs ∧ isSpace b = false ∧ b ≠ 0x5D := by
  cases v with
  | null => exact ⟨_, _, rfl, rfl, nofun⟩
  | bool b => cases b <;> exact ⟨_, _, rfl, rfl, nofun⟩
  | number n =>
    obtain ⟨b, bs, he, digit | rfl⟩ := h.head
    · refine ⟨b, bs, he, not_isSpace_of_isDigit digit, ?_⟩
      rintro rfl
      cases digit
    · exact ⟨_, bs, he, rfl, nofun⟩
  | string s => exact ⟨_, _, rfl, rfl, nofun⟩
  | array items => exact ⟨_, _, rfl, rfl, nofun⟩
  | object members => exact ⟨_, _, rfl, rfl, nofun⟩

theorem skipSpace_cons {b : UInt8} (h : isSpace b = false) (bs : Bytes) :
    skipSpace (b :: bs) = b :: bs := by
  simp [skipSpace, h]

theorem readNode?_number {n : Number} (h : n.Legible) {rest : Bytes} (closed : Closed rest)
    (fuel : Nat) : readNode? (fuel + 1) (n.toBytes ++ rest) = some (.number n.toBytes, rest) := by
  obtain ⟨b, bs, he, hb⟩ := h.head
  have read := h.read rest closed
  have blank : isSpace b = false := by
    rcases hb with digit | rfl
    · exact not_isSpace_of_isDigit digit
    · rfl
  have other {c : UInt8} (hd : isDigit c = false) (hm : c ≠ 0x2D) : b ≠ c := by
    rintro rfl
    rcases hb with digit | rfl
    · simp [hd] at digit
    · exact hm rfl
  rw [he, List.cons_append] at read ⊢
  rw [readNode?, skipSpace_cons blank]
  simp [other (c := 0x22) rfl nofun, other (c := 0x7B) rfl nofun, other (c := 0x5B) rfl nofun,
    other (c := 0x6E) rfl nofun, other (c := 0x74) rfl nofun, other (c := 0x66) rfl nofun, read]

theorem closed_cons {b : UInt8} (other : isDigit b = false ∧ b ≠ 0x2E ∧ b ≠ 0x65 ∧ b ≠ 0x45) (rest : Bytes) :
    Closed (b :: rest) := by
  rintro c ⟨⟩
  exact other

def ReadsNodes (fuel : Nat) : Prop :=
  ∀ v : Value, v.Legible → ∀ rest, Closed rest → v.print.length ≤ fuel →
    readNode? fuel (v.print ++ rest) = some (v.toNode, rest)

def ReadsItems (fuel : Nat) : Prop :=
  ∀ vs, vs ≠ [] → LegibleItems vs → ∀ rest, (printItems vs).length ≤ fuel →
    readItems? fuel (printItems vs ++ rest) = some (itemNodes vs, rest)

def ReadsMembers (fuel : Nat) : Prop :=
  ∀ ms, ms ≠ [] → LegibleMembers ms → ∀ rest, (printMembers ms).length ≤ fuel →
    readMembers? fuel (printMembers ms ++ rest) = some (memberNodes ms, rest)

theorem printItems_eq_cons {v : Value} (vs : List Value) (h : v.Legible) (rest : Bytes) :
    ∃ b bs, printItems (v :: vs) ++ rest = b :: bs ∧ isSpace b = false ∧ b ≠ 0x5D := by
  obtain ⟨b, bs, he, hb⟩ := print_eq_cons h
  rcases vs with _ | ⟨w, vs⟩
  · exact ⟨b, bs ++ 0x5D :: rest, by simp [printItems, he], hb⟩
  · exact ⟨b, bs ++ 0x2C :: printItems (w :: vs) ++ rest, by simp [printItems, he], hb⟩

theorem printMembers_eq_cons (m : String × Value) (ms : List (String × Value)) (rest : Bytes) :
    ∃ bs, printMembers (m :: ms) ++ rest = 0x22 :: bs := by
  obtain ⟨name, v⟩ := m
  rcases ms with _ | ⟨w, ms⟩
  · exact ⟨_, by simp [printMembers, quote]; rfl⟩
  · exact ⟨_, by simp [printMembers, quote]; rfl⟩

theorem readsNodes_succ {fuel : Nat} (items : ReadsItems fuel) (members : ReadsMembers fuel) :
    ReadsNodes (fuel + 1) := by
  intro v h rest closed enough
  cases v with
  | null => simp [readNode?, print, toNode, skipSpace, isSpace, readWord?]
  | bool b => cases b <;> simp [readNode?, print, toNode, skipSpace, isSpace, readWord?]
  | number n => exact readNode?_number h closed fuel
  | string s => simp [readNode?, print, quote, toNode, skipSpace, isSpace, readString?_escape]
  | array vs =>
    rcases vs with _ | ⟨v, vs⟩
    · simp [readNode?, print, printItems, toNode, itemNodes, skipSpace, isSpace]
    · obtain ⟨b, bs, he, blank, other⟩ := printItems_eq_cons vs h.1 rest
      have short : (printItems (v :: vs)).length ≤ fuel := by simpa [print] using enough
      have read := items (v :: vs) nofun h rest short
      rw [he] at read
      simp [readNode?, print, toNode, he, skipSpace_cons blank, other, read,
        skipSpace_cons (b := 0x5B) rfl]
  | object ms =>
    rcases ms with _ | ⟨m, ms⟩
    · simp [readNode?, print, printMembers, toNode, memberNodes, skipSpace, isSpace]
    · obtain ⟨bs, he⟩ := printMembers_eq_cons m ms rest
      have short : (printMembers (m :: ms)).length ≤ fuel := by simpa [print] using enough
      have read := members (m :: ms) nofun h rest short
      rw [he] at read
      simp [readNode?, print, toNode, he, read, skipSpace_cons (b := 0x7B) rfl,
        skipSpace_cons (b := 0x22) rfl]

theorem readsItems_succ {fuel : Nat} (nodes : ReadsNodes fuel) (items : ReadsItems fuel) :
    ReadsItems (fuel + 1) := by
  intro vs some_item h rest enough
  rcases vs with _ | ⟨v, _ | ⟨w, vs⟩⟩
  · exact absurd rfl some_item
  · have short : v.print.length ≤ fuel := by simpa [printItems] using enough
    have first := nodes v h.1 (0x5D :: rest) (closed_cons (by decide) rest) short
    simp [readItems?, printItems, itemNodes, first, skipSpace_cons (b := 0x5D) rfl]
  · simp only [printItems, List.length_append, List.length_cons] at enough
    have first := nodes v h.1 (0x2C :: (printItems (w :: vs) ++ rest)) (closed_cons (by decide) _) (by omega)
    have others := items (w :: vs) nofun h.2 rest (by omega)
    simp only [printItems, itemNodes, List.append_assoc, List.cons_append] at first others ⊢
    simp [readItems?, first, others, skipSpace_cons (b := 0x2C) rfl]

theorem readsMembers_succ {fuel : Nat} (nodes : ReadsNodes fuel) (members : ReadsMembers fuel) :
    ReadsMembers (fuel + 1) := by
  intro ms some_member h rest enough
  rcases ms with _ | ⟨⟨name, v⟩, _ | ⟨m, ms⟩⟩
  · exact absurd rfl some_member
  · simp only [printMembers, quote, List.length_append, List.length_cons] at enough
    have first := nodes v h.1 (0x7D :: rest) (closed_cons (by decide) rest) (by omega)
    simp [readMembers?, printMembers, quote, memberNodes, first, readString?_escape,
      skipSpace_cons (b := 0x22) rfl, skipSpace_cons (b := 0x3A) rfl, skipSpace_cons (b := 0x7D) rfl]
  · simp only [printMembers, quote, List.length_append, List.length_cons] at enough
    have first := nodes v h.1 (0x2C :: (printMembers (m :: ms) ++ rest)) (closed_cons (by decide) _) (by omega)
    have others := members (m :: ms) nofun h.2 rest (by omega)
    simp only [memberNodes] at others ⊢
    simp [readMembers?, printMembers, quote, first, others, readString?_escape,
      skipSpace_cons (b := 0x22) rfl, skipSpace_cons (b := 0x3A) rfl, skipSpace_cons (b := 0x2C) rfl]

theorem reads (fuel : Nat) : ReadsNodes fuel ∧ ReadsItems fuel ∧ ReadsMembers fuel := by
  induction fuel with
  | zero =>
    refine ⟨?_, ?_, ?_⟩
    · intro v h rest _ short
      obtain ⟨b, bs, he, -⟩ := print_eq_cons h
      simp [he] at short
    · intro vs some_item h rest short
      obtain ⟨v, vs, rfl⟩ := List.exists_cons_of_ne_nil some_item
      obtain ⟨b, bs, he, -⟩ := printItems_eq_cons vs h.1 []
      rw [List.append_nil] at he
      simp [he] at short
    · intro ms some_member h rest short
      obtain ⟨m, ms, rfl⟩ := List.exists_cons_of_ne_nil some_member
      obtain ⟨bs, he⟩ := printMembers_eq_cons m ms []
      rw [List.append_nil] at he
      simp [he] at short
  | succ fuel ih =>
    obtain ⟨nodes, items, members⟩ := ih
    exact ⟨readsNodes_succ items members, readsItems_succ nodes items,
      readsMembers_succ nodes members⟩

/-- The text of a value is a JSON text, and its tree is the tree of the value. -/
theorem ofBytes?_print {v : Value} (h : v.Legible) : Node.ofBytes? v.print = some v.toNode := by
  have nothing : Closed [] := nofun
  have read := (reads (2 * v.print.length + 1)).1 v h [] nothing (by omega)
  rw [List.append_nil] at read
  simp [Node.ofBytes?, read, skipSpace]

end Value

end Workboard.Json
