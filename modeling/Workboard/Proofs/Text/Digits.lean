import Workboard.Text.Basic
import Mathlib.Algebra.Group.Nat.Defs
import Mathlib.Data.List.Basic

/-!
Numerals that are written are read back as the number that they were written for.
-/

namespace Workboard

theorem hexValue?_digitChar {n : Nat} (h : n < 16) : hexValue? (digitChar n) = some n := by
  have all : ∀ m : Fin 16, hexValue? (digitChar m) = some m.val := by decide
  exact all ⟨n, h⟩

theorem digitValue?_digitChar {n : Nat} (h : n < 10) : digitValue? (digitChar n) = some n := by
  have all : ∀ m : Fin 10, digitValue? (digitChar m) = some m.val := by decide
  exact all ⟨n, h⟩

theorem mapM_map_eq_some {α β γ : Type} {write : α → β} {read : β → Option γ} {back : α → γ} {as : List α}
    (h : ∀ a ∈ as, read (write a) = some (back a)) : (as.map write).mapM read = some (as.map back) := by
  induction as with
  | nil => rfl
  | cons a as ih =>
    have rest := ih fun b hb => h b (List.mem_cons_of_mem a hb)
    simp [List.mapM_cons, h a List.mem_cons_self, rest]

theorem ofDigits_append (b acc : Nat) (ds es : List Nat) :
    ofDigits b acc (ds ++ es) = ofDigits b (ofDigits b acc ds) es := by
  rw [ofDigits, List.foldl_append]
  rfl

@[simp] theorem ofDigits_singleton (b acc d : Nat) : ofDigits b acc [d] = acc * b + d := rfl

@[simp] theorem length_fixedDigits (b width n : Nat) : (fixedDigits b width n).length = width := by
  induction width generalizing n with
  | zero => rfl
  | succ width ih => simp [fixedDigits, ih]

theorem fixedDigits_lt {b : Nat} (hb : 0 < b) (width n : Nat) : ∀ d ∈ fixedDigits b width n, d < b := by
  induction width generalizing n with
  | zero => simp [fixedDigits]
  | succ width ih =>
    intro d hd
    rcases List.mem_append.mp hd with hd | hd
    · exact ih _ d hd
    · rw [List.mem_singleton.mp hd]
      exact Nat.mod_lt n hb

theorem ofDigits_fixedDigits {b width n : Nat} (h : n < b ^ width) :
    ofDigits b 0 (fixedDigits b width n) = n := by
  induction width generalizing n with
  | zero =>
    have hn : n = 0 := by simpa using h
    simp [hn, fixedDigits, ofDigits]
  | succ width ih =>
    have small : n / b < b ^ width := Nat.div_lt_of_lt_mul (by rwa [Nat.pow_succ'] at h)
    rw [fixedDigits, ofDigits_append, ih small, ofDigits_singleton, Nat.mul_comm]
    exact Nat.div_add_mod n b

theorem decimalDigits_lt (n : Nat) : ∀ d ∈ decimalDigits n, d < 10 := by
  induction n using decimalDigits.induct with
  | case1 n small =>
    rw [decimalDigits, if_pos small]
    simpa using small
  | case2 n large ih =>
    rw [decimalDigits, if_neg large]
    intro d hd
    rcases List.mem_append.mp hd with hd | hd
    · exact ih d hd
    · rw [List.mem_singleton.mp hd]
      omega

theorem ofDigits_decimalDigits (n : Nat) : ofDigits 10 0 (decimalDigits n) = n := by
  induction n using decimalDigits.induct with
  | case1 n small => simp [decimalDigits, small]
  | case2 n large ih =>
    rw [decimalDigits, if_neg large, ofDigits_append, ih, ofDigits_singleton]
    omega

theorem decimalDigits_ne_nil (n : Nat) : decimalDigits n ≠ [] := by
  rw [decimalDigits]
  split <;> simp

theorem length_decimalDigits_le {n width : Nat} (h : n < 10 ^ width) (pos : 0 < width) :
    (decimalDigits n).length ≤ width := by
  induction width generalizing n with
  | zero => omega
  | succ width ih =>
    rw [decimalDigits]
    split
    next => simp
    next large =>
      have small : n / 10 < 10 ^ width := Nat.div_lt_of_lt_mul (by rwa [Nat.pow_succ'] at h)
      have wide : 0 < width := by
        rcases width with _ | width
        · simp at small
          omega
        · omega
      have shorter := ih small wide
      simpa using shorter

theorem ofDigits_replicate_zero (b k : Nat) (ds : List Nat) :
    ofDigits b 0 (List.replicate k 0 ++ ds) = ofDigits b 0 ds := by
  induction k with
  | zero => rfl
  | succ k ih =>
    rw [List.replicate_succ, List.cons_append, ← ih]
    simp [ofDigits]

def paddedDigits (width n : Nat) : List Nat :=
  List.replicate (width - (decimalDigits n).length) 0 ++ decimalDigits n

theorem padded_eq_map (width n : Nat) : padded width n = (paddedDigits width n).map digitChar := by
  rw [paddedDigits, List.map_append, List.map_replicate]
  rfl

theorem paddedDigits_lt (width n : Nat) : ∀ d ∈ paddedDigits width n, d < 10 := by
  intro d hd
  rcases List.mem_append.mp hd with hd | hd
  · rw [List.eq_of_mem_replicate hd]
    omega
  · exact decimalDigits_lt n d hd

theorem length_padded {width n : Nat} (h : n < 10 ^ width) (pos : 0 < width) :
    (padded width n).length = width := by
  have fits := length_decimalDigits_le h pos
  simp [padded]
  omega

theorem padded_ne_nil (width n : Nat) : padded width n ≠ [] := by
  simp [padded, decimalDigits_ne_nil]

theorem digitValue?_isSome_padded (width n : Nat) :
    ∀ c ∈ padded width n, (digitValue? c).isSome = true := by
  intro c hc
  rw [padded_eq_map] at hc
  obtain ⟨d, hd, rfl⟩ := List.mem_map.mp hc
  rw [digitValue?_digitChar (paddedDigits_lt width n d hd)]
  rfl

theorem natOfDecimal?_padded (width n : Nat) : natOfDecimal? (padded width n) = some n := by
  have digits := mapM_map_eq_some fun d hd => digitValue?_digitChar (paddedDigits_lt width n d hd)
  have value : ofDigits 10 0 (paddedDigits width n) = n := by
    rw [paddedDigits, ofDigits_replicate_zero, ofDigits_decimalDigits]
  rw [natOfDecimal?, if_neg (by simpa using padded_ne_nil width n), padded_eq_map, digits]
  simp [value]

end Workboard
