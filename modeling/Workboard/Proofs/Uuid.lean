import Mathlib.Algebra.Group.Nat.Defs
import Mathlib.Algebra.GroupWithZero.Nat
import Workboard.Uuid
import Workboard.Proofs.Text.Digits

/-!
An identifier is read back from its text, so no two have the same text.
-/

namespace Workboard.Uuid

theorem ungroup?_group (sizes : List Nat) {cs : List Char} (h : sizes.sum = cs.length) :
    ungroup? sizes (group sizes cs) = some cs := by
  induction sizes, cs using group.induct with
  | case1 cs =>
    have none_left : cs = [] := by simpa using h.symm
    simp [group, ungroup?, none_left]
  | case2 n cs =>
    have all : cs.length = n := by simpa using h.symm
    simp [group, ungroup?, all]
  | case3 n sizes cs rest ih =>
    rw [List.sum_cons] at h
    have head : (cs.take n).length = n := by
      rw [List.length_take]
      omega
    have tail : sizes.sum = (cs.drop n).length := by
      rw [List.length_drop]
      omega
    have front : (cs.take n ++ '-' :: group sizes (cs.drop n)).take n = cs.take n :=
      List.take_left' head
    have back : (cs.take n ++ '-' :: group sizes (cs.drop n)).drop n =
        '-' :: group sizes (cs.drop n) := List.drop_left' head
    rw [group, ungroup?, back, front]
    · simp [ih tail]
    · exact rest
    · exact rest

theorem length_group (sizes : List Nat) (cs : List Char) :
    (group sizes cs).length = cs.length + (sizes.length - 1) := by
  induction sizes, cs using group.induct with
  | case1 cs => simp [group]
  | case2 n cs => simp [group]
  | case3 n sizes cs rest ih =>
    have more : 0 < sizes.length := List.length_pos_of_ne_nil fun h => rest h
    rw [group]
    · simp only [List.length_append, List.length_take, List.length_cons, List.length_drop, ih]
      omega
    · exact rest

theorem mem_group (sizes : List Nat) {cs : List Char} {c : Char} (h : c ∈ group sizes cs) : c = '-' ∨ c ∈ cs := by
  induction sizes, cs using group.induct with
  | case1 cs => exact .inr h
  | case2 n cs => exact .inr h
  | case3 n sizes cs rest ih =>
    rw [group] at h
    · rcases List.mem_append.mp h with front | behind
      · exact .inr (List.mem_of_mem_take front)
      · rcases List.mem_cons.mp behind with hyphen | behind
        · exact .inl hyphen
        · exact (ih behind).imp_right List.mem_of_mem_drop
    · exact rest

theorem length_digits (u : Uuid) : u.digits.length = 32 := by simp [digits]

theorem length_toText (u : Uuid) : u.toText.toList.length = 36 := by
  rw [toText, String.toList_ofList, length_group, length_digits]
  rfl

theorem colon_notMem_toText (u : Uuid) : ':' ∉ u.toText.toList := by
  intro colon
  rw [toText, String.toList_ofList] at colon
  rcases mem_group groups colon with hyphen | digit
  · cases hyphen
  · obtain ⟨d, hd, same⟩ := List.mem_map.mp digit
    have value := hexValue?_digitChar (fixedDigits_lt (by omega) 32 u.val.toNat d hd)
    rw [same] at value
    cases value

theorem ofDigits?_digits (u : Uuid) : ofDigits? u.digits = some u := by
  have small : ∀ d ∈ fixedDigits 16 32 u.val.toNat, hexValue? (digitChar d) = some d :=
    fun d hd => hexValue?_digitChar (fixedDigits_lt (by omega) _ _ d hd)
  have value : ofDigits 16 0 (fixedDigits 16 32 u.val.toNat) = u.val.toNat := by
    apply ofDigits_fixedDigits
    have below := u.val.isLt
    omega
  rw [ofDigits?, if_pos u.length_digits, digits, mapM_map_eq_some small]
  simp [value]

@[simp] theorem ofText?_toText (u : Uuid) : ofText? u.toText = some u := by
  have size : (group groups u.digits).length = 36 := by
    have text := u.length_toText
    rwa [toText, String.toList_ofList] at text
  have grouped : ungroup? groups (group groups u.digits) = some u.digits :=
    ungroup?_group groups (by rw [length_digits]; rfl)
  rw [ofText?, toText, String.toList_ofList, ofChars?, size]
  simp [ofHyphenated?, grouped, ofDigits?_digits]

theorem toText_injective {u v : Uuid} (h : u.toText = v.toText) : u = v := by
  have read := congrArg ofText? h
  simpa using read

end Workboard.Uuid

/-!
Drawing identifiers. A supply only moves on, and identifiers that differ at some moment have differed at every
moment before it.
-/

namespace Workboard

/-- A supply from which more has been drawn. -/
structure IdSupply.Extends (before after : IdSupply) : Prop where
  nth : after.nth = before.nth
  used : before.used ≤ after.used

namespace IdSupply

theorem Extends.refl (s : IdSupply) : s.Extends s := ⟨rfl, Nat.le_refl _⟩

theorem Extends.trans {a b c : IdSupply} (hab : a.Extends b) (hbc : b.Extends c) : a.Extends c :=
  ⟨hbc.nth.trans hab.nth, Nat.le_trans hab.used hbc.used⟩

theorem extends_fresh (s : IdSupply) : s.Extends s.fresh.2 := ⟨rfl, Nat.le_succ _⟩

theorem Extends.distinct {a b : IdSupply} (h : a.Extends b) (hb : b.Distinct) : a.Distinct := by
  intro i j hi hj same
  have used := h.used
  rw [← h.nth] at same
  exact hb i j (by omega) (by omega) same

theorem distinct_standard {s : IdSupply} (standard : s.nth = standardNth)
    (few : s.used ≤ 2 ^ 64) : s.Distinct := by
  intro i j hi hj same
  rw [standard] at same
  have values := congrArg (fun u : Uuid => u.val.toNat) same
  simp only [standardNth, BitVec.toNat_ofNat] at values
  omega

end IdSupply

end Workboard
