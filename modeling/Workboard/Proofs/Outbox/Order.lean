import Workboard.Proofs.Outbox.Claims
import Workboard.Proofs.Time.Calendar
import Mathlib.Data.List.Nodup

/-!
The order in which rows are taken. Rows come by their time of creation, and those of one time in the
order in which they were written.
-/

namespace Workboard

/-- A row is due before another if it was created earlier, or at the same time and written first. -/
def Precedes (records : List OutboxRecord) (q r : OutboxRecord) : Prop :=
  ∃ i j : Nat, records[i]? = some q ∧ records[j]? = some r ∧
    (q.createdAt.compare r.createdAt = .lt ∨ q.createdAt = r.createdAt ∧ i < j)

theorem Precedes.mem {records : List OutboxRecord} {q r : OutboxRecord} (h : Precedes records q r) :
    q ∈ records ∧ r ∈ records := by
  obtain ⟨i, j, hi, hj, -⟩ := h
  exact ⟨List.mem_of_getElem? hi, List.mem_of_getElem? hj⟩

theorem pair_sublist_of_getElem? {α : Type} {l : List α} {i j : Nat} {a b : α}
    (ha : l[i]? = some a) (hb : l[j]? = some b) (hij : i < j) : [a, b].Sublist l := by
  obtain ⟨hj, rfl⟩ := List.getElem?_eq_some_iff.mp hb
  have front : a ∈ l.take j := by
    apply List.mem_of_getElem? (i := i)
    rw [List.getElem?_take_of_lt hij, ha]
  have back : l[j] ∈ l.drop j := by
    rw [List.drop_eq_getElem_cons hj]
    exact List.mem_cons_self
  have both := (List.singleton_sublist.mpr front).append (List.singleton_sublist.mpr back)
  rwa [List.take_append_drop] at both

/-- In a list that is sorted by a relation, an element that may not stand behind another stands before
it. -/
theorem pair_sublist_of_pairwise {α : Type} {R : α → α → Prop} {l : List α} {a b : α}
    (sorted : l.Pairwise R) (ha : a ∈ l) (hb : b ∈ l) (hne : a ≠ b) (hba : ¬ R b a) :
    [a, b].Sublist l := by
  obtain ⟨front, back, rfl⟩ := List.append_of_mem hb
  have apart := (List.pairwise_cons.mp (List.pairwise_append.mp sorted).2.1).1
  rcases List.mem_append.mp ha with ha | ha
  · have tail : [b].Sublist (b :: back) := List.singleton_sublist.mpr List.mem_cons_self
    exact (List.singleton_sublist.mpr ha).append tail
  · rcases List.mem_cons.mp ha with rfl | ha
    · exact absurd rfl hne
    · exact absurd (apart a ha) hba

theorem mem_front_of_pair_sublist {α : Type} {front back : List α} {a b : α}
    (h : [a, b].Sublist (front ++ b :: back)) (nodup : (front ++ b :: back).Nodup) : a ∈ front := by
  obtain ⟨one, two, he, h1, h2⟩ := List.sublist_append_iff.mp h
  have once := List.nodup_append.mp nodup
  have fresh : b ∉ front := fun hb => once.2.2 b hb b List.mem_cons_self rfl
  have last : b ∉ back := (List.nodup_cons.mp once.2.1).1
  match one, he with
  | [], he =>
    have he : two = [a, b] := he.symm
    subst he
    rcases List.sublist_cons_iff.mp h2 with h2 | ⟨rest, hr, h2⟩
    · exact absurd (h2.subset (by simp)) last
    · obtain ⟨rfl, rfl⟩ := List.cons.inj hr
      exact absurd (h2.subset (by simp)) last
  | c :: _, he =>
    obtain rfl : a = c := (List.cons.inj he).1
    exact h1.subset List.mem_cons_self

theorem not_pair_sublist_swap {α : Type} {l : List α} {a b : α} (nodup : l.Nodup)
    (h : [a, b].Sublist l) : ¬ [b, a].Sublist l := by
  intro swap
  induction l with
  | nil => cases h
  | cons x xs ih =>
    obtain ⟨fresh, rest⟩ := List.nodup_cons.mp nodup
    cases h with
    | cons _ h =>
      cases swap with
      | cons _ swap => exact ih rest h swap
      | cons_cons _ _ => exact fresh (h.subset (by simp))
    | cons_cons _ _ =>
      cases swap with
      | cons _ swap => exact fresh (swap.subset (by simp))
      | cons_cons _ swap => exact fresh (swap.subset (by simp))

namespace OutboxStore

theorem available_pairwise (s : OutboxStore) :
    s.available.Pairwise fun a b => a.createdAt.le b.createdAt = true := by
  apply List.pairwise_mergeSort
  · exact fun _ _ _ => Instant.le_trans
  · exact fun _ _ => Instant.le_total _ _

theorem available_of_pairwise {s : OutboxStore}
    (h : (s.records.filter fun r => r.isPending && !s.claimed.contains r.id).Pairwise fun a b =>
      a.createdAt.le b.createdAt = true) :
    s.available = s.records.filter fun r => r.isPending && !s.claimed.contains r.id :=
  List.mergeSort_of_pairwise h

theorem pair_sublist_available {s : OutboxStore} {q r : OutboxRecord}
    (order : Precedes s.records q r) (hq : q ∈ s.available) (hr : r ∈ s.available) :
    [q, r].Sublist s.available := by
  obtain ⟨i, j, hi, hj, earlier | ⟨same, hij⟩⟩ := order
  · have hne : q ≠ r := by
      rintro rfl
      simp at earlier
    exact pair_sublist_of_pairwise s.available_pairwise hq hr hne (Instant.not_le_of_lt earlier)
  · have written := pair_sublist_of_getElem? hi hj hij
    apply List.pair_sublist_mergeSort
    · exact fun _ _ _ => Instant.le_trans
    · exact fun _ _ => Instant.le_total _ _
    · rw [same]
      exact Instant.le_refl _
    · have free : ∀ x ∈ [q, r], (x.isPending && !s.claimed.contains x.id) = true := by
        intro x hx
        have mem : x ∈ s.available := by
          rcases List.mem_cons.mp hx with rfl | hx
          · exact hq
          · exact List.mem_singleton.mp hx ▸ hr
        simpa using (mem_available.mp mem).2
      have kept := written.filter fun x => x.isPending && !s.claimed.contains x.id
      rwa [List.filter_eq_self.mpr free] at kept

theorem nodup_available {s : OutboxStore} (distinct : (s.records.map (·.id)).Nodup) :
    s.available.Nodup := by
  have rows : (s.records.filter fun r => r.isPending && !s.claimed.contains r.id).Nodup :=
    (List.Nodup.of_map _ distinct).filter _
  exact (List.mergeSort_perm _ _).nodup_iff.mpr rows

theorem available_ordered {s : OutboxStore} (distinct : (s.records.map (·.id)).Nodup) :
    s.available.Pairwise (Precedes s.records) := by
  have nodup := nodup_available distinct
  apply List.pairwise_iff_forall_sublist.mpr
  intro q r pair
  have hq := pair.subset (by simp : q ∈ [q, r])
  have hr := pair.subset (by simp : r ∈ [q, r])
  obtain ⟨i, hi⟩ := List.getElem?_of_mem (mem_available.mp hq).1
  obtain ⟨j, hj⟩ := List.getElem?_of_mem (mem_available.mp hr).1
  have order : (q.createdAt.compare r.createdAt).isLE = true :=
    Instant.le_iff.mp (List.pairwise_iff_forall_sublist.mp s.available_pairwise pair)
  rcases hc : q.createdAt.compare r.createdAt with _ | _ | _
  · exact ⟨i, j, hi, hj, .inl hc⟩
  · have same := Instant.eq_of_compare_eq hc
    refine ⟨i, j, hi, hj, .inr ⟨same, ?_⟩⟩
    -- written the other way round, the two would be taken the other way round
    by_contra later
    have apart : j ≠ i := by
      rintro rfl
      obtain rfl : q = r := Option.some.inj (hi.symm.trans hj)
      exact not_pair_sublist_swap nodup pair pair
    have swapped : Precedes s.records r q := ⟨j, i, hj, hi, .inr ⟨same.symm, by omega⟩⟩
    exact not_pair_sublist_swap nodup pair (pair_sublist_available swapped hr hq)
  · rw [hc] at order
    cases order

/-- Of the rows at the head of the queue, those before a row are the ones due before it. -/
theorem mem_front_of_precedes {s : OutboxStore} (distinct : (s.records.map (·.id)).Nodup)
    {limit : Nat} {front back : List OutboxRecord} {q r : OutboxRecord}
    (taken : s.available.take limit = front ++ r :: back) (order : Precedes s.records q r)
    (hq : q ∈ s.available) : q ∈ front := by
  have split : s.available = front ++ r :: (back ++ s.available.drop limit) := by
    rw [← List.cons_append, ← List.append_assoc, ← taken, List.take_append_drop]
  have hr : r ∈ s.available := by
    rw [split]
    simp
  have pair := pair_sublist_available order hq hr
  have nodup := nodup_available distinct
  rw [split] at pair nodup
  exact mem_front_of_pair_sublist pair nodup

end OutboxStore

end Workboard
