import Workboard.Cache.Binary
import Workboard.Proofs.Time.Rfc3339
import Workboard.Proofs.Uuid

/-!
Binary forms are read back, whatever follows them.
-/

namespace Workboard.BinaryForm

variable {α β : Type} {f : BinaryForm α} {g : BinaryForm β} {back : α → α} {back' : β → β}

/-- What is written is read back as some function says, and leaves what follows. -/
def ReadsBack (f : BinaryForm α) (back : α → α) : Prop :=
  ∀ a rest, f.read? (f.write a ++ rest) = some (back a, rest)

theorem ReadsBack.whole (h : f.ReadsBack back) (a : α) : f.whole? (f.write a) = some (back a) := by
  have read := h a []
  rw [List.append_nil] at read
  rw [whole?, read]

theorem readNat?_writeNat (n : Nat) (rest : Bytes) : readNat? (writeNat n ++ rest) = some (n, rest) := by
  induction n using Nat.strongRecOn with
  | ind n ih =>
    rw [writeNat]
    split
    next small =>
      have bound : n < 256 := by omega
      have byte : (UInt8.ofNat n).toNat = n := UInt8.toNat_ofNat_of_lt' bound
      rw [List.singleton_append, readNat?, byte, if_pos small]
    next large =>
      have bound : n % 128 + 128 < 256 := by omega
      have byte : (UInt8.ofNat (n % 128 + 128)).toNat = n % 128 + 128 := UInt8.toNat_ofNat_of_lt' bound
      have more : ¬n % 128 + 128 < 128 := by omega
      have value : n % 128 + 128 - 128 + 128 * (n / 128) = n := by omega
      rw [List.cons_append, readNat?, byte, if_neg more, ih (n / 128) (by omega)]
      exact congrArg (fun n => some (n, rest)) value

theorem take?_append (body rest : Bytes) : take? body.length (body ++ rest) = some (body, rest) := by
  rw [take?, if_pos (by simp), List.take_left, List.drop_left]

theorem readsBack_text : text.ReadsBack id := by
  intro s rest
  simp only [text, List.append_assoc, readNat?_writeNat, Option.bind_eq_bind, Option.bind_some,
    take?_append, Bytes.text?_ofText, id_eq]

theorem readsBack_bool : bool.ReadsBack id := by
  intro b rest
  cases b <;> rfl

theorem ReadsBack.option (h : f.ReadsBack back) : (option f).ReadsBack (Option.map back) := by
  intro o rest
  cases o with
  | none => rfl
  | some a =>
    have read := h a rest
    simp [BinaryForm.option, read]

theorem ReadsBack.pair (hf : f.ReadsBack back) (hg : g.ReadsBack back') :
    (pair f g).ReadsBack (Prod.map back back') := by
  rintro ⟨a, b⟩ rest
  simp [BinaryForm.pair, hf a, hg b]

theorem ReadsBack.map (h : f.ReadsBack back) {from' : β → α} {to? : α → Option β}
    (made : ∀ b, to? (back (from' b)) = some (back' b)) : (f.map from' to?).ReadsBack back' := by
  intro b rest
  simp [BinaryForm.map, h (from' b), made b]

theorem readsBack_uuid : uuid.ReadsBack id := readsBack_text.map Uuid.ofText?_toText

theorem readsBack_instant : instant.ReadsBack Instant.asWritten := readsBack_text.map Instant.ofText?_toText

/-- Times are written as texts in the binary form, too. -/
theorem readsBack_todo : todo.ReadsBack Todo.asWritten := by
  have times := readsBack_instant.pair (readsBack_instant.pair readsBack_instant.option)
  have fields := readsBack_uuid.pair (readsBack_uuid.pair (readsBack_text.pair (readsBack_bool.pair times)))
  exact fields.map fun t => rfl

end Workboard.BinaryForm
