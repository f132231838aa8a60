import Workboard.Auth.Base64Url
import Workboard.Proofs.Text.Digits

/-!
Bytes are read back from the text that they are written as, which has no characters but those of its alphabet.
-/

namespace Workboard.Base64Url

theorem valueOf?_charAt : ∀ n < 64, valueOf? (charAt n) = some n := by decide +kernel

theorem charAt_mem (n : Nat) : charAt n ∈ alphabet := by
  rw [charAt]
  rcases found : alphabet[n]? with _ | c
  · decide
  · exact List.mem_of_getElem? found

theorem mem_alphabet_of_mem (bs : Bytes) : ∀ c ∈ encodeChars bs, c ∈ alphabet := by
  induction bs using encodeChars.induct with
  | case1 a b c rest ih => simpa [encodeChars, charAt_mem] using ih
  | case2 a b => simp [encodeChars, charAt_mem]
  | case3 a => simp [encodeChars, charAt_mem]
  | case4 => simp [encodeChars]

/-- The values of the characters that bytes are written as. -/
def values : Bytes → List Nat
  | a :: b :: c :: rest =>
    let n := a.toNat * 65536 + b.toNat * 256 + c.toNat
    n / 262144 :: n / 4096 % 64 :: n / 64 % 64 :: n % 64 :: values rest
  | [a, b] =>
    let n := (a.toNat * 256 + b.toNat) * 4
    [n / 4096, n / 64 % 64, n % 64]
  | [a] =>
    let n := a.toNat * 16
    [n / 64, n % 64]
  | [] => []

theorem encodeChars_eq_map (bs : Bytes) : encodeChars bs = (values bs).map charAt := by
  induction bs using encodeChars.induct with
  | case1 a b c rest ih => simp [encodeChars, values, ih]
  | case2 a b => simp [encodeChars, values]
  | case3 a => simp [encodeChars, values]
  | case4 => rfl

theorem values_lt (bs : Bytes) : ∀ n ∈ values bs, n < 64 := by
  induction bs using encodeChars.induct with
  | case1 a b c rest ih =>
    have first := a.toNat_lt
    have second := b.toNat_lt
    have third := c.toNat_lt
    simp only [values, List.forall_mem_cons]
    exact ⟨by omega, by omega, by omega, by omega, ih⟩
  | case2 a b =>
    have first := a.toNat_lt
    have second := b.toNat_lt
    simp only [values, List.forall_mem_cons]
    exact ⟨by omega, by omega, by omega, nofun⟩
  | case3 a =>
    have first := a.toNat_lt
    simp only [values, List.forall_mem_cons]
    exact ⟨by omega, by omega, nofun⟩
  | case4 => exact nofun

theorem ofNat_eq {n : Nat} {b : UInt8} (h : n % 256 = b.toNat) : UInt8.ofNat n = b :=
  UInt8.toNat_inj.mp (by rw [UInt8.toNat_ofNat', h])

/-- Four values make three bytes; at the end three make two bytes, and two make one. -/
theorem decodeValues?_values (bs : Bytes) : decodeValues? (values bs) = some bs := by
  induction bs using encodeChars.induct with
  | case1 a b c rest ih =>
    have first := a.toNat_lt
    have second := b.toNat_lt
    have third := c.toNat_lt
    simp only [values, decodeValues?, ih, Option.bind_eq_bind, Option.bind_some, Option.some.injEq, List.cons.injEq,
      and_true]
    exact ⟨ofNat_eq (by omega), ofNat_eq (by omega), ofNat_eq (by omega)⟩
  | case2 a b =>
    have first := a.toNat_lt
    have second := b.toNat_lt
    have whole : ((a.toNat * 256 + b.toNat) * 4 / 4096 * 64 + (a.toNat * 256 + b.toNat) * 4 / 64 % 64) * 64 +
        (a.toNat * 256 + b.toNat) * 4 % 64 = (a.toNat * 256 + b.toNat) * 4 := by omega
    simp only [values, decodeValues?, whole]
    rw [if_pos (by omega), ofNat_eq (b := a) (by omega), ofNat_eq (b := b) (by omega)]
  | case3 a =>
    have first := a.toNat_lt
    have whole : a.toNat * 16 / 64 * 64 + a.toNat * 16 % 64 = a.toNat * 16 := by omega
    simp only [values, decodeValues?, whole]
    rw [if_pos (by omega), ofNat_eq (b := a) (by omega)]
  | case4 => rfl

theorem decode?_encodeChars (bs : Bytes) : decode? (encodeChars bs) = some bs := by
  have read : ((values bs).map charAt).mapM valueOf? = some ((values bs).map id) :=
    mapM_map_eq_some fun n mem => valueOf?_charAt n (values_lt bs n mem)
  rw [decode?, encodeChars_eq_map, read, List.map_id, Option.bind_some, decodeValues?_values]

end Workboard.Base64Url
