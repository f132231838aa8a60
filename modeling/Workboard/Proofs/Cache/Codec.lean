import Workboard.Cache.Codec
import Workboard.Proofs.Json.Fields
import Workboard.Proofs.Text.Digits

/-!
What a codec encodes it decodes again, as far as the text that it writes tells the value.
-/

namespace Workboard

variable {α : Type}

namespace JsonForm

variable {f : JsonForm α}

theorem legible_list (legible : ∀ a, (f.write a).Legible) (as : List α) : ((list f).write as).Legible :=
  Json.Value.legible_array fun a _ => legible a

theorem read_list {back : α → α} (read : ∀ a, f.read? (f.write a).toNode = some (back a)) (as : List α) :
    (list f).read? ((list f).write as).toNode = some (as.map back) :=
  Json.Node.items?_toNode fun a _ => read a

end JsonForm

namespace Codec

/-- What is encoded is decoded as some function says. -/
def ReadsBack (codec : Codec α) (back : α → α) : Prop :=
  ∀ a bytes, codec.encode a = .ok bytes → codec.decode bytes = .ok (back a)

theorem encode_json (f : JsonForm α) (a : α) : (json f).encode a = .ok (f.write a).print := rfl

theorem decode_print {f : JsonForm α} {v : Json.Value} {a : α} (legible : v.Legible)
    (read : f.read? v.toNode = some a) : (json f).decode v.print = .ok a := by
  simp only [json, Json.Value.ofBytes?_print legible, Option.bind_some, read]

theorem readsBack_json {f : JsonForm α} {back : α → α} (legible : ∀ a, (f.write a).Legible)
    (read : ∀ a, f.read? (f.write a).toNode = some (back a)) : (json f).ReadsBack back := by
  rintro a _ ⟨⟩
  exact decode_print (legible a) (read a)

theorem length_lengthBytes (n : Nat) : (lengthBytes n).length = 4 := by
  rw [lengthBytes, List.length_map, length_fixedDigits]

theorem lengthOfBytes_lengthBytes {n : Nat} (h : n < 2 ^ 32) : lengthOfBytes (lengthBytes n) = n := by
  have bytes : ((fixedDigits 256 4 n).map UInt8.ofNat).map UInt8.toNat = fixedDigits 256 4 n := by
    have back : ∀ d ∈ fixedDigits 256 4 n, (UInt8.ofNat d).toNat = d := by
      intro d hd
      have small : d < 256 := fixedDigits_lt (by omega) 4 n d hd
      exact UInt8.toNat_ofNat_of_lt' small
    rw [List.map_map]
    exact (List.map_congr_left back).trans (List.map_id _)
  have range : n < 256 ^ 4 := h
  rw [lengthOfBytes, lengthBytes, bytes, ofDigits_fixedDigits range]

/-- The number that four bytes spell, most significant first. -/
def bigEndian (a b c d : UInt8) : Nat := ((a.toNat * 256 + b.toNat) * 256 + c.toNat) * 256 + d.toNat

/-- The length of the body in four bytes, and the body, which is within the limit. -/
def IsFrame (limit : Nat) (body frame : Bytes) : Prop :=
  ∃ a b c d : UInt8, frame = a :: b :: c :: d :: body ∧ bigEndian a b c d = body.length ∧ body.length ≤ limit

theorem eq_four_of_length {bytes : Bytes} (h : 4 ≤ bytes.length) :
    ∃ a b c d rest, bytes = a :: b :: c :: d :: rest := by
  match bytes, h with
  | a :: b :: c :: d :: rest, _ => exact ⟨a, b, c, d, rest, rfl⟩

theorem unframe_four (limit : Nat) (a b c d : UInt8) (rest : Bytes) :
    unframe limit (a :: b :: c :: d :: rest) =
      if limit < bigEndian a b c d then .error (.oversized (bigEndian a b c d))
      else if rest.length ≠ bigEndian a b c d then .error (.truncated (bigEndian a b c d) rest.length)
      else .ok rest := by
  have declared : lengthOfBytes ((a :: b :: c :: d :: rest).take 4) = bigEndian a b c d := by
    simp [lengthOfBytes, ofDigits, bigEndian]
  have long : ¬(a :: b :: c :: d :: rest).length < 4 := by simp
  rw [unframe, if_neg long, declared]
  rfl

/-- A body is taken out of a frame and out of nothing else. -/
theorem unframe_of_isFrame {limit : Nat} {body frame : Bytes} (h : IsFrame limit body frame) :
    unframe limit frame = .ok body := by
  obtain ⟨a, b, c, d, rfl, declared, within⟩ := h
  rw [unframe_four, declared, if_neg (Nat.not_lt.mpr within), if_neg (fun apart => apart rfl)]

theorem isFrame_lengthBytes {limit : Nat} {body : Bytes} (within : body.length ≤ limit) (fits : body.length < 2 ^ 32) :
    IsFrame limit body (lengthBytes body.length ++ body) := by
  obtain ⟨a, b, c, d, rest, four⟩ := eq_four_of_length (Nat.le_of_eq (length_lengthBytes body.length).symm)
  obtain rfl : rest = [] := by
    have length := length_lengthBytes body.length
    rw [four] at length
    simpa using length
  refine ⟨a, b, c, d, by rw [four]; rfl, ?_, within⟩
  have value := lengthOfBytes_lengthBytes fits
  rw [four] at value
  simpa [lengthOfBytes, ofDigits, bigEndian] using value

section framing

variable {p : Packing α} {limit : Nat}

/-- A body goes into a frame unless it is longer than the limit or than four bytes can tell. -/
theorem encode_of_pack {a : α} {body : Bytes} (h : p.pack a = .ok body) :
    (framing p limit).encode a =
      if limit < body.length ∨ 2 ^ 32 ≤ body.length then .error (.oversized body.length)
      else .ok (lengthBytes body.length ++ body) := by
  have wide : (!Width.fits 32 body.length) = true ↔ 2 ^ 32 ≤ body.length := by
    rw [Bool.not_eq_true', Width.fits, decide_eq_false_iff_not, Nat.not_lt]
    rfl
  simp only [framing, h, wide, gt_iff_lt]

theorem isFrame_of_encode {a : α} {frame : Bytes} (h : (framing p limit).encode a = .ok frame) :
    ∃ body, p.pack a = .ok body ∧ IsFrame limit body frame := by
  rcases packed : p.pack a with message | body
  · simp [framing, packed] at h
  · rw [encode_of_pack packed] at h
    split at h
    next => cases h
    next small =>
      cases h
      exact ⟨body, rfl, isFrame_lengthBytes (by omega) (by omega)⟩

theorem decode_of_isFrame {body frame : Bytes} (h : IsFrame limit body frame) :
    (framing p limit).decode frame = (p.unpack body).mapError .decode := by
  simp only [framing, unframe_of_isFrame h]
  cases p.unpack body <;> rfl

theorem readsBack_framing {back : α → α} (reads : ∀ a body, p.pack a = .ok body → p.unpack body = .ok (back a))
    (limit : Nat) : (framing p limit).ReadsBack back := by
  intro a frame encoded
  obtain ⟨body, packed, framed⟩ := isFrame_of_encode encoded
  rw [decode_of_isFrame framed, reads a body packed]
  rfl

end framing

theorem readsBack_framed {f : BinaryForm α} {back : α → α} (whole : ∀ a, f.whole? (f.write a) = some (back a))
    (limit : Nat) : (framed f limit).ReadsBack back := by
  apply readsBack_framing
  rintro a _ ⟨⟩
  simp only [BinaryForm.packing, whole]

end Codec

end Workboard
