import Workboard.Proofs.Cache.Binary
import Workboard.Proofs.Cache.Codec

/-!
Frames check themselves. Only where four bytes tell the length of what follows them is a body looked at; a frame
that was cut off or went on is refused with the length that it declares and the length that it has.
-/

namespace Workboard.Codec

variable {α : Type}

/-- What is said of bytes that are no frame. -/
def mismatch (limit : Nat) : Bytes → CodecError
  | a :: b :: c :: d :: rest =>
    if limit < bigEndian a b c d then .oversized (bigEndian a b c d)
    else .truncated (bigEndian a b c d) rest.length
  | bytes => .truncated 4 bytes.length

theorem unframe_short {limit : Nat} {bytes : Bytes} (h : bytes.length < 4) :
    unframe limit bytes = .error (mismatch limit bytes) := by
  have said : mismatch limit bytes = .truncated 4 bytes.length := by
    match bytes, h with
    | [], _ | [_], _ | [_, _], _ | [_, _, _], _ => rfl
  rw [unframe, if_pos h, said]

theorem unframe_of_not_isFrame {limit : Nat} {bytes : Bytes} (h : ∀ body, ¬ IsFrame limit body bytes) :
    unframe limit bytes = .error (mismatch limit bytes) := by
  by_cases short : bytes.length < 4
  · exact unframe_short short
  · obtain ⟨a, b, c, d, rest, rfl⟩ := eq_four_of_length (Nat.not_lt.mp short)
    rw [unframe_four, mismatch]
    split
    next => rfl
    next within =>
      have apart : rest.length ≠ bigEndian a b c d := by
        intro same
        exact h rest ⟨a, b, c, d, rfl, same.symm, by omega⟩
      rw [if_pos apart]

/-- Of a frame that was cut off, fewer bytes are left than it declares, or not even its length. -/
theorem unframe_cut {limit : Nat} {body cut lost : Bytes} (h : IsFrame limit body (cut ++ lost)) (some_lost : lost ≠ []) :
    unframe limit cut =
      .error (if cut.length < 4 then .truncated 4 cut.length else .truncated body.length (cut.length - 4)) := by
  split
  next short => rw [unframe, if_pos short]
  next long =>
    obtain ⟨a, b, c, d, rest, rfl⟩ := eq_four_of_length (Nat.not_lt.mp long)
    obtain ⟨a', b', c', d', split, declared, within⟩ := h
    obtain ⟨rfl, rfl, rfl, rfl, rfl⟩ : a = a' ∧ b = b' ∧ c = c' ∧ d = d' ∧ rest ++ lost = body := by
      simpa using split
    have missing : rest.length ≠ (rest ++ lost).length := by
      have some_byte := List.length_pos_of_ne_nil some_lost
      rw [List.length_append]
      omega
    rw [unframe_four, declared, if_neg (Nat.not_lt.mpr within), if_pos missing]
    rfl

theorem unframe_extended {limit : Nat} {body frame more : Bytes} (h : IsFrame limit body frame) (some_more : more ≠ []) :
    unframe limit (frame ++ more) = .error (.truncated body.length (body.length + more.length)) := by
  obtain ⟨a, b, c, d, rfl, declared, within⟩ := h
  have beyond : (body ++ more).length ≠ body.length := by
    have some_byte := List.length_pos_of_ne_nil some_more
    rw [List.length_append]
    omega
  simp only [List.cons_append]
  rw [unframe_four, declared, if_neg (Nat.not_lt.mpr within), if_pos beyond, List.length_append]

theorem decode_of_unframe_error {p : Packing α} {limit : Nat} {bytes : Bytes} {e : CodecError}
    (h : unframe limit bytes = .error e) : (framing p limit).decode bytes = .error e := by
  simp only [framing, h]

theorem encode_oversized_iff {p : Packing α} {limit : Nat} {a : α} {n : Nat} :
    (framing p limit).encode a = .error (.oversized n) ↔
      ∃ body, p.pack a = .ok body ∧ body.length = n ∧ (limit < n ∨ 2 ^ 32 - 1 < n) := by
  rcases packed : p.pack a with message | body
  · simp [framing, packed]
  · rw [encode_of_pack packed]
    constructor
    · intro refused
      split at refused
      next large =>
        obtain rfl : body.length = n := by simpa using refused
        exact ⟨body, rfl, rfl, by omega⟩
      next => cases refused
    · rintro ⟨_, ⟨⟩, rfl, large⟩
      rw [if_pos (by omega)]

/-- Whatever library packs the bodies, if it unpacks what it has packed: what is encoded is decoded again, unless the
body is too long, which is told; the library gets to see the body of a frame and nothing else; and all other bytes are
refused by their length, what is left of a frame that was cut off and what became of one that went on among them. -/
theorem frames_check_themselves (p : Packing α) (limit : Nat)
    (faithful : ∀ a body, p.pack a = .ok body → p.unpack body = .ok a) :
    let codec := framing p limit
    (∀ a frame, codec.encode a = .ok frame →
      (∃ body, p.pack a = .ok body ∧ IsFrame limit body frame) ∧ codec.decode frame = .ok a) ∧
    (∀ a n, codec.encode a = .error (.oversized n) ↔
      ∃ body, p.pack a = .ok body ∧ body.length = n ∧ (limit < n ∨ 2 ^ 32 - 1 < n)) ∧
    (∀ body frame, IsFrame limit body frame → codec.decode frame = (p.unpack body).mapError .decode) ∧
    (∀ bytes, (∀ body, ¬ IsFrame limit body bytes) → codec.decode bytes = .error (mismatch limit bytes)) ∧
    (∀ body cut lost, IsFrame limit body (cut ++ lost) → lost ≠ [] → codec.decode cut =
      .error (if cut.length < 4 then .truncated 4 cut.length else .truncated body.length (cut.length - 4))) ∧
    ∀ body frame more, IsFrame limit body frame → more ≠ [] →
      codec.decode (frame ++ more) = .error (.truncated body.length (body.length + more.length)) := by
  intro codec
  refine ⟨?_, fun a n => encode_oversized_iff, fun body frame => decode_of_isFrame, ?_, ?_, ?_⟩
  · intro a frame encoded
    exact ⟨isFrame_of_encode encoded, readsBack_framing faithful limit a frame encoded⟩
  · intro bytes none_framed
    exact decode_of_unframe_error (unframe_of_not_isFrame none_framed)
  · intro body cut lost framed some_lost
    exact decode_of_unframe_error (unframe_cut framed some_lost)
  · intro body frame more framed some_more
    exact decode_of_unframe_error (unframe_extended framed some_more)

/-- A flag takes one byte; its frame is read, and neither what is left of it nor what goes on behind it is. -/
theorem frames_check_themselves_flag :
    let codec := framing BinaryForm.bool.packing 1
    codec.decode [0, 0, 0, 1, 1] = .ok true ∧
      (∀ cut lost, cut ++ lost = [0, 0, 0, 1, 1] → lost ≠ [] → ∃ expected,
        codec.decode cut = .error (.truncated expected (if cut.length < 4 then cut.length else cut.length - 4))) ∧
      codec.decode [0, 0, 0, 1, 1, 0] = .error (.truncated 1 2) ∧
      (framing BinaryForm.bool.packing 0).encode true = .error (.oversized 1) := by
  have faithful : ∀ a body, BinaryForm.bool.packing.pack a = .ok body → BinaryForm.bool.packing.unpack body = .ok a := by
    rintro a _ ⟨⟩
    simp only [BinaryForm.packing, BinaryForm.readsBack_bool.whole a, id_eq]
  obtain ⟨reads, -, -, -, cuts, extends_⟩ := frames_check_themselves BinaryForm.bool.packing 1 faithful
  obtain ⟨-, large, -⟩ := frames_check_themselves BinaryForm.bool.packing 0 faithful
  obtain ⟨⟨body, packed, framed⟩, read⟩ := reads true [0, 0, 0, 1, 1] rfl
  obtain rfl : [1] = body := Except.ok.inj packed
  refine ⟨read, ?_, extends_ [1] [0, 0, 0, 1, 1] [0] framed (by simp), ?_⟩
  · intro cut lost whole some_lost
    have told := cuts [1] cut lost (whole ▸ framed) some_lost
    split at told
    next short => exact ⟨4, by rw [told, if_pos short]⟩
    next long => exact ⟨1, by rw [told, if_neg long]; rfl⟩
  · exact (large true 1).mpr ⟨[1], rfl, rfl, .inl (by decide)⟩

end Workboard.Codec
