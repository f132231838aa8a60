import Workboard.Auth.Credentials
import Workboard.Config.Running
import Workboard.Proofs.Auth.Base64Url
import Workboard.Proofs.Json.Fields
import Workboard.Proofs.Json.Number
import Workboard.Proofs.Time.Calendar

/-!
A token that was issued is taken with the secret that it was signed with, for the user that it was issued for, until
its last second and the leeway after it have passed. From then on it is refused.
-/

namespace Workboard

open Json

namespace Claims

/-- Claims whose last second is one of the numbers that are read. -/
def Fits (c : Claims) : Prop := Width.fitsSigned 64 c.expires = true

/-- What is looked at when claims are judged. A time before 1970 does not count as given. -/
def judged (c : Claims) : JudgedClaims := ⟨if 0 ≤ c.expires then some c.expires.toNat else none, false⟩

variable {c : Claims}

theorem Fits.int?_expires (fits : c.Fits) : Node.int? (Value.int c.expires).toNode = some c.expires := by
  have range : -(Width.count 63 : Int) ≤ c.expires ∧ c.expires < (Width.count 63 : Int) := by
    simpa [Fits, Width.fitsSigned] using fits
  have below : (Width.count 63 : Int) ≤ Number.limit := by decide
  rw [Value.int, Value.toNode, Node.int?, Number.ofWritten?_int range.1 (by omega)]

theorem ofBytes?_toBytes (c : Claims) : Node.ofBytes? c.toBytes = some c.toValue.toNode :=
  Value.ofBytes?_print ⟨trivial, Number.legible_int c.expires, trivial⟩

theorem ofNode?_toNode (fits : c.Fits) : ofNode? c.toValue.toNode = some c := by
  have found : Fields.ofNode? ["user_id", "exp"] c.toValue.toNode = _ := Fields.ofNode?_toNode (by simp) (by simp)
  have expires : Node.int64? (Value.int c.expires).toNode = some c.expires := by
    rw [Node.int64?, fits.int?_expires]
    exact if_pos fits
  simp [ofNode?, found, Fields.required?, Fields.get?, expires]

theorem judged_toNode (fits : c.Fits) : JudgedClaims.ofNode? c.toValue.toNode = some c.judged := by
  have found : Fields.ofNode? ["exp", "nbf", "sub", "iss", "aud"] c.toValue.toNode =
      some (.named [("exp", (Value.int c.expires).toNode)]) := by
    have known : Fields.known? ["exp", "nbf", "sub", "iss", "aud"]
        (Value.memberNodes [("user_id", .uuid c.userId.uuid), ("exp", .int c.expires)]) = some _ :=
      Fields.known?_memberNodes (by simp)
    rw [toValue, Value.toNode, Fields.ofNode?, known]
    rfl
  have expires : Node.nat64? (Value.int c.expires).toNode = c.judged.expires := by
    rw [Node.nat64?, fits.int?_expires]
    rfl
  rw [JudgedClaims.ofNode?, found]
  show some (JudgedClaims.mk (Node.nat64? (Value.int c.expires).toNode) false) = _
  rw [expires]
  rfl

end Claims

namespace Token

theorem isDot_of_mem_encodeChars {bs : Bytes} : ∀ c ∈ Base64Url.encodeChars bs, (!isDot c) = true := by
  have apart : (Base64Url.alphabet.all fun c => !isDot c) = true := by decide +kernel
  exact fun c mem => List.all_eq_true.mp apart c (Base64Url.mem_alphabet_of_mem bs c mem)

/-- The last dot is the one in front of the text that has none. -/
theorem splitLast?_append (before : List Char) {after : List Char} (dotless : ∀ c ∈ after, (!isDot c) = true) :
    splitLast? (before ++ '.' :: after) = some (before, after) := by
  have turned : (before ++ '.' :: after).reverse = after.reverse ++ '.' :: before.reverse := by simp
  have free : ∀ c ∈ after.reverse, (!isDot c) = true := by simpa using dotless
  have dot : (!isDot '.') = false := rfl
  rw [splitLast?, turned, List.takeWhile_append_of_pos free, List.dropWhile_append_of_pos free,
    List.takeWhile_cons_of_neg (by simp [dot]), List.dropWhile_cons_of_neg (by simp [dot])]
  simp

theorem node?_encodeChars {bs : Bytes} {v : Node} (read : Node.ofBytes? bs = some v) :
    node? (Base64Url.encodeChars bs) = .ok v := by
  rw [node?, Base64Url.decode?_encodeChars]
  dsimp only
  rw [read]

theorem read?_encodeChars {α : Type} {read : Node → Option α} {bs : Bytes} {v : Node} {a : α}
    (tree : Node.ofBytes? bs = some v) (taken : read v = some a) :
    read? read (Base64Url.encodeChars bs) = .ok a := by
  simp only [read?, node?_encodeChars tree, bind, Except.bind, taken]

theorem read?_head : read? algorithmOf? (Base64Url.encodeChars head) = .ok .hs256 :=
  read?_encodeChars (Value.ofBytes?_print ⟨trivial, trivial, trivial⟩) (by decide +kernel)

theorem checked_eq {secret token : String} {signed given headPart claimsPart : List Char}
    (outer : splitLast? token.toList = some (signed, given)) (inner : splitLast? signed = some (headPart, claimsPart))
    (named : read? algorithmOf? headPart = .ok .hs256) :
    checked secret token = if given = signature secret signed then .ok claimsPart else .error .wrongSignature := by
  simp only [checked, outer, inner, named, bind, Except.bind]

/-- What is signed of a token. -/
def signedPart (c : Claims) : List Char := Base64Url.encodeChars head ++ '.' :: Base64Url.encodeChars c.toBytes

theorem toList_sign (secret : String) (c : Claims) :
    (sign secret c).toList = signedPart c ++ '.' :: signature secret (signedPart c) := String.toList_ofList

theorem checked_sign (secret : String) (c : Claims) :
    checked secret (sign secret c) = .ok (Base64Url.encodeChars c.toBytes) := by
  have outer : splitLast? (sign secret c).toList = some (signedPart c, signature secret (signedPart c)) := by
    rw [toList_sign]
    exact splitLast?_append _ isDot_of_mem_encodeChars
  rw [checked_eq outer (splitLast?_append _ isDot_of_mem_encodeChars) read?_head, if_pos rfl]

/-- A signed token says what was signed, if that is not refused at the time. -/
theorem verify_sign {c : Claims} (fits : c.Fits) (secret : String) (now : Int) :
    verify secret (sign secret c) now = (judge c.judged now).map fun _ => c := by
  have claims := read?_encodeChars c.ofBytes?_toBytes (Claims.ofNode?_toNode fits)
  have judged := read?_encodeChars c.ofBytes?_toBytes (Claims.judged_toNode fits)
  simp only [verify, checked_sign, claims, judged, bind, Except.bind]
  cases judge c.judged now <;> rfl

/-- Claims without a last second that counts are refused; at a time that exceeds the leeway they would be anyway. -/
theorem judge_eq_ok_iff (c : Claims) {now : Int} (late : leeway ≤ now) :
    judge c.judged now = .ok () ↔ now ≤ c.expires + leeway := by
  unfold judge Claims.judged
  by_cases early : c.expires < 0
  · rw [if_neg (by omega)]
    simp only [reduceCtorEq, false_iff]
    omega
  · rw [if_pos (by omega)]
    dsimp only
    have same : ((c.expires.toNat : Nat) : Int) = c.expires := by omega
    rw [same]
    by_cases expired : c.expires < now - leeway
    · rw [if_pos expired]
      simp only [reduceCtorEq, false_iff]
      omega
    · rw [if_neg expired]
      simp only [Bool.false_eq_true, if_false, true_iff]
      omega

theorem verify_sign_eq_ok_iff {c : Claims} (fits : c.Fits) (secret : String) {now : Int} (late : leeway ≤ now)
    (claims : Claims) : verify secret (sign secret c) now = .ok claims ↔ now ≤ c.expires + leeway ∧ claims = c := by
  rw [verify_sign fits, ← judge_eq_ok_iff c late]
  cases judge c.judged now with
  | error e => simp [Except.map]
  | ok _ => simp [Except.map, eq_comm]

/-- The characters of a token are those of the alphabet, and dots. -/
theorem mem_sign {secret : String} {claims : Claims} : ∀ c ∈ (sign secret claims).toList,
    c = '.' ∨ c ∈ Base64Url.alphabet := by
  intro c mem
  simp only [toList_sign, signedPart, signature, List.mem_append, List.mem_cons] at mem
  rcases mem with (inHead | dot | inClaims) | dot | inSignature
  · exact .inr (Base64Url.mem_alphabet_of_mem _ c inHead)
  · exact .inl dot
  · exact .inr (Base64Url.mem_alphabet_of_mem _ c inClaims)
  · exact .inl dot
  · exact .inr (Base64Url.mem_alphabet_of_mem _ c inSignature)

end Token

theorem Bytes.ofText_eq_flatMap (s : String) : Bytes.ofText s = s.toList.flatMap String.utf8EncodeChar := by
  rw [Bytes.ofText, String.toUTF8, ← String.utf8Encode_toList, List.utf8Encode, List.data_toByteArray]

namespace Credentials

theorem visible_bearer (secret : String) (claims : Claims) :
    (Bytes.ofText ("Bearer " ++ Token.sign secret claims)).all RequestHeaders.isVisible = true := by
  have plain : ('.' :: "Bearer ".toList ++ Base64Url.alphabet).all
      (fun c => (String.utf8EncodeChar c).all RequestHeaders.isVisible) = true := by decide +kernel
  rw [Bytes.ofText_eq_flatMap, String.toList_append, List.all_eq_true]
  intro b mem
  obtain ⟨c, inText, part⟩ := List.mem_flatMap.mp mem
  refine List.all_eq_true.mp (List.all_eq_true.mp plain c ?_) b part
  rcases List.mem_append.mp inText with front | behind
  · exact List.mem_append_left _ (List.mem_cons_of_mem _ front)
  · rcases Token.mem_sign c behind with rfl | known
    · exact List.mem_append_left _ List.mem_cons_self
    · exact List.mem_append_right _ known

theorem verify_sign_eq_ok_iff {c : Claims} (fits : c.Fits) (secret : String) {now : Int} (late : Token.leeway ≤ now)
    (claims : Claims) :
    verify secret (Token.sign secret c) now = .ok claims ↔ now ≤ c.expires + Token.leeway ∧ claims = c := by
  rw [← Token.verify_sign_eq_ok_iff fits secret late, verify]
  cases Token.verify secret (Token.sign secret c) now <;> simp [Except.mapError]

theorem map_userId_eq_ok_iff {verified : Except ApiError Claims} {user : UserId} :
    verified.map (·.userId) = .ok user ↔ ∃ claims, verified = .ok claims ∧ claims.userId = user := by
  cases verified <;> simp [Except.map]

theorem text?_bearer {secret : String} {claims : Claims} {h : RequestHeaders}
    (brings : h.first? header = some (Bytes.ofText ("Bearer " ++ Token.sign secret claims))) :
    h.text? header = some ("Bearer " ++ Token.sign secret claims) := by
  rw [RequestHeaders.text?, brings]
  dsimp only
  rw [if_pos (visible_bearer secret claims), Bytes.text?_ofText]

/-- What stands behind the name of the scheme is taken for the token. -/
theorem ofHeaders_of_text? {secret token : String} {h : RequestHeaders} {now : Int}
    (found : h.text? header = some ("Bearer " ++ token)) :
    ofHeaders secret h now = (verify secret token now).map (·.userId) := by
  have text : ("Bearer " ++ token).toList = bearer ++ token.toList := String.toList_append
  rw [ofHeaders, found]
  dsimp only
  rw [text, if_pos (by simp), List.drop_left, String.ofList_toList]

end Credentials

namespace JwtConfig

theorem fdiv_nanos (c : JwtConfig) (now : Instant) :
    ((now.unixSeconds + c.expirationHours * 3600) * 1000000000 + now.nano).fdiv 1000000000 =
      now.unixSeconds + c.expirationHours * 3600 + (now.nano / 1000000000 : Nat) := by
  rw [Int.fdiv_eq_ediv_of_nonneg _ (by decide)]
  omega

/-- The claims of a token that is issued. -/
def claims (c : JwtConfig) (user : UserId) (issued : Instant) : Claims :=
  ⟨user, issued.unixSeconds + 3600 * c.expirationHours⟩

variable {c : JwtConfig} {issued : Instant}

theorem issue?_eq (noLeap : issued.nano < 1000000000) (first : Date.first.dayNumber ≤ c.lastDay issued)
    (last : c.lastDay issued ≤ Date.last.dayNumber) (user : UserId) :
    c.issue? user issued = some (Token.sign c.secret (c.claims user issued)) := by
  have seconds := c.fdiv_nanos issued
  have day : c.lastDay issued = _ := congrArg (Int.fdiv · 86400) seconds.symm
  rw [day] at first last
  obtain ⟨ends, made⟩ := Option.isSome_iff_exists.mp ((Instant.ofUnixNanos?_isSome_iff _).mpr ⟨first, last⟩)
  have expires : ends.unixSeconds = issued.unixSeconds + 3600 * c.expirationHours := by
    rw [Instant.unixSeconds_of_ofUnixNanos? made, seconds, Nat.div_eq_of_lt noLeap]
    omega
  rw [issue?, Token.issue?, made, claims, ← expires]
  rfl

theorem fits_claims (noLeap : issued.nano < 1000000000) (first : Date.first.dayNumber ≤ c.lastDay issued)
    (last : c.lastDay issued ≤ Date.last.dayNumber) (user : UserId) : (c.claims user issued).Fits := by
  have whole : Width.count 63 = 9223372036854775808 := by decide
  rw [Date.dayNumber_limits.1] at first
  rw [Date.dayNumber_limits.2] at last
  rw [lastDay, Nat.div_eq_of_lt noLeap, Int.fdiv_eq_ediv_of_nonneg _ (by decide)] at first last
  simp only [Claims.Fits, Width.fitsSigned, claims, whole, Bool.and_eq_true, decide_eq_true_eq]
  omega

/-- A token that ends within the calendar is issued at every moment that the clock of the system shows. It is verified
with the secret that it was issued with, and says the user that it was issued for, exactly until the leeway after its
last second has passed; so it does where it stands in a header. Its lifetime may be negative. -/
theorem issued_holds_for_lifetime (c : JwtConfig) (user : UserId) {nanos : Int} {issued : Instant}
    (clock : Instant.ofUnixNanos? nanos = some issued) (first : Date.first.dayNumber ≤ c.lastDay issued)
    (last : c.lastDay issued ≤ Date.last.dayNumber) :
    ∃ token, c.issue? user issued = some token ∧ ∀ now : Int, 60 ≤ now →
      ((∃ claims, Credentials.verify c.secret token now = .ok claims ∧ claims.userId = user) ↔
        now ≤ issued.unixSeconds + 3600 * c.expirationHours + 60) ∧
      ∀ headers : RequestHeaders, headers.first? Credentials.header = some (Bytes.ofText ("Bearer " ++ token)) →
        (Credentials.ofHeaders c.secret headers now = .ok user ↔
          now ≤ issued.unixSeconds + 3600 * c.expirationHours + 60) := by
  have noLeap := Instant.nano_of_ofUnixNanos? clock
  refine ⟨_, issue?_eq noLeap first last user, fun now late => ?_⟩
  have fits := fits_claims noLeap first last user
  have holds : (∃ claims, Credentials.verify c.secret (Token.sign c.secret (c.claims user issued)) now = .ok claims ∧
      claims.userId = user) ↔ now ≤ issued.unixSeconds + 3600 * c.expirationHours + 60 := by
    simp only [Credentials.verify_sign_eq_ok_iff fits c.secret late]
    constructor
    · rintro ⟨claims, ⟨early, -⟩, -⟩
      exact early
    · intro early
      exact ⟨_, ⟨early, rfl⟩, rfl⟩
  refine ⟨holds, fun headers brings => ?_⟩
  rw [Credentials.ofHeaders_of_text? (Credentials.text?_bearer brings), Credentials.map_userId_eq_ok_iff, holds]

/-- A token that is issued for a day is taken in the last second of the leeway after it, and not in the next. -/
theorem issued_holds_for_a_day :
    let c : JwtConfig := ⟨"quite-a-secure-secret-with-letters", 24⟩
    let issued : Instant := ⟨⟨2025, 3, 1, rfl⟩, 12, 0, 0, 500000000, rfl⟩
    ∃ token, c.issue? ⟨⟨1⟩⟩ issued = some token ∧
      Credentials.ofHeaders c.secret [("authorization", Bytes.ofText ("Bearer " ++ token))] 1740916860 = .ok ⟨⟨1⟩⟩ ∧
      ¬ ∃ claims, Credentials.verify c.secret token 1740916861 = .ok claims ∧ claims.userId = ⟨⟨1⟩⟩ := by
  intro c issued
  have clock : Instant.ofUnixNanos? 1740830400500000000 = some issued := by decide +kernel
  have first : Date.first.dayNumber ≤ c.lastDay issued := by decide +kernel
  have last : c.lastDay issued ≤ Date.last.dayNumber := by decide +kernel
  have ends : issued.unixSeconds + 3600 * c.expirationHours + 60 = 1740916860 := by decide +kernel
  obtain ⟨token, issues, holds⟩ := issued_holds_for_lifetime c ⟨⟨1⟩⟩ clock first last
  refine ⟨token, issues, ?_, ?_⟩
  · exact ((holds 1740916860 (by decide)).2 _ rfl).mpr (Int.le_of_eq ends.symm)
  · intro taken
    have early := (holds 1740916861 (by decide)).1.mp taken
    rw [ends] at early
    exact absurd early (by decide)

end JwtConfig

end Workboard
