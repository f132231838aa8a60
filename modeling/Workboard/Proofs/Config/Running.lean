import Workboard.Config.Running
import Workboard.Proofs.Auth.Token
import Workboard.Proofs.Http.Heartbeat
import Workboard.Proofs.Relay.Reports

/-!
What a configuration that was found valid says of the server that runs with it. Three of its settings are not looked
at, or not closely enough, and each of them can break down a part of the server.
-/

namespace Workboard

theorem String.get_mem (s : String) (i : String.Pos.Raw) : i.get s ∈ s.toList ∨ i.get s = default := by
  unfold String.Pos.Raw.get
  generalize s.toList = cs
  generalize (0 : String.Pos.Raw) = start
  induction cs generalizing start with
  | nil => exact .inr rfl
  | cons c cs ih =>
    show (if start = i then c else String.Pos.Raw.utf8GetAux cs (start + c) i) ∈ c :: cs ∨
      (if start = i then c else String.Pos.Raw.utf8GetAux cs (start + c) i) = default
    split
    · exact .inl List.mem_cons_self
    · exact (ih (start + c)).imp_left (List.mem_cons_of_mem c)

/-- A text is not split where the separator cannot begin. -/
theorem String.length_splitOnAux {s sep : String}
    (absent : ∀ i : String.Pos.Raw, i.get s ≠ String.Pos.Raw.get sep 0) (b i : String.Pos.Raw) (r : List String) :
    (s.splitOnAux sep b i 0 r).length = r.length + 1 := by
  -- the search never leaves the first character of the separator
  generalize start : (0 : String.Pos.Raw) = j
  fun_induction String.splitOnAux s sep b i j r with
  | case1 b i j r atEnd parts => exact List.length_reverse
  | case2 b i j r _ same _ _ _ ih => exact absurd (start ▸ eq_of_beq same) (absent i)
  | case3 b i j r _ same _ _ _ ih => exact absurd (start ▸ eq_of_beq same) (absent i)
  | case4 b i j r _ _ ih => exact ih rfl

namespace AppConfig

theorem hasDevelopmentMark_of_absent {secret : String}
    (absent : secret.toList.all (fun c => !(['d', 'n', 'p'].contains c)) = true) : hasDevelopmentMark secret = false := by
  have single : ∀ mark ∈ developmentMarks, (secret.splitOn mark).length = 1 := by
    intro mark isMark
    have first : String.Pos.Raw.get mark 0 ∈ ['d', 'n', 'p'] ∧ mark ≠ "" := by
      revert mark
      decide
    have nowhere (i : String.Pos.Raw) : i.get secret ≠ String.Pos.Raw.get mark 0 := by
      intro same
      rcases String.get_mem secret i with mem | default
      · have other := List.all_eq_true.mp absent _ mem
        rw [same] at other
        simp [first.1] at other
      · rw [← same, default] at first
        exact absurd first.1 (by decide)
    unfold String.splitOn
    rw [if_neg (by simpa using first.2)]
    exact String.length_splitOnAux nowhere 0 0 []
  rw [hasDevelopmentMark, List.any_eq_false]
  intro mark isMark
  simp [single mark isMark]

/-- What is checked of a configuration. -/
structure Valid (c : AppConfig) : Prop where
  database : c.database.url.isEmpty = false
  connections : c.database.maxConnections ≠ 0
  longSecret : minSecretBytes ≤ c.jwt.secret.utf8ByteSize
  ownSecret : hasDevelopmentMark c.jwt.secret = false
  redis : c.redis.url.isEmpty = false
  brokers : (c.kafka.enabled && c.kafka.brokers.isEmpty) = false
  pace : ¬ (c.outbox.batchSize = 0 ∨ c.outbox.pollInterval = 0)
  queue : c.hub.queueCapacity ≠ 0
  timeout : c.hub.pingInterval < c.hub.pongTimeout

theorem ite_error_eq_ok {ε α : Type} {p : Prop} [Decidable p] {e : ε} {x : Except ε α} {a : α} :
    (if p then .error e else x) = .ok a ↔ ¬ p ∧ x = .ok a := by
  split <;> simp [*]

theorem validate_eq_ok_iff {c : AppConfig} : c.validate = .ok () ↔ c.Valid := by
  simp only [validate, ite_error_eq_ok, Bool.not_eq_true, Nat.not_lt, Nat.not_le, and_true]
  constructor
  · rintro ⟨database, connections, secret, mark, redis, brokers, pace, queue, timeout⟩
    exact ⟨database, connections, secret, mark, redis, brokers, pace, queue, timeout⟩
  · rintro ⟨database, connections, secret, mark, redis, brokers, pace, queue, timeout⟩
    exact ⟨database, connections, secret, mark, redis, brokers, pace, queue, timeout⟩

end AppConfig

namespace SocketWorld

/-- The heartbeat takes the first tick of its clock at once. -/
theorem start_accepted (timing : HubTiming) (now : Nat) : SocketPhase.accepted.start timing now =
    match Ticker.every? timing.pingMs now with
    | some t => .running now (t.tick now).next
    | none => .ended := by
  unfold SocketPhase.start Ticker.every?
  rcases Nat.eq_zero_or_pos timing.pingMs with zero | positive
  · simp [zero]
  · simp [positive, Nat.pos_iff_ne_zero.mp positive, Ticker.tick]

/-- A socket crashes only where its heartbeat has no period. -/
theorem crashes_iff (timing : HubTiming) (connection : Uuid) (hub : Hub) (start : Nat) :
    (∃ events, ((begin timing connection hub start).after events).Crashed) ↔ timing.pingMs = 0 := by
  constructor
  · rintro ⟨events, ended, notOtherwise, notExpired⟩
    apply Nat.eq_zero_of_not_pos
    intro positive
    have sound := ((sound_begin positive connection hub start).after events).1
    have stopped : ∀ lastSeen nextTick, ((begin timing connection hub start).after events).phase ≠
        .running lastSeen nextTick := by
      rw [ended]
      exact nofun
    rcases (sound.finished stopped).2 with otherwise | ⟨time, out⟩
    · exact notOtherwise otherwise
    · exact notExpired time out
  · intro zero
    refine ⟨[], ?_, ?_, nofun⟩
    · show SocketPhase.accepted.start timing start = .ended
      rw [start_accepted, zero]
      rfl
    · rintro (finished | broken | ⟨time, closed⟩)
      · exact SocketReader.noConfusion finished
      · exact Bool.noConfusion broken
      · exact absurd closed List.not_mem_nil

end SocketWorld

/-- A token is issued exactly if its last day is one of the calendar. -/
theorem JwtConfig.issue?_eq_none_iff (c : JwtConfig) (user : UserId) (now : Instant) :
    c.issue? user now = none ↔
      ¬ (Date.first.dayNumber ≤ c.lastDay now ∧ c.lastDay now ≤ Date.last.dayNumber) := by
  have day : ((((now.unixSeconds + c.expirationHours * 3600) * 1000000000 + now.nano).fdiv 1000000000).fdiv 86400) =
      c.lastDay now := by
    rw [fdiv_nanos, lastDay]
  rw [← day, ← Instant.ofUnixNanos?_isSome_iff]
  unfold issue? Token.issue?
  cases Instant.ofUnixNanos? ((now.unixSeconds + c.expirationHours * 3600) * 1000000000 + now.nano) with
  | none => simp
  | some until_ => simp

namespace AppConfig

/-- What the check of a configuration leaves open. It does not look at the time between two reports of the backlog, nor
at the lifetime of tokens, and it bounds the period of the heartbeat from above only. With no time between two
reports, and only then, the loop that reports breaks down; without a period of the heartbeat, and only then, sockets
do; and no token is issued exactly if it would end outside of the calendar. -/
theorem breaks_iff {c : AppConfig} (valid : c.validate = .ok ()) :
    (∀ metricsMs pingSecs hours, pingSecs < c.hub.pongTimeout →
      { c with
        outbox.metricsInterval := metricsMs
        hub.pingInterval := pingSecs
        jwt.expirationHours := hours : AppConfig }.validate = .ok ()) ∧
    (∀ {σ : Type} {report : Nat → σ → Except BatchError Unit × σ}, ReportLoop.Calm report →
      ∀ now cancelled (world : σ) acts,
        ((ReportLoop.begin c.outbox.timing.metricsMs now cancelled world).after report acts).place = .panicked ↔
          c.outbox.metricsInterval = 0) ∧
    (∀ connection hub start,
      (∃ events, ((SocketWorld.begin c.hub.timing connection hub start).after events).Crashed) ↔
        c.hub.pingInterval = 0) ∧
    ∀ user now, c.jwt.issue? user now = none ↔
      ¬ (Date.first.dayNumber ≤ c.jwt.lastDay now ∧ c.jwt.lastDay now ≤ Date.last.dayNumber) := by
  refine ⟨?_, ?_, ?_, c.jwt.issue?_eq_none_iff⟩
  · intro metricsMs pingSecs hours below
    obtain ⟨database, connections, secret, mark, redis, brokers, pace, queue, -⟩ := validate_eq_ok_iff.mp valid
    exact validate_eq_ok_iff.mpr ⟨database, connections, secret, mark, redis, brokers, pace, queue, below⟩
  · intro σ report calm now cancelled world acts
    exact ReportLoop.panics_iff calm c.outbox.metricsInterval now cancelled world acts
  · intro connection hub start
    rw [SocketWorld.crashes_iff]
    show c.hub.pingInterval * 1000 = 0 ↔ _
    omega

/-- The configuration for development with a secret of its own. Three of its settings are left to choose. -/
def withSettings (metricsMs pingSecs : Nat) (hours : Int) : AppConfig :=
  { development with
    jwt := ⟨"quite-a-secure-secret-with-letters", hours⟩
    outbox.metricsInterval := metricsMs
    hub.pingInterval := pingSecs }

theorem validate_withSettings {pingSecs : Nat} (below : pingSecs < 75) (metricsMs : Nat) (hours : Int) :
    (withSettings metricsMs pingSecs hours).validate = .ok () :=
  validate_eq_ok_iff.mpr
    { database := (by decide : development.database.url.isEmpty = false)
      connections := (by decide : development.database.maxConnections ≠ 0)
      longSecret := (by decide : minSecretBytes ≤ "quite-a-secure-secret-with-letters".utf8ByteSize)
      ownSecret := hasDevelopmentMark_of_absent
        (by decide : "quite-a-secure-secret-with-letters".toList.all (fun c => !(['d', 'n', 'p'].contains c)) = true)
      redis := (by decide : development.redis.url.isEmpty = false)
      brokers := rfl
      pace := (by decide : ¬ (development.outbox.batchSize = 0 ∨ development.outbox.pollInterval = 0))
      queue := (by decide : development.hub.queueCapacity ≠ 0)
      timeout := below }

/-- With the settings for development nothing breaks down. -/
theorem breaks_iff_development :
    let c := withSettings 15000 30 24
    let now : Instant := ⟨⟨2025, 3, 1, rfl⟩, 12, 0, 0, 0, rfl⟩
    c.validate = .ok () ∧
      (∀ acts, ((ReportLoop.begin c.outbox.timing.metricsMs 0 false ()).after (fun _ w => (.ok (), w)) acts).place ≠
        .panicked) ∧
      (∀ events, ¬ ((SocketWorld.begin c.hub.timing ⟨1⟩ (.ofCapacity 64) 0).after events).Crashed) ∧
      c.jwt.issue? ⟨⟨1⟩⟩ now ≠ none := by
  intro c now
  have valid : c.validate = .ok () := validate_withSettings (by decide) 15000 24
  obtain ⟨-, reports, sockets, tokens⟩ := breaks_iff valid
  have calm : ReportLoop.Calm fun (_ : Nat) (w : Unit) => ((.ok () : Except BatchError Unit), w) := by
    intro _ _ _ broken
    cases broken
  refine ⟨valid, ?_, ?_, ?_⟩
  · intro acts broken
    exact absurd ((reports calm 0 false () acts).mp broken) (by decide)
  · intro events crashed
    exact absurd ((sockets ⟨1⟩ (.ofCapacity 64) 0).mp ⟨events, crashed⟩) (by decide)
  · intro none
    exact (tokens ⟨⟨1⟩⟩ now).mp none (by decide +kernel)

/-- A configuration that is found valid although everything breaks down with it that can. -/
theorem valid_yet_breaks :
    let c := withSettings 0 0 9223372036854775807
    let now : Instant := ⟨⟨2025, 3, 1, rfl⟩, 12, 0, 0, 0, rfl⟩
    c.validate = .ok () ∧
      (ReportLoop.begin c.outbox.timing.metricsMs 0 false ()).place = .panicked ∧
      (∃ events, ((SocketWorld.begin c.hub.timing ⟨1⟩ (.ofCapacity 64) 0).after events).Crashed) ∧
      c.jwt.issue? ⟨⟨1⟩⟩ now = none := by
  intro c now
  refine ⟨validate_withSettings (by decide) 0 9223372036854775807, rfl, ?_, ?_⟩
  · exact (SocketWorld.crashes_iff c.hub.timing ⟨1⟩ (.ofCapacity 64) 0).mpr (Nat.zero_mul 1000)
  · exact (JwtConfig.issue?_eq_none_iff c.jwt ⟨⟨1⟩⟩ now).mpr (by decide +kernel)

end AppConfig

end Workboard
