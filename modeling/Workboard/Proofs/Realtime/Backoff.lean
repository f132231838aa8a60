import Mathlib.Data.List.Induction
import Mathlib.Data.UInt
import Mathlib.Tactic.Choose
import Workboard.Proofs.Time.Span
import Workboard.Realtime.Listener

/-!
The waits of a listener. They are doubled with each failure in a row and never exceed the limit, nothing that is
calculated for them fails to fit, and an attempt that subscribes sets them back.
-/

namespace Workboard

namespace Backoff

theorem toNat_doublings (attempt : UInt32) : (doublings attempt).toNat = min (attempt.toNat - 1) 20 := by
  have before : (if attempt = 0 then 0 else attempt - 1).toNat = attempt.toNat - 1 := by
    split
    next zero =>
      rw [zero]
      rfl
    next some_one =>
      have pos : 1 ≤ attempt := by
        rw [UInt32.le_iff_toNat_le]
        exact Nat.pos_of_ne_zero fun zero => some_one (UInt32.toNat_inj.mp zero)
      exact UInt32.toNat_sub_of_le _ _ pos
  rw [doublings, UInt32.toNat_min, before]
  rfl

/-- The wait in nanoseconds, calculated with numbers of any size. -/
def nanosAt (b : Backoff) (attempt : UInt32) : Nat :=
  min (b.base.toNanos * 2 ^ min (attempt.toNat - 1) 20) b.limit.toNanos

/-- That the product is cut down to the longest span is never seen, as the limit is no longer than that. -/
theorem delayAt?_eq (b : Backoff) (attempt : UInt32) :
    ∃ delay, b.delayAt? attempt = some delay ∧ delay.toNanos = b.nanosAt attempt := by
  have places := toNat_doublings attempt
  obtain ⟨factor, shifted, power⟩ := Width.shifted?_one (doublings attempt) (by omega)
  refine ⟨(b.base.times factor).shorter b.limit, by rw [delayAt?, shifted, Option.map_some], ?_⟩
  have shown := b.limit.toNanos_le_longest
  rw [Span.toNanos_shorter, Span.toNanos_times, power, places, Nat.min_assoc, Nat.min_eq_right shown, nanosAt]

theorem nanosAt_mono (b : Backoff) {m n : UInt32} (le : m ≤ n) : b.nanosAt m ≤ b.nanosAt n := by
  have fewer : min (m.toNat - 1) 20 ≤ min (n.toNat - 1) 20 := by
    rw [UInt32.le_iff_toNat_le] at le
    omega
  have shorter := Nat.mul_le_mul_left b.base.toNanos (Nat.pow_le_pow_right Nat.two_pos fewer)
  unfold nanosAt
  omega

theorem nanosAt_succ (b : Backoff) {n : UInt32} (first : 1 ≤ n) (last : n ≤ 20) :
    b.nanosAt (n + 1) = min (2 * b.nanosAt n) b.limit.toNanos := by
  rw [UInt32.le_iff_toNat_le] at first last
  have next : (n + 1).toNat = n.toNat + 1 := by
    rw [UInt32.toNat_add]
    exact Nat.mod_eq_of_lt (Nat.lt_of_le_of_lt (Nat.succ_le_succ last) (by decide))
  have doubled : min ((n + 1).toNat - 1) 20 = min (n.toNat - 1) 20 + 1 := by
    have one : (1 : UInt32).toNat = 1 := rfl
    have twenty : (20 : UInt32).toNat = 20 := rfl
    omega
  rw [nanosAt, nanosAt, doubled, Nat.pow_succ, ← Nat.mul_assoc]
  generalize b.base.toNanos * 2 ^ min (n.toNat - 1) 20 = product
  omega

end Backoff

/-- How many attempts have failed since the last one that subscribed. -/
def failuresSince (ends : List SubscriptionEnd) : Nat := (ends.reverse.takeWhile (· = .failed)).length

def SubscriptionEnd.count (failures : Nat) : SubscriptionEnd → Nat
  | .closed => 0
  | .failed => failures + 1

theorem failuresSince_concat (ends : List SubscriptionEnd) (e : SubscriptionEnd) :
    failuresSince (ends ++ [e]) = e.count (failuresSince ends) := by
  cases e <;> simp [failuresSince, SubscriptionEnd.count]

namespace ListenerTurn

/-- A turn that makes its attempt and then comes to wait. -/
structure Waits (t : ListenerTurn) : Prop where
  attempts : t.stopped = false
  remains : t.ended = .closed → t.stoppedMeanwhile = false

/-- A turn that another one follows. -/
structure GoesOn (t : ListenerTurn) : Prop extends t.Waits where
  waited : t.cancelled = false

end ListenerTurn

namespace ListenerRun

variable {b : Backoff} {delay : UInt32 → Span} {r : ListenerRun} {t : ListenerTurn}

theorem failuresAfter?_eq {ended : SubscriptionEnd} (counted : ended.count r.failures.toNat < Width.count 32) :
    ∃ failures, r.failuresAfter? ended = some failures ∧ failures.toNat = ended.count r.failures.toNat := by
  cases ended with
  | closed => exact ⟨0, rfl, rfl⟩
  | failed => exact Width.next?_of_lt counted

/-- What one turn does: it counts how its attempt ended, and begins the wait for as many failures in a row. -/
theorem turn_eq (given : ∀ n, b.delayAt? n = some (delay n)) (running : r.phase = .running) (waits : t.Waits)
    (counted : t.ended.count r.failures.toNat < Width.count 32) :
    ∃ failures : UInt32, failures.toNat = t.ended.count r.failures.toNat ∧
      r.turn b t = ⟨failures, r.waits ++ [delay (max failures 1)], if t.cancelled then .stopped else .running⟩ := by
  obtain ⟨failures, after, number⟩ := failuresAfter?_eq counted
  refine ⟨failures, number, ?_⟩
  have entered : r.enter t.stopped = r := by
    rw [enter, waits.attempts]
    exact if_neg (by simp)
  have remains : ¬ (t.ended = .closed ∧ t.stoppedMeanwhile = true) := by
    rintro ⟨closed, stopped⟩
    simp [waits.remains closed] at stopped
  have wait : r.wait? b t.ended = some (failures, delay (max failures 1)) := by
    rw [wait?, after, Option.bind_eq_bind, Option.bind_some, given]
    rfl
  simp only [turn, entered, running, if_true, leave, if_neg remains, wait]

theorem run_concat (b : Backoff) (turns : List ListenerTurn) (t : ListenerTurn) :
    run b (turns ++ [t]) = (run b turns).turn b t := List.foldl_append

/-- While the loop goes on, it has counted the failures in a row. -/
theorem failures_run (given : ∀ n, b.delayAt? n = some (delay n)) {turns : List ListenerTurn}
    (going : ∀ u ∈ turns, u.GoesOn)
    (counted : ∀ earlier, earlier <+: turns → failuresSince (earlier.map (·.ended)) < Width.count 32) :
    (run b turns).phase = .running ∧ (run b turns).failures.toNat = failuresSince (turns.map (·.ended)) := by
  induction turns using List.reverseRecOn with
  | nil => exact ⟨rfl, rfl⟩
  | append_singleton turns t ih =>
    have before : ∀ u ∈ turns, u.GoesOn := fun u mem => going u (List.mem_append_left _ mem)
    have last : t.GoesOn := going t (List.mem_append_right _ List.mem_cons_self)
    obtain ⟨running, failures⟩ := ih before fun earlier start => counted earlier (start.trans (List.prefix_append ..))
    have now := counted _ List.prefix_rfl
    rw [List.map_append, List.map_singleton, failuresSince_concat] at now ⊢
    rw [← failures] at now ⊢
    obtain ⟨after, number, made⟩ := turn_eq given running last.toWaits now
    rw [run_concat, made, last.waited]
    exact ⟨rfl, number⟩

/-- Whatever a server replies to the attempts, the listener takes turns of its loop. -/
theorem subscribe_eq_foldl (l : ChannelListener) (cancelled : Bool) (raws : List Bytes) (tries : Nat) (r : ListenerRun)
    (s : KeyValue.Server) (h : Hub) : ∃ turns : List ListenerTurn,
      (l.subscribe cancelled raws tries r s h).1 = turns.foldl (fun r t => r.turn l.backoff t) r := by
  induction tries generalizing r s h with
  | zero => exact ⟨[], rfl⟩
  | succ tries ih =>
    rcases attempted : l.attempt raws s h with ⟨ended, s', h'⟩
    let t : ListenerTurn := ⟨cancelled || h.shuttingDown, ended, h'.shuttingDown, false⟩
    by_cases running : (r.enter (cancelled || h.shuttingDown)).phase = .running
    · have taken : r.turn l.backoff t =
          (r.enter (cancelled || h.shuttingDown)).leave l.backoff ended h'.shuttingDown false := if_pos running
      obtain ⟨turns, same⟩ := ih (r.turn l.backoff t) s' h'
      simp only [ChannelListener.subscribe, if_pos running, attempted, ← taken]
      cases ended with
      | failed => exact ⟨t :: turns, same⟩
      | closed => exact ⟨[t], rfl⟩
    · have left : r.turn l.backoff t = r.enter (cancelled || h.shuttingDown) := if_neg running
      refine ⟨[t], ?_⟩
      simp only [ChannelListener.subscribe, if_neg running]
      exact left.symm

/-- Every wait can be calculated. None exceeds the limit, later ones are not shorter, and up to the twentieth each is
followed by its double, or by the limit if that is less. However attempts to subscribe end, the wait after one of them
is that for the failures since the last attempt that subscribed, of which there count at least one, if there are not
more than can be counted. -/
theorem waits_back_off (b : Backoff) : ∃ delay : UInt32 → Span,
    (∀ n, b.delayAt? n = some (delay n)) ∧
    (∀ n, (delay n).toNanos ≤ b.limit.toNanos) ∧
    (∀ m n, m ≤ n → (delay m).toNanos ≤ (delay n).toNanos) ∧
    (∀ n, 1 ≤ n → n ≤ 20 → (delay (n + 1)).toNanos = min (2 * (delay n).toNanos) b.limit.toNanos) ∧
    ∀ (before : List ListenerTurn) (t : ListenerTurn), (∀ u ∈ before, u.GoesOn) → t.Waits →
      (∀ earlier, earlier <+: before ++ [t] → failuresSince (earlier.map (·.ended)) < Width.count 32) →
      ∃ k : UInt32, k.toNat = max (failuresSince ((before ++ [t]).map (·.ended))) 1 ∧
        (run b (before ++ [t])).waits = (run b before).waits ++ [delay k] ∧
        (run b (before ++ [t])).phase = if t.cancelled then .stopped else .running := by
  choose delay given nanos using b.delayAt?_eq
  refine ⟨delay, given, ?_, fun m n le => ?_, fun n first last => ?_, ?_⟩
  · intro n
    rw [nanos]
    exact Nat.min_le_right _ _
  · rw [nanos, nanos]
    exact b.nanosAt_mono le
  · rw [nanos, nanos]
    exact b.nanosAt_succ first last
  · intro before t going waits counted
    obtain ⟨running, failures⟩ := failures_run given going
      fun earlier start => counted earlier (start.trans (List.prefix_append ..))
    have now := counted _ List.prefix_rfl
    rw [List.map_append, List.map_singleton, failuresSince_concat, ← failures] at now ⊢
    obtain ⟨after, number, made⟩ := turn_eq given running waits now
    refine ⟨max after 1, by rw [UInt32.toNat_max, number]; rfl, ?_, ?_⟩
    · rw [run_concat, made]
    · rw [run_concat, made]

/-- The server is away, is reached, and is away again. -/
def outages : List ListenerTurn :=
  [⟨false, .failed, false, false⟩, ⟨false, .failed, false, false⟩, ⟨false, .closed, false, false⟩,
    ⟨false, .failed, false, false⟩]

/-- After the second failure since the server was reached the wait is a second. -/
theorem waits_back_off_outages :
    let again : ListenerTurn := ⟨false, .failed, false, false⟩
    (∀ u ∈ outages, u.GoesOn) ∧ again.Waits ∧
      (run .standard (outages ++ [again])).waits = (run .standard outages).waits ++ [.ofMillis 1000] := by
  intro again
  have going : ∀ u ∈ outages, u.GoesOn := by
    simp only [outages, List.forall_mem_cons]
    exact ⟨⟨⟨rfl, nofun⟩, rfl⟩, ⟨⟨rfl, nofun⟩, rfl⟩, ⟨⟨rfl, fun _ => rfl⟩, rfl⟩, ⟨⟨rfl, nofun⟩, rfl⟩, nofun⟩
  have waits : again.Waits := ⟨rfl, nofun⟩
  have few : ∀ earlier ∈ (outages ++ [again]).inits, failuresSince (earlier.map (·.ended)) < Width.count 32 := by decide
  refine ⟨going, waits, ?_⟩
  obtain ⟨delay, given, -, -, -, follows⟩ := waits_back_off .standard
  obtain ⟨k, second, appended, -⟩ := follows outages again going waits fun earlier start =>
    few earlier ((List.mem_inits _ _).mpr start)
  obtain rfl : k = 2 := UInt32.toNat_inj.mp second
  have wait : Backoff.standard.delayAt? 2 = some (.ofMillis 1000) := by decide
  rw [appended, ← Option.some_inj.mp ((given 2).symm.trans wait)]

end ListenerRun

end Workboard
