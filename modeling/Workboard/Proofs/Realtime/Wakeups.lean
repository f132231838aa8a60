import Workboard.Proofs.Realtime.Queue
import Workboard.Realtime.Wakeups

/-!
No change of a queue escapes its reader. A reader that waits, or is about to, for a queue in which there is something
to find has a wake-up kept for it, or one is still to be given by whoever changed the queue. Once all who changed it
have returned, the reader is not asleep, and three steps of its own end its call.
-/

namespace Workboard

theorem exists_mem_set {β : Type} {l : List β} {i : Nat} {a : β} {p : β → Bool} (there : l[i]? = some a)
    (unmarked : p a = false) (marked : ∃ b ∈ l, p b = true) (c : β) : ∃ b ∈ l.set i c, p b = true := by
  obtain ⟨b, member, holds⟩ := marked
  obtain ⟨j, at_j⟩ := List.mem_iff_getElem?.mp member
  have other : i ≠ j := by
    rintro rfl
    cases there.symm.trans at_j
    rw [unmarked] at holds
    cases holds
  exact ⟨b, List.mem_iff_getElem?.mpr ⟨j, (List.getElem?_set_ne other).trans at_j⟩, holds⟩

theorem mem_set_of_getElem? {β : Type} {l : List β} {i : Nat} {a : β} (there : l[i]? = some a) (c : β) :
    c ∈ l.set i c :=
  List.mem_set (List.getElem?_eq_some_iff.mp there).1 c

namespace OutboundQueue

variable {α : Type}

/-- The three ends of a read. -/
theorem next_cases (q : OutboundQueue α) :
    q.closed = true ∧ q.next = (.closed, q) ∨
      q.closed = false ∧ q.items = [] ∧ q.next = (.pending, q) ∨
      ∃ m rest, q.closed = false ∧ q.items = m :: rest ∧
        q.next = (.message m, { q with items := rest, drops := 0 }) := by
  unfold next
  split
  next shut => exact .inl ⟨shut, rfl⟩
  next shut =>
    have isOpen : q.closed = false := by simpa using shut
    refine .inr ?_
    split
    next empty => exact .inl ⟨isOpen, empty, rfl⟩
    next m rest held => exact .inr ⟨m, rest, isOpen, held, rfl⟩

/-- A push leaves something to be found. -/
theorem push_due (q : OutboundQueue α) (m : α) : (q.push m).2.closed = true ∨ (q.push m).2.items ≠ [] := by
  obtain ⟨shut, ran⟩ | ⟨-, -, ran⟩ | ⟨-, -, -, ran⟩ | ⟨-, -, -, ran⟩ := q.push_cases m
  · exact .inl (by rw [ran]; exact shut)
  · exact .inr (by rw [ran]; simp)
  · exact .inl (by rw [ran])
  · exact .inr (by rw [ran]; simp)

end OutboundQueue

namespace AwaitedQueue

variable {α ρ : Type} {s : AwaitedQueue α ρ}

theorem notify_of_nobody (alone : s.parked = []) : s.notify = (none, { s with permit := true }) := by
  rw [notify, alone]

@[simp] theorem queue_notify (s : AwaitedQueue α ρ) : s.notify.2.queue = s.queue := by
  unfold notify
  split <;> rfl

theorem wakes_iff {r : PushOutcome} : wakes r = true ↔ r ≠ .closed := by
  cases r <;> decide

theorem push_of_closed (shut : s.queue.closed = true) (m : α) : s.push m = (.closed, s) := by
  rw [push, OutboundQueue.push_of_closed shut]

theorem wakes_push (isOpen : s.queue.closed = false) (m : α) : wakes (s.push m).1 = true := by
  refine wakes_iff.mpr fun shut => ?_
  rw [OutboundQueue.push_eq_closed_iff.mp shut] at isOpen
  cases isOpen

theorem close_of_closed (shut : s.queue.closed = true) : s.close = s := by
  rw [close, OutboundQueue.close_of_closed shut]

end AwaitedQueue

/-- The most steps of its own that a reader has to take, unless it finds nothing. -/
def ReaderPhase.ahead {α : Type} : ReaderPhase α → Nat
  | .waiting | .parked => 3
  | .entering => 2
  | .looking => 1
  | .done _ => 0

namespace ReaderPhase

variable {α : Type}

theorem ahead_le (p : ReaderPhase α) : p.ahead ≤ 3 := by
  cases p <;> simp [ahead]

theorem done_of_ahead {p : ReaderPhase α} (none_left : p.ahead = 0) : ∃ r, p = .done r := by
  cases p with
  | done r => exact ⟨r, rfl⟩
  | entering | looking | waiting | parked => cases none_left

end ReaderPhase

theorem QueueEvent.isRead_iff {α : Type} {e : QueueEvent α} : e.isRead = true ↔ e = .read := by
  cases e <;> simp [isRead]

namespace QueueWorld

variable {α : Type} {w v : QueueWorld α}

/-- What can happen around the reader. -/
inductive Writes (w v : QueueWorld α) : Prop
  | stays (reader : v.reader = w.reader) (awaited : v.awaited = w.awaited)
    (changing : w.IsChanging → v.IsChanging)
  | changes (reader : v.reader = w.reader) (permit : v.awaited.permit = w.awaited.permit)
    (parked : v.awaited.parked = w.awaited.parked) (due : v.IsDue) (changing : v.IsChanging)
  | tells (reader : v.reader = w.reader) (awaited : v.awaited = w.awaited.notify.2)

/-- What the reader can do next. -/
inductive Reads (w : QueueWorld α) : QueueWorld α → Prop
  | enters (phase : w.reader = .entering) : Reads w { w with reader := .looking }
  | finds {r : NextMessage α} {q : OutboundQueue α} (phase : w.reader = .looking)
    (found : w.awaited.queue.next = (r, q)) (something : r ≠ .pending) :
    Reads w { w with reader := .done r, awaited := { w.awaited with queue := q } }
  | misses (phase : w.reader = .looking) (idle : ¬ w.IsDue) : Reads w { w with reader := .waiting }
  | takes (phase : w.reader = .waiting) (permit : w.awaited.permit = true) :
    Reads w { w with reader := .entering, awaited := { w.awaited with permit := false } }
  | parks (phase : w.reader = .waiting) (permit : w.awaited.permit = false) :
    Reads w { w with reader := .parked, awaited := { w.awaited with parked := w.awaited.parked ++ [()] } }
  | sleeps (asleep : w.IsAsleep) : Reads w w
  | wakes (phase : w.reader = .parked) (woken : () ∉ w.awaited.parked) : Reads w { w with reader := .entering }
  | returns {r : NextMessage α} (phase : w.reader = .done r) : Reads w { w with reader := .entering }

theorem writes_come (w : QueueWorld α) (p : WriterPhase α) :
    w.Writes { w with writers := w.writers ++ [p] } :=
  .stays rfl rfl fun ⟨q, member, changing⟩ => ⟨q, List.mem_append_left _ member, changing⟩

theorem writes_write (w : QueueWorld α) (i : Nat) : w.Writes (w.after (.write i)) := by
  rcases there : w.writers[i]? with _ | p
  · simp only [after, there]
    exact .stays rfl rfl id
  simp only [after, there]
  cases p with
  | pushing m =>
    cases shut : w.awaited.queue.closed with
    | true =>
      simp only [WriterPhase.step, AwaitedQueue.push_of_closed shut]
      exact .stays rfl rfl fun changing => exists_mem_set there rfl changing _
    | false =>
      simp only [WriterPhase.step, AwaitedQueue.wakes_push shut]
      exact .changes rfl rfl rfl (w.awaited.queue.push_due m) ⟨_, mem_set_of_getElem? there _, rfl⟩
  | closing =>
    cases shut : w.awaited.queue.closed with
    | true =>
      simp only [WriterPhase.step, AwaitedQueue.close_of_closed shut]
      exact .stays rfl rfl fun changing => exists_mem_set there rfl changing _
    | false =>
      simp only [WriterPhase.step, shut]
      exact .changes rfl rfl rfl (.inl rfl) ⟨_, mem_set_of_getElem? there _, rfl⟩
  | pushed r | closed wasOpen => exact .tells rfl rfl
  | returned answer => exact .stays rfl rfl fun changing => exists_mem_set there rfl changing _

theorem writes_after {e : QueueEvent α} (other : e ≠ .read) (kept : e ≠ .giveUp) : w.Writes (w.after e) := by
  cases e with
  | push m => exact w.writes_come (.pushing m)
  | close => exact w.writes_come .closing
  | write i => exact w.writes_write i
  | read => exact absurd rfl other
  | giveUp => exact absurd rfl kept

theorem reads_read (w : QueueWorld α) : w.Reads (w.after .read) := by
  obtain ⟨s, writers, phase⟩ := w
  cases phase with
  | entering => exact .enters rfl
  | looking =>
    obtain ⟨-, found⟩ | ⟨isOpen, empty, found⟩ | ⟨m, rest, -, -, found⟩ := s.queue.next_cases
    · simp only [after, AwaitedQueue.step, found]
      exact .finds rfl found nofun
    · simp only [after, AwaitedQueue.step, found]
      exact .misses rfl (by simp [IsDue, isOpen, empty])
    · simp only [after, AwaitedQueue.step, found]
      exact .finds rfl found nofun
  | waiting =>
    simp only [after, AwaitedQueue.step]
    split
    next permit => exact .takes rfl permit
    next permit => exact .parks rfl (Bool.eq_false_iff.mpr permit)
  | parked =>
    by_cases member : () ∈ s.parked
    · simp only [after, AwaitedQueue.step, if_pos member]
      exact .sleeps ⟨rfl, member⟩
    · simp only [after, AwaitedQueue.step, if_neg member]
      exact .wakes rfl member
  | done r => exact .returns rfl

/-- Nobody but the reader is parked, and no wake-up is kept while it is. If there is something to find and the
reader does not look again by itself, a wake-up is kept or is still to be given. -/
structure Sound (w : QueueWorld α) : Prop where
  alone : w.awaited.parked = [] ∨ w.awaited.parked = [()] ∧ w.reader = .parked ∧ w.awaited.permit = false
  owed : w.IsDue → w.reader = .waiting ∨ w.IsAsleep → w.awaited.permit = true ∨ w.IsChanging
  found : ∀ r, w.reader = .done r → r ≠ .pending

theorem sound_ofCapacity (capacity : Nat) : (ofCapacity capacity : QueueWorld α).Sound :=
  ⟨.inl rfl, fun _ waits => (nomatch waits), nofun⟩

theorem not_isAsleep_of_nobody (alone : w.awaited.parked = []) : ¬ w.IsAsleep := by
  intro ⟨_, member⟩
  rw [alone] at member
  cases member

theorem sound_of_up (nobody : w.awaited.parked = []) (up : w.reader ≠ .waiting)
    (found : ∀ r, w.reader = .done r → r ≠ .pending) : w.Sound :=
  ⟨.inl nobody, fun _ waits => absurd (waits.resolve_left up) (not_isAsleep_of_nobody nobody), found⟩

theorem Writes.reader (writes : w.Writes v) : v.reader = w.reader := by
  cases writes <;> assumption

theorem Writes.due (writes : w.Writes v) (due : w.IsDue) : v.IsDue := by
  cases writes with
  | stays reader awaited changing =>
    rw [IsDue, awaited]
    exact due
  | changes reader permit parked due changing => exact due
  | tells reader awaited =>
    rw [IsDue, awaited, AwaitedQueue.queue_notify]
    exact due

namespace Sound

theorem writes (h : w.Sound) (writes : w.Writes v) : v.Sound := by
  cases writes with
  | stays reader awaited changing =>
    refine ⟨?_, fun due waits => ?_, reader ▸ h.found⟩
    · rw [awaited, reader]
      exact h.alone
    · rw [IsDue, awaited] at due
      rw [IsAsleep, awaited, reader] at waits
      rw [awaited]
      exact (h.owed due waits).imp_right changing
  | changes reader permit parked due changing =>
    refine ⟨?_, fun _ _ => .inr changing, reader ▸ h.found⟩
    rw [parked, reader, permit]
    exact h.alone
  | tells reader awaited =>
    obtain nobody | ⟨parked, phase, -⟩ := h.alone
    · rw [AwaitedQueue.notify_of_nobody nobody] at awaited
      refine ⟨.inl ?_, fun _ _ => .inl ?_, reader ▸ h.found⟩
      · rw [awaited]
        exact nobody
      · rw [awaited]
    · -- the wake-up goes to the reader, which is no longer among those who are parked
      rw [AwaitedQueue.notify, parked] at awaited
      refine sound_of_up (by rw [awaited]) ?_ (reader ▸ h.found)
      rw [reader, phase]
      nofun

/-- Whoever is parked is the reader. -/
theorem nobody (h : w.Sound) {p : ReaderPhase α} (phase : w.reader = p) (up : p ≠ .parked) :
    w.awaited.parked = [] :=
  h.alone.resolve_right fun ⟨_, parked, _⟩ => up (phase.symm.trans parked)

theorem reads (h : w.Sound) (reads : w.Reads v) : v.Sound := by
  cases reads with
  | enters phase => exact sound_of_up (h.nobody phase nofun) nofun nofun
  | finds phase found something =>
    refine sound_of_up (h.nobody phase nofun) nofun ?_
    rintro r ⟨⟩
    exact something
  | misses phase idle => exact ⟨.inl (h.nobody phase nofun), fun due => absurd due idle, nofun⟩
  | takes phase permit => exact sound_of_up (h.nobody phase nofun) nofun nofun
  | parks phase permit =>
    -- no wake-up was kept, so whatever there is to find is still to be told
    have nobody := h.nobody phase nofun
    refine ⟨.inr ⟨?_, rfl, permit⟩, fun due _ => h.owed due (.inl phase), nofun⟩
    rw [nobody]
    rfl
  | sleeps asleep => exact h
  | wakes phase woken =>
    refine sound_of_up (h.alone.resolve_right fun ⟨parked, _⟩ => woken ?_) nofun nofun
    rw [parked]
    exact .head _
  | returns phase => exact sound_of_up (h.nobody phase nofun) nofun nofun

theorem giveUp (h : w.Sound) : (w.after .giveUp).Sound := by
  refine sound_of_up ?_ nofun nofun
  show (w.awaited.giveUp () w.reader).parked = []
  cases phase : w.reader with
  | parked =>
    simp only [AwaitedQueue.giveUp]
    obtain nobody | ⟨parked, -, -⟩ := h.alone
    · rw [AwaitedQueue.notify_of_nobody nobody]
      simp [nobody]
    · simp [parked]
  | entering | looking | waiting | done r => exact h.nobody phase nofun

theorem after (h : w.Sound) (e : QueueEvent α) : (w.after e).Sound := by
  by_cases read : e = .read
  · exact read ▸ h.reads w.reads_read
  by_cases givenUp : e = .giveUp
  · exact givenUp ▸ h.giveUp
  exact h.writes (writes_after read givenUp)

theorem run (h : w.Sound) (events : List (QueueEvent α)) : (w.run events).Sound := by
  induction events generalizing w with
  | nil => exact h
  | cons e events ih => exact ih (h.after e)

theorem changing_of_asleep (h : w.Sound) (due : w.IsDue) (asleep : w.IsAsleep) : w.IsChanging := by
  obtain nobody | ⟨-, -, permit⟩ := h.alone
  · exact absurd asleep (not_isAsleep_of_nobody nobody)
  · refine (h.owed due (.inr asleep)).resolve_left ?_
    rw [permit]
    exact Bool.false_ne_true

theorem returns_of_done (h : w.Sound) (done : ∃ r, w.reader = .done r) (events : List (QueueEvent α)) :
    w.Returns events :=
  done.elim fun r phase => ⟨[], List.nil_prefix, r, h.found r phase, phase⟩

end Sound

theorem Returns.cons {e : QueueEvent α} {events : List (QueueEvent α)} (later : (w.after e).Returns events) :
    w.Returns (e :: events) := by
  obtain ⟨before, part, found⟩ := later
  exact ⟨e :: before, List.cons_prefix_cons.mpr ⟨rfl, part⟩, found⟩

/-- There is something for the reader to find, and the reader comes to it by itself. -/
structure Awake (w : QueueWorld α) : Prop where
  due : w.IsDue
  permit : w.reader = .waiting → w.awaited.permit = true
  up : ¬ w.IsAsleep

namespace Awake

theorem writes (awake : w.Awake) (h : w.Sound) (writes : w.Writes v) : v.Awake := by
  have due := writes.due awake.due
  cases writes with
  | stays reader awaited changing =>
    refine ⟨due, ?_, ?_⟩
    · rw [reader, awaited]
      exact awake.permit
    · rw [IsAsleep, reader, awaited]
      exact awake.up
  | changes reader permit parked _ changing =>
    refine ⟨due, ?_, ?_⟩
    · rw [reader, permit]
      exact awake.permit
    · rw [IsAsleep, reader, parked]
      exact awake.up
  | tells reader awaited =>
    obtain nobody | ⟨parked, phase, -⟩ := h.alone
    · rw [AwaitedQueue.notify_of_nobody nobody] at awaited
      exact ⟨due, fun _ => by rw [awaited], not_isAsleep_of_nobody (by rw [awaited]; exact nobody)⟩
    · exact absurd ⟨phase, parked ▸ .head _⟩ awake.up

theorem reads (awake : w.Awake) (reads : w.Reads v) (going : 0 < w.reader.ahead) :
    (∃ r, v.reader = .done r) ∨ v.Awake ∧ v.reader.ahead < w.reader.ahead := by
  cases reads with
  | enters phase => exact .inr ⟨⟨awake.due, nofun, nofun⟩, by simp [phase, ReaderPhase.ahead]⟩
  | finds phase found something => exact .inl ⟨_, rfl⟩
  | misses phase idle => exact absurd awake.due idle
  | takes phase permit => exact .inr ⟨⟨awake.due, nofun, nofun⟩, by simp [phase, ReaderPhase.ahead]⟩
  | parks phase permit =>
    rw [awake.permit phase] at permit
    cases permit
  | sleeps asleep => exact absurd asleep awake.up
  | wakes phase woken => exact .inr ⟨⟨awake.due, nofun, nofun⟩, by simp [phase, ReaderPhase.ahead]⟩
  | returns phase =>
    rw [phase] at going
    cases going

/-- The call of the reader returns after as many steps of its own as it may need, whatever is done around it. -/
theorem returns (awake : w.Awake) (h : w.Sound) {more : List (QueueEvent α)} (kept : .giveUp ∉ more)
    (enough : w.reader.ahead ≤ more.countP QueueEvent.isRead) : w.Returns more := by
  induction more generalizing w with
  | nil => exact h.returns_of_done (ReaderPhase.done_of_ahead (Nat.le_zero.mp enough)) []
  | cons e more ih =>
    rcases Nat.eq_zero_or_pos w.reader.ahead with none_left | going
    · exact h.returns_of_done (ReaderPhase.done_of_ahead none_left) _
    obtain ⟨stays, later⟩ := not_or.mp (mt List.mem_cons.mpr kept)
    by_cases read : e = .read
    · subst read
      rw [List.countP_cons_of_pos rfl] at enough
      obtain done | ⟨awake, less⟩ := awake.reads w.reads_read going
      · exact ((h.after .read).returns_of_done done more).cons
      · exact (ih awake (h.after .read) later (by omega)).cons
    · have writes := writes_after (w := w) read (Ne.symm stays)
      rw [List.countP_cons_of_neg (QueueEvent.isRead_iff.not.mpr read), ← writes.reader] at enough
      exact (ih (awake.writes h writes) (h.after e) later enough).cons

end Awake

/-- Whoever changes the queue wakes its reader. When all who have changed it have returned, and it is closed or holds
a message, the reader is not parked without a wake-up, and its call returns the message or the end of the queue
within three steps of its own, whatever the others do between them. -/
theorem wakes_for_every_change (capacity : Nat) (events : List (QueueEvent α))
    (returned : ¬ ((ofCapacity capacity : QueueWorld α).run events).IsChanging)
    (due : ((ofCapacity capacity : QueueWorld α).run events).IsDue) :
    let w := (ofCapacity capacity : QueueWorld α).run events
    ¬ w.IsAsleep ∧ ∀ more, .giveUp ∉ more → 3 ≤ more.countP QueueEvent.isRead → w.Returns more := by
  intro w
  have h : w.Sound := (sound_ofCapacity capacity).run events
  have permit : w.reader = .waiting → w.awaited.permit = true := fun waits =>
    (h.owed due (.inl waits)).resolve_right returned
  have up : ¬ w.IsAsleep := fun asleep => returned (h.changing_of_asleep due asleep)
  have awake : w.Awake := ⟨due, permit, up⟩
  exact ⟨up, fun more kept enough => awake.returns h kept (Nat.le_trans w.reader.ahead_le enough)⟩

/-- Two messages come between a look of the reader and its wait, and of their two wake-ups one is kept. It reads both
and is parked. Then a third message comes and the queue is closed: one wake-up is for the reader, one is kept. -/
def merged : List (QueueEvent Nat) :=
  [.push 1, .push 2, .push 3, .close, .read, .read, .write 0, .write 1, .write 0, .write 1] ++
    List.replicate 10 .read ++ [.write 2, .write 3, .write 3, .write 2]

theorem wakes_for_every_change_merged :
    let w := (ofCapacity 2).run merged
    ¬ w.IsChanging ∧ w.IsDue ∧ w.reader = .parked ∧ w.awaited.permit = true ∧ ¬ w.IsAsleep ∧
      w.Returns [.read, .push 4, .read, .write 4, .close, .read] := by
  intro w
  have returned : ¬ w.IsChanging := by decide
  have due : w.IsDue := .inl (by decide)
  obtain ⟨awake, returns⟩ := wakes_for_every_change 2 merged returned due
  exact ⟨returned, due, by decide, by decide, awake, returns _ (by decide) (by decide)⟩

/-- Between the two steps of a push its message may find the reader asleep. -/
example :
    let w := (ofCapacity 2 : QueueWorld Nat).run [.push 1, .read, .read, .write 0, .read]
    w.IsAsleep ∧ w.IsDue ∧ w.IsChanging :=
  ⟨⟨by decide, by decide⟩, .inr (by decide), by decide⟩

end QueueWorld

end Workboard
