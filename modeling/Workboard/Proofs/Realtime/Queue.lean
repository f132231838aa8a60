import Workboard.Proofs.Realtime.Isolation

/-!
What a bounded queue does with its messages. While it is open, each message that was pushed was delivered, was
evicted, or waits, and those that wait are the last. The queue closes when a whole capacity of messages was
evicted without a delivery between them.
-/

namespace Workboard

namespace Departure

variable {α : Type}

theorem streak_append (gone : List (Departure α)) (d : Departure α) :
    streak (gone ++ [d]) = streakAfter (streak gone) d := by
  rw [streak, streak, List.foldl_append]
  rfl

/-- What was delivered of messages that left in order is in order. -/
theorem delivered_sublist (gone : List (Departure α)) :
    (gone.filterMap delivered?).Sublist (gone.map message) := by
  induction gone with
  | nil => exact .slnil
  | cons d gone ih =>
    cases d with
    | delivered m => exact ih.cons_cons m
    | evicted m => exact ih.cons m

end Departure

theorem QueueCall.pushed_append {α : Type} (calls more : List (QueueCall α)) :
    pushed (calls ++ more) = pushed calls ++ pushed more := by
  rw [pushed, List.filterMap_append]
  rfl

namespace OutboundQueue

variable {α : Type} {limit : Nat} {q : OutboundQueue α} {calls : List (QueueCall α)}
  {gone : List (Departure α)}

/-- A queue after some calls, at which these messages have left it. -/
structure Accounts (limit : Nat) (calls : List (QueueCall α)) (gone : List (Departure α))
    (q : OutboundQueue α) : Prop where
  capacity : q.capacity = limit
  room : 1 ≤ limit
  bounded : q.items.length ≤ limit
  drops : q.drops = Departure.streak gone
  pushed : q.closed = false → QueueCall.pushed calls = gone.map Departure.message ++ q.items
  left : (gone.map Departure.message).Sublist (QueueCall.pushed calls)
  full : q.closed = false → 0 < q.drops → q.items.length = limit
  going : q.closed = false → q.drops < limit
  closed : q.closed = true ↔ .close ∈ calls ∨ q.drops = limit

theorem accounts_ofCapacity (capacity : Nat) :
    Accounts (max capacity 1) [] [] (ofCapacity capacity : OutboundQueue α) := by
  refine ⟨rfl, by omega, Nat.zero_le _, rfl, fun _ => rfl, .slnil, nofun, fun _ => ?_, ?_⟩
  · show 0 < max capacity 1
    omega
  · show false = true ↔ _ ∨ 0 = max capacity 1
    simp
    omega

/-- The four ends of a push. -/
theorem push_cases (q : OutboundQueue α) (m : α) :
    q.closed = true ∧ q.push m = (.closed, q) ∨
      q.closed = false ∧ q.items.length < q.capacity ∧
        q.push m = (.queued, { q with items := q.items ++ [m] }) ∨
      q.closed = false ∧ q.capacity ≤ q.items.length ∧ q.capacity ≤ q.drops + 1 ∧
        q.push m = (.overflowed, { q with items := [], drops := q.drops + 1, closed := true }) ∨
      q.closed = false ∧ q.capacity ≤ q.items.length ∧ q.drops + 1 < q.capacity ∧
        q.push m = (.droppedOldest, { q with items := q.items.drop 1 ++ [m], drops := q.drops + 1 }) := by
  unfold push
  split
  next h => exact .inl ⟨h, rfl⟩
  next h =>
    have isOpen : q.closed = false := by simpa using h
    refine .inr ?_
    split
    next space => exact .inl ⟨isOpen, space, rfl⟩
    next noSpace =>
      refine .inr ?_
      split
      next burst => exact .inl ⟨isOpen, by omega, burst, rfl⟩
      next goes => exact .inr ⟨isOpen, by omega, by omega, rfl⟩

namespace Accounts

/-- A queue that is full has an oldest message. -/
theorem oldest (h : Accounts limit calls gone q) (full : q.capacity ≤ q.items.length) :
    ∃ oldest rest, q.items = oldest :: rest ∧ rest.length + 1 = limit := by
  have room := h.room
  have bounded := h.bounded
  rw [h.capacity] at full
  rcases held : q.items with _ | ⟨oldest, rest⟩
  · rw [held, List.length_nil] at full
    omega
  · rw [held, List.length_cons] at full bounded
    exact ⟨oldest, rest, rfl, by omega⟩

theorem unclosed (h : Accounts limit calls gone q) (isOpen : q.closed = false) : QueueCall.close ∉ calls := by
  intro closed
  have shut := h.closed.mpr (.inl closed)
  rw [isOpen] at shut
  cases shut

theorem after_push (h : Accounts limit calls gone q) (m : α) :
    Accounts limit (calls ++ [.push m]) (gone ++ q.leaving (.push m)) (q.after (.push m)) := by
  have told : QueueCall.pushed (calls ++ [.push m]) = QueueCall.pushed calls ++ [m] :=
    QueueCall.pushed_append _ _
  have closing : QueueCall.close ∈ calls ++ [.push m] ↔ QueueCall.close ∈ calls := by simp
  have more : (QueueCall.pushed calls).Sublist (QueueCall.pushed calls ++ [m]) := List.sublist_append_left _ _
  obtain ⟨shut, ran⟩ | ⟨isOpen, space, ran⟩ | ⟨isOpen, full, burst, ran⟩ | ⟨isOpen, full, goes, ran⟩ := q.push_cases m
  · simp only [after, leaving, ran, List.append_nil]
    refine ⟨h.capacity, h.room, h.bounded, h.drops, ?_, told ▸ h.left.trans more, h.full, h.going, ?_⟩
    · intro isOpen
      rw [shut] at isOpen
      cases isOpen
    · rw [closing]
      exact h.closed
  · have pushed := h.pushed isOpen
    have calm : q.drops = 0 := by
      rcases Nat.eq_zero_or_pos q.drops with none_lost | lost
      · exact none_lost
      · have full := h.full isOpen lost
        have := h.capacity
        omega
    simp only [after, leaving, ran, List.append_nil]
    refine ⟨h.capacity, h.room, ?_, h.drops, ?_, told ▸ h.left.trans more, ?_, h.going, ?_⟩
    · have capacity := h.capacity
      rw [List.length_append, List.length_singleton]
      omega
    · intro _
      rw [told, pushed, List.append_assoc]
    · intro _ lost
      rw [calm] at lost
      exact absurd lost (Nat.lt_irrefl 0)
    · rw [closing]
      exact h.closed
  · obtain ⟨oldest, rest, held, length⟩ := h.oldest full
    have pushed := h.pushed isOpen
    have going := h.going isOpen
    have capacity := h.capacity
    simp only [after, leaving, ran, held, List.head?_cons, Option.toList_some, List.map_cons, List.map_nil]
    have shut {P : Prop} (isOpen : true = false) : P := (Bool.false_ne_true isOpen.symm).elim
    refine ⟨h.capacity, h.room, Nat.zero_le _, ?_, shut, ?_, shut, shut, ?_⟩
    · rw [Departure.streak_append, ← h.drops]
      rfl
    · rw [told, pushed, held]
      simp [Departure.message]
    · simp only [true_iff]
      right
      omega
  · obtain ⟨oldest, rest, held, length⟩ := h.oldest full
    have pushed := h.pushed isOpen
    have capacity := h.capacity
    simp only [after, leaving, ran, held, List.head?_cons, Option.toList_some, List.map_cons, List.map_nil,
      List.drop_succ_cons, List.drop_zero]
    refine ⟨h.capacity, h.room, ?_, ?_, ?_, ?_, ?_, ?_, ?_⟩
    · simp
      omega
    · rw [Departure.streak_append, ← h.drops]
      rfl
    · intro _
      rw [told, pushed, held]
      simp [Departure.message]
    · rw [told, pushed, held]
      simp [Departure.message]
    · intro _ _
      simpa using length
    · intro _
      dsimp only
      omega
    · have unclosed := h.unclosed isOpen
      rw [closing]
      dsimp only
      simp only [isOpen, unclosed, false_or, Bool.false_eq_true, false_iff]
      omega

theorem after_next (h : Accounts limit calls gone q) :
    Accounts limit (calls ++ [.next]) (gone ++ q.leaving .next) (q.after .next) := by
  have told : QueueCall.pushed (calls ++ [.next]) = QueueCall.pushed calls :=
    (QueueCall.pushed_append _ _).trans (List.append_nil _)
  have closing : QueueCall.close ∈ calls ++ [.next] ↔ QueueCall.close ∈ calls := by simp
  have unchanged : Accounts limit (calls ++ [.next]) gone q :=
    ⟨h.capacity, h.room, h.bounded, h.drops, told ▸ h.pushed, told ▸ h.left, h.full, h.going,
      h.closed.trans (or_congr_left closing.symm)⟩
  simp only [after, leaving, next]
  split
  next => simpa [NextMessage.message?] using unchanged
  next shut =>
    have isOpen : q.closed = false := by simpa using shut
    split
    next => simpa [NextMessage.message?] using unchanged
    next m rest held =>
      have pushed := h.pushed isOpen
      have bounded := h.bounded
      have going := h.going isOpen
      rw [held, List.length_cons] at bounded
      have whole : QueueCall.pushed calls = (gone ++ [Departure.delivered m]).map Departure.message ++ rest := by
        rw [pushed, held]
        simp [Departure.message]
      refine ⟨h.capacity, h.room, by dsimp only; omega, ?_, fun _ => told ▸ whole, ?_, ?_, ?_, ?_⟩
      · exact (Departure.streak_append gone (.delivered m)).symm
      · rw [told, whole]
        exact List.sublist_append_left _ _
      · intro _ lost
        exact absurd lost (Nat.lt_irrefl 0)
      · intro _
        exact Nat.lt_of_le_of_lt (Nat.zero_le _) going
      · have unclosed := h.unclosed isOpen
        rw [closing]
        dsimp only
        simp only [isOpen, unclosed, false_or, Bool.false_eq_true, false_iff]
        omega

theorem after_close (h : Accounts limit calls gone q) :
    Accounts limit (calls ++ [.close]) (gone ++ q.leaving .close) (q.after .close) := by
  have told : QueueCall.pushed (calls ++ [.close]) = QueueCall.pushed calls :=
    (QueueCall.pushed_append _ _).trans (List.append_nil _)
  rw [leaving, List.append_nil]
  exact ⟨h.capacity, h.room, h.bounded, h.drops, nofun, told ▸ h.left, nofun, nofun, by simp [after, close]⟩

theorem after (h : Accounts limit calls gone q) (call : QueueCall α) :
    Accounts limit (calls ++ [call]) (gone ++ q.leaving call) (q.after call) := by
  cases call with
  | push m => exact h.after_push m
  | next => exact h.after_next
  | close => exact h.after_close

theorem run (h : Accounts limit calls gone q) (more : List (QueueCall α)) :
    Accounts limit (calls ++ more) (gone ++ q.departures more) (q.run more) := by
  induction more generalizing calls gone q with
  | nil => simpa [departures, OutboundQueue.run] using h
  | cons call more ih =>
    have later := ih (h.after call)
    rw [List.append_assoc, List.append_assoc] at later
    exact later

end Accounts

/-- What is delivered is what reads find. -/
theorem delivered_departures (q : OutboundQueue α) (calls : List (QueueCall α)) :
    (q.departures calls).filterMap Departure.delivered? = (q.answers calls).filterMap NextMessage.message? := by
  have now (q : OutboundQueue α) (call : QueueCall α) :
      (q.leaving call).filterMap Departure.delivered? = (q.told call).filterMap NextMessage.message? := by
    cases call with
    | push m =>
      simp only [leaving, told]
      split
      · cases q.items.head? <;> rfl
      · cases q.items.head? <;> rfl
      · rfl
      · rfl
    | next => cases found : q.next.1 <;> simp [leaving, told, found, NextMessage.message?, Departure.delivered?]
    | close => rfl
  induction calls generalizing q with
  | nil => rfl
  | cons call calls ih => rw [departures, answers, List.filterMap_append, List.filterMap_append, now, ih]

theorem close_of_closed (h : q.closed = true) : q.close = q := by
  rw [close, ← h]

/-- A closed queue stays as it is. -/
theorem run_of_closed (h : q.closed = true) (more : List (QueueCall α)) :
    q.run more = q ∧ q.departures more = [] := by
  induction more with
  | nil => exact ⟨rfl, rfl⟩
  | cons call more ih =>
    have still : q.after call = q ∧ q.leaving call = [] := by
      cases call with
      | push m => simp [after, leaving, push_of_closed h]
      | next => simp [after, leaving, next_of_closed h, NextMessage.message?]
      | close => exact ⟨close_of_closed h, rfl⟩
    rw [run, List.foldl_cons, departures, still.1, still.2]
    exact ih

namespace Accounts

/-- A push to an open queue gives up the oldest message if the queue is full, and none otherwise. -/
theorem leaving_push (h : Accounts limit calls gone q) (isOpen : q.closed = false) (m : α) :
    (q.items.length = limit → ∃ oldest, q.items.head? = some oldest ∧ q.leaving (.push m) = [.evicted oldest]) ∧
      (q.items.length ≠ limit → q.leaving (.push m) = []) := by
  have capacity := h.capacity
  have bounded := h.bounded
  obtain ⟨shut, -⟩ | ⟨-, space, ran⟩ | ⟨-, full, -, ran⟩ | ⟨-, full, -, ran⟩ := q.push_cases m
  · rw [isOpen] at shut
    cases shut
  · exact ⟨fun full => by omega, fun _ => by simp only [leaving, ran]⟩
  all_goals
    obtain ⟨oldest, rest, held, -⟩ := h.oldest full
    refine ⟨fun _ => ⟨oldest, by rw [held]; rfl, ?_⟩, fun spare => by omega⟩
    simp [leaving, ran, held]

/-- A push closes an open queue if it evicts a message and completes a whole capacity of evictions. -/
theorem closed_push_iff (h : Accounts limit calls gone q) (isOpen : q.closed = false) (m : α) :
    (q.push m).2.closed = true ↔ q.items.length = limit ∧ Departure.streak gone + 1 = limit := by
  have capacity := h.capacity
  have bounded := h.bounded
  have drops := h.drops
  have going := h.going isOpen
  obtain ⟨shut, -⟩ | ⟨-, space, ran⟩ | ⟨-, full, burst, ran⟩ | ⟨-, full, goes, ran⟩ := q.push_cases m
  · rw [isOpen] at shut
    cases shut
  all_goals
    simp only [ran, isOpen, Bool.false_eq_true, false_iff, true_iff]
    omega

end Accounts

/-- While a queue is open, the messages that were pushed are those that were delivered or evicted, in the order in
which they left, followed by those that it still holds, and these are never more than its capacity. A push evicts
a message if and only if the queue is full, and it is the oldest one; losses that are still counted mean that the
queue is full. Reads find the messages that were delivered, and they are found in the order in which they were
pushed. The queue is closed from the moment at which a whole capacity of messages was evicted without a delivery
between them, or it was closed by a call, and then no call changes it or gets a message from it. -/
theorem accounts_for_messages (capacity : Nat) (calls : List (QueueCall α)) :
    let limit := max capacity 1
    let q := (ofCapacity capacity : OutboundQueue α).run calls
    let gone := (ofCapacity capacity : OutboundQueue α).departures calls
    (q.closed = false →
      QueueCall.pushed calls = gone.map Departure.message ++ q.items ∧ q.items.length ≤ limit ∧
        (0 < q.drops → q.items.length = limit) ∧
        ∀ m,
          (q.items.length = limit →
            ∃ oldest, q.items.head? = some oldest ∧ q.leaving (.push m) = [.evicted oldest]) ∧
          (q.items.length ≠ limit → q.leaving (.push m) = []) ∧
          ((q.push m).2.closed = true ↔ q.items.length = limit ∧ Departure.streak gone + 1 = limit)) ∧
      gone.filterMap Departure.delivered? =
        ((ofCapacity capacity : OutboundQueue α).answers calls).filterMap NextMessage.message? ∧
      (gone.filterMap Departure.delivered?).Sublist (QueueCall.pushed calls) ∧
      (q.closed = true ↔ .close ∈ calls ∨ Departure.streak gone = limit) ∧
      (q.closed = true → (∀ more, q.run more = q ∧ q.departures more = []) ∧
        (∀ m, (q.push m).1 = .closed) ∧ q.next.1 = .closed) := by
  intro limit q gone
  have h : Accounts limit calls gone q := (accounts_ofCapacity capacity).run calls
  refine ⟨fun isOpen => ?_, delivered_departures _ calls, ?_, ?_, fun shut => ?_⟩
  · refine ⟨h.pushed isOpen, h.bounded, h.full isOpen, fun m => ?_⟩
    obtain ⟨full, spare⟩ := h.leaving_push isOpen m
    exact ⟨full, spare, h.closed_push_iff isOpen m⟩
  · exact (Departure.delivered_sublist gone).trans h.left
  · rw [← h.drops]
    exact h.closed
  · refine ⟨run_of_closed shut, fun m => ?_, ?_⟩
    · rw [push_of_closed shut]
    · rw [next_of_closed shut]

end OutboundQueue

end Workboard
