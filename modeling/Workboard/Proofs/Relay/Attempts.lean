import Workboard.Relay.Publishing

/-!
What attempts to publish a row leave behind. An attempt calls the brokers in their order, so at every moment a
broker has taken each row at least as often as the broker after it.
-/

namespace Workboard

variable {β : Type} {publish : BrokerMessage → β → Except PublishFailure Unit × β}

namespace Publishing

/-- Brokers are called by their places, and all but the last that is called have taken the message. -/
theorem inTurn_call (publish : BrokerMessage → β → Except PublishFailure Unit × β) (m : BrokerMessage)
    {brokers : List (β × Nat)} {start : Nat} (places : brokers.map (·.2) = List.range' start brokers.length) :
    ∃ k ≤ brokers.length,
      (inTurn (call publish m) brokers).2.2 = (List.range' start k).map (fun i =>
        ⟨i, m, decide (i + 1 < start + k) || (inTurn (call publish m) brokers).1.isOk⟩) ∧
      ((inTurn (call publish m) brokers).1.isOk = true → k = brokers.length) ∧
      ((inTurn (call publish m) brokers).1.isOk = false → 0 < k) ∧
      (inTurn (call publish m) brokers).2.1.map (·.2) = brokers.map (·.2) := by
  induction brokers generalizing start with
  | nil => exact ⟨0, Nat.le_refl _, rfl, fun _ => rfl, nofun, rfl⟩
  | cons entry brokers ih =>
    obtain ⟨b, place⟩ := entry
    obtain ⟨rfl, rest⟩ : place = start ∧ brokers.map (·.2) = List.range' (start + 1) brokers.length := by
      simpa [List.range'_succ] using places
    rcases answer : publish m b with ⟨e | ⟨⟩, b'⟩
    · have first : inTurn (call publish m) ((b, place) :: brokers) =
          (.error e, (b', place) :: brokers, [⟨place, m, false⟩]) := by
        simp only [inTurn, call, answer]
        rfl
      rw [first]
      exact ⟨1, by simp, by simp [Except.isOk, Except.toBool], nofun, by simp, by simp⟩
    · obtain ⟨k, le, calls, all, called, same⟩ := ih rest
      have first : inTurn (call publish m) ((b, place) :: brokers) =
          ((inTurn (call publish m) brokers).1, (b', place) :: (inTurn (call publish m) brokers).2.1,
            ⟨place, m, true⟩ :: (inTurn (call publish m) brokers).2.2) := by
        simp only [inTurn, call, answer]
        rfl
      rw [first]
      have head : (decide (place + 1 < place + (k + 1)) || (inTurn (call publish m) brokers).1.isOk) = true := by
        rcases result : (inTurn (call publish m) brokers).1.isOk with _ | _
        · have := called result
          simp
          omega
        · simp
      refine ⟨k + 1, Nat.succ_le_succ le, ?_, fun ok => congrArg (· + 1) (all ok), fun _ => Nat.succ_pos k,
        by simp [same]⟩
      simp only [List.range'_succ, List.map_cons, head, calls]
      congr 1
      refine List.map_congr_left fun i _ => ?_
      rw [show place + 1 + k = place + (k + 1) by omega]

/-- What it means that brokers stand at their places. -/
def Placed (n : Nat) (p : Publishing β) : Prop := p.brokers.map (·.2) = List.range n

theorem placed_ofBrokers (brokers : List β) : (ofBrokers brokers).Placed brokers.length := by
  simp [Placed, ofBrokers, List.range_eq_range']

theorem isOk_iff_accepted (result : Except PublishFailure Unit) :
    result.isOk = decide (delivery result = .accepted) := by
  rcases result with (e | reason) | ⟨⟩ <;> rfl

/-- What a publisher does with a row is one attempt. -/
theorem handle_attempts (publish : BrokerMessage → β → Except PublishFailure Unit × β) (r : OutboxRecord)
    {n : Nat} {p : Publishing β} (placed : p.Placed n) :
    (p.handle publish r).2.Placed n ∧
      ∃ calls, (p.handle publish r).2.calls = p.calls ++ calls ∧
        PublishCall.Attempts n r (p.handle publish r).1 calls := by
  have length : p.brokers.length = n := by simpa using congrArg List.length placed
  have places : p.brokers.map (·.2) = List.range' 0 p.brokers.length := by
    rw [placed, length, List.range_eq_range']
  obtain ⟨k, le, calls, all, called, same⟩ := inTurn_call publish (.ofRecord r) places
  rw [isOk_iff_accepted] at all called
  refine ⟨same.trans placed, _, rfl, k, length ▸ le, ?_, ?_, ?_⟩
  · rw [calls, List.range_eq_range']
    refine List.map_congr_left fun i _ => ?_
    rw [isOk_iff_accepted, Nat.zero_add]
    rfl
  · exact fun accepted => length ▸ all (decide_eq_true accepted)
  · exact fun refused => called (decide_eq_false refused)

end Publishing

namespace PublishCall

/-- At every moment, a broker had taken each row at least as often as the broker after it. -/
def Even (calls : List PublishCall) : Prop :=
  ∀ moment place id, takenBy (calls.take moment) (place + 1) id ≤ takenBy (calls.take moment) place id

theorem even_nil : Even [] := fun moment place id => by simp [takenBy]

theorem Even.append {front back : List PublishCall} (h : Even front) (h' : Even back) : Even (front ++ back) := by
  intro moment place id
  have first := h moment place id
  have second := h' (moment - front.length) place id
  simp only [takenBy, List.take_append, List.countP_append] at *
  omega

theorem Even.flatten {attempts : List (List PublishCall)} (h : ∀ calls ∈ attempts, Even calls) :
    Even attempts.flatten := by
  induction attempts with
  | nil => exact even_nil
  | cons calls attempts ih =>
    rw [List.flatten_cons]
    exact (h calls List.mem_cons_self).append (ih fun later mem => h later (List.mem_cons_of_mem _ mem))

/-- A number among the first ones is counted once. -/
theorem countP_range (n place : Nat) (P : Nat → Bool) :
    (List.range n).countP (fun i => decide (i = place) && P i) = if place < n ∧ P place = true then 1 else 0 := by
  induction n with
  | zero => simp
  | succ n ih =>
    rw [List.range_succ, List.countP_append, ih, List.countP_singleton]
    grind

theorem Attempts.even {n : Nat} {r : OutboxRecord} {d : Delivery} {calls : List PublishCall}
    (h : Attempts n r d calls) : Even calls := by
  obtain ⟨k, -, rfl, -, -⟩ := h
  intro moment place id
  have count : ∀ place, takenBy (((List.range k).map fun i =>
      (⟨i, .ofRecord r, decide (i + 1 < k) || decide (d = .accepted)⟩ : PublishCall)).take moment) place id =
        if place < min moment k ∧ (decide (r.id = id) && (decide (place + 1 < k) || decide (d = .accepted))) = true
          then 1 else 0 := by
    intro place
    rw [takenBy, ← List.map_take, List.take_range, List.countP_map]
    refine Eq.trans ?_ (countP_range _ place fun i =>
      decide (r.id = id) && (decide (i + 1 < k) || decide (d = .accepted)))
    congr 1
    funext i
    simp [BrokerMessage.ofRecord, Bool.and_assoc]
  rw [count, count]
  grind

end PublishCall

end Workboard
