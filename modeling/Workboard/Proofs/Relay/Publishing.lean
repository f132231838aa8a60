import Mathlib.Data.List.Forall2
import Workboard.Proofs.Broker.Routing
import Workboard.Proofs.Relay.Attempts
import Workboard.Proofs.Relay.Turns

/-!
A row that is processed has reached every broker. Whatever brokers answer and whichever calls of the outbox fail, a
row is done with in a batch that handed it to all brokers in one attempt.
-/

namespace Workboard

variable {β : Type} {publish : BrokerMessage → β → Except PublishFailure Unit × β}

namespace Publishing

variable {registry : HandlerRegistry Unit} {batchSize n : Nat} {now : Instant} {w : RelayWorld (Publishing β)}

theorem relay_leavesRows : (relay publish registry batchSize now).LeavesRows := fun _ _ _ => rfl

/-- Rows have been handed over, each by an attempt of its own. -/
def Made (n : Nat) (p q : Publishing β) (rows : List (OutboxRecord × Delivery)) : Prop :=
  q.Placed n ∧ ∃ attempts : List (List PublishCall), q.calls = p.calls ++ attempts.flatten ∧
    List.Forall₂ (fun row calls => PublishCall.Attempts n row.1 row.2 calls) rows attempts

variable {p q s : Publishing β} {rows later : List (OutboxRecord × Delivery)}

theorem Placed.made (placed : p.Placed n) : Made n p p [] := ⟨placed, [], by simp, .nil⟩

theorem Made.trans (h : Made n p q rows) (h' : Made n q s later) : Made n p s (rows ++ later) := by
  obtain ⟨-, attempts, calls, each⟩ := h
  obtain ⟨placed, attempts', calls', each'⟩ := h'
  exact ⟨placed, attempts ++ attempts', by simp [calls, calls'], List.rel_append each each'⟩

/-- Calls of the publisher are attempts. -/
theorem made_of_handles (placed : p.Placed n) (handles : (relay publish registry batchSize now).Handles p rows q) :
    Made n p q rows := by
  induction handles with
  | none p => exact placed.made
  | @call handler r w later q wanted rest ih =>
    obtain ⟨still, calls, more, attempts⟩ := handle_attempts publish r placed
    have first : Made n w.state (w.state.handle publish r).2 [(r, (w.state.handle publish r).1)] :=
      ⟨still, [calls], more.trans (by simp), .cons attempts .nil⟩
    exact first.trans (ih still)

theorem runBatch_made (now : Instant) (placed : w.state.Placed n) :
    Made n w.state ((relay publish registry batchSize now).runBatch w).2.2.state
      (Turn.handedOver ((relay publish registry batchSize now).runBatch w).1) :=
  made_of_handles placed (Relay.runBatch_handles _ w)

theorem attempts_of_mem {attempts : List (List PublishCall)}
    (each : List.Forall₂ (fun row calls => PublishCall.Attempts n row.1 row.2 calls) rows attempts) :
    (∀ calls ∈ attempts, ∃ row ∈ rows, PublishCall.Attempts n row.1 row.2 calls) ∧
      ∀ row ∈ rows, ∃ calls ∈ attempts, PublishCall.Attempts n row.1 row.2 calls := by
  induction each with
  | nil => simp
  | cons attempt _ ih =>
    simp only [List.forall_mem_cons, List.exists_mem_cons_iff]
    exact ⟨⟨.inl attempt, fun calls mem => .inr (ih.1 calls mem)⟩, .inl attempt, fun row mem => .inr (ih.2 row mem)⟩

/-- In between, every broker has taken a row in one attempt. -/
def TookAll (n : Nat) (r : OutboxRecord) (p q : Publishing β) : Prop :=
  ∃ front back, q.calls = p.calls ++ front ++ (List.range n).map (⟨·, .ofRecord r, true⟩) ++ back

theorem Made.tookAll {r : OutboxRecord} (h : Made n p q rows) (accepted : (r, .accepted) ∈ rows) : TookAll n r p q := by
  obtain ⟨-, attempts, calls, each⟩ := h
  obtain ⟨attempt, mem, k, -, shape, all, -⟩ := (attempts_of_mem each).2 _ accepted
  obtain ⟨front, back, rfl⟩ := List.mem_iff_append.mp mem
  refine ⟨front.flatten, back.flatten, ?_⟩
  rw [calls, shape, all rfl]
  simp

/-- What the calls of a publisher are: attempts, and of rows of the outbox. -/
structure Tells (n : Nat) (w : RelayWorld (Publishing β)) : Prop where
  placed : w.state.Placed n
  even : PublishCall.Even w.state.calls
  rows : ∀ c ∈ w.state.calls, ∃ r ∈ w.store.records, c.message = .ofRecord r

theorem Tells.after (tells : Tells n w) {e : RelayEvent (Publishing β)} (closed : ∀ p, e ≠ .change p) :
    Tells n ((relay publish registry batchSize now).after w e) := by
  have kept : ∀ r ∈ w.store.records, ∃ q ∈ ((relay publish registry batchSize now).after w e).store.records,
      q.toNewRecord = r.toNewRecord := fun r mem =>
    List.mem_map.mp ((Relay.after_written relay_leavesRows w e).subset (List.mem_map_of_mem mem))
  have old : ∀ c ∈ w.state.calls, ∃ r ∈ ((relay publish registry batchSize now).after w e).store.records,
      c.message = .ofRecord r := by
    intro c mem
    obtain ⟨r, row, message⟩ := tells.rows c mem
    obtain ⟨q, later, same⟩ := kept r row
    exact ⟨q, later, message.trans (BrokerMessage.ofRecord_congr same.symm)⟩
  cases e with
  | batch later =>
    obtain ⟨placed, attempts, calls, each⟩ :
      Made n w.state ((relay publish registry batchSize now).after w (.batch later)).state _ :=
      runBatch_made later tells.placed
    have attempted := (attempts_of_mem each).1
    refine ⟨placed, ?_, ?_⟩
    · rw [calls]
      refine tells.even.append (.flatten fun attempt mem => ?_)
      obtain ⟨row, -, shape⟩ := attempted attempt mem
      exact shape.even
    · rw [calls]
      intro c mem
      rcases List.mem_append.mp mem with before | fresh
      · exact old c before
      · obtain ⟨attempt, made, mem⟩ := List.mem_flatten.mp fresh
        obtain ⟨⟨r, d⟩, handed, k, -, rfl, -⟩ := attempted attempt made
        obtain ⟨i, -, rfl⟩ := List.mem_map.mp mem
        obtain ⟨q, row, same⟩ := kept r (Relay.runBatch_rows (Turn.mem_handedOver.mp handed)).1
        exact ⟨q, row, BrokerMessage.ofRecord_congr same.symm⟩
  | change p => exact absurd rfl (closed p)
  | _ => exact ⟨tells.placed, tells.even, old⟩

theorem Tells.run (tells : Tells n w) {history : List (RelayEvent (Publishing β))}
    (closed : ∀ p, RelayEvent.change p ∉ history) : Tells n ((relay publish registry batchSize now).run w history) := by
  induction history generalizing w with
  | nil => exact tells
  | cons e history ih =>
    have first : ∀ p, e ≠ .change p := fun p own => closed p (own ▸ List.mem_cons_self)
    exact ih (tells.after first) fun p mem => closed p (List.mem_cons_of_mem _ mem)

/-- What an event does: rows are handed over by attempts, and one is done with only if all brokers take it. -/
structure Serves (n : Nat) (relay : Relay (Publishing β) Unit) (w : RelayWorld (Publishing β))
    (e : RelayEvent (Publishing β)) : Prop where
  batch : ∀ now, e = .batch now →
    Made n w.state (relay.after w e).state (Turn.handedOver ((relay.at_ now).runBatch w).1)
  other : (∀ now, e ≠ .batch now) → (relay.after w e).state = w.state
  done : ∀ r ∈ (relay.after w e).store.records, r.processedAt ≠ none →
    (∃ q ∈ w.store.records, q.id = r.id ∧ q.processedAt ≠ none) ∨
      (∃ now, e = .batch now) ∧ TookAll n r w.state (relay.after w e).state

theorem serves (placed : w.state.Placed n) {e : RelayEvent (Publishing β)} (closed : ∀ p, e ≠ .change p)
    (distinct : (w.store.records.map (·.id)).Nodup)
    (registered : ∀ r ∈ w.store.records, registry.get? r.eventType ≠ none) :
    Serves n (relay publish registry batchSize now) w e where
  batch := by
    rintro later rfl
    exact runBatch_made later placed
  other := by
    cases e with
    | batch later => exact fun other => absurd rfl (other later)
    | change p => exact absurd rfl (closed p)
    | _ => exact fun _ => rfl
  done := by
    intro r hr done
    rcases Relay.processed_of_after relay_leavesRows distinct hr done with old | ⟨later, rfl, turn, mem, finished, same⟩
    · exact .inl old
    · obtain ⟨row, unwanted⟩ := Relay.runBatch_rows mem
      obtain ⟨q, _ | _ | d⟩ := turn
      · cases finished <;> contradiction
      · exact absurd (unwanted rfl) (registered q row)
      · obtain rfl : d = .accepted := by simpa [Turn.Done] using finished
        have made : Made n w.state ((relay publish registry batchSize now).after w (.batch later)).state _ :=
          runBatch_made later placed
        have all := made.tookAll (Turn.mem_handedOver.mpr mem)
        rw [TookAll, BrokerMessage.ofRecord_congr same] at all
        exact .inr ⟨⟨later, rfl⟩, all⟩

/-- At-least-once to all brokers. Whatever brokers answer, whichever calls of the outbox fail and whatever is written
between batches: rows are handed over by attempts that call the brokers in their order, up to the first that does not
take the message; a row gets done with only by an attempt in which all took it; and each broker has taken a row at
least as often as the broker after it. -/
theorem publishes_to_every_broker (publish : BrokerMessage → β → Except PublishFailure Unit × β)
    (registry : HandlerRegistry Unit) (batchSize : Nat) (now : Instant) (brokers : List β) (store : OutboxStore)
    (history : List (RelayEvent (Publishing β))) :
    let relay := relay publish registry batchSize now
    let world := relay.run ⟨store, [], ofBrokers brokers⟩
    (∀ p, RelayEvent.change p ∉ history) →
    (∀ r ∈ (world history).store.records, registry.get? r.eventType ≠ none) →
    ((world history).store.records.map (·.id)).Nodup →
    (∀ past e future, history = past ++ e :: future → Serves brokers.length relay (world past) e) ∧
    (∀ c ∈ (world history).state.calls, ∃ r ∈ (world history).store.records, c.message = .ofRecord r ∧
      c.message.headers.get? EventMapper.eventIdHeader = some r.id.toText) ∧
    (∀ c ∈ (world history).state.calls, ∀ c' ∈ (world history).state.calls,
      c.message.eventId = c'.message.eventId → c.message = c'.message) ∧
    PublishCall.Even (world history).state.calls := by
  intro relay world closed registered distinct
  have start : Tells brokers.length (world []) := ⟨placed_ofBrokers brokers, PublishCall.even_nil, nofun⟩
  have tells : Tells brokers.length (world history) := start.run closed
  refine ⟨?_, ?_, ?_, tells.even⟩
  · rintro past e future rfl
    have before : Tells brokers.length (world past) :=
      start.run fun p mem => closed p (List.mem_append_left _ mem)
    have written : (world past).store.records.map (·.toNewRecord) <+:
        (world (past ++ e :: future)).store.records.map (·.toNewRecord) := by
      rw [show world (past ++ e :: future) = relay.run (world past) (e :: future) from List.foldl_append]
      exact Relay.run_written relay_leavesRows (world past) (e :: future)
    refine serves before.placed (fun p own => closed p (own ▸ by simp)) ?_ fun r mem => ?_
    · have ids := (written.map NewRecord.id).sublist.nodup (by simpa [Function.comp_def] using distinct)
      simpa [Function.comp_def] using ids
    · obtain ⟨q, later, same⟩ := List.mem_map.mp (written.subset (List.mem_map_of_mem mem))
      rw [← same]
      exact registered q later
  · intro c mem
    obtain ⟨r, row, message⟩ := tells.rows c mem
    exact ⟨r, row, message, message ▸ BrokerMessage.header_ofRecord r⟩
  · intro c mem c' mem' same
    obtain ⟨r, row, message⟩ := tells.rows c mem
    obtain ⟨r', row', message'⟩ := tells.rows c' mem'
    rw [message, message'] at same
    rw [message, message', List.inj_on_of_nodup_map distinct row row' same]

/-- Brokers that refuse a number of messages first. -/
def busy (_ : BrokerMessage) : Nat → Except PublishFailure Unit × Nat
  | 0 => (.ok (), 0)
  | n + 1 => (.error (.error (.closed "log")), n)

def created : HandlerRegistry Unit := HandlerRegistry.empty.register "todo.created" ()

/-- A row is written, and two batches follow. -/
def twoBatches : List (RelayEvent (Publishing Nat)) :=
  [.append [Relay.firstRow], .batch Relay.firstRow.createdAt, .batch Relay.firstRow.createdAt]

def deliveredRow : OutboxRecord :=
  ⟨Relay.firstRow, 1, some (BrokerError.closed "log").message, some Relay.firstRow.createdAt⟩

/-- Where the second of two brokers refuses once, both have taken the row when it is done with, the first one twice. -/
theorem publishes_again_to_every_broker :
    let world := (relay busy created 2 Relay.firstRow.createdAt).run ⟨.empty, [], ofBrokers [0, 1]⟩
    (world twoBatches).store.records = [deliveredRow] ∧
      PublishCall.takenBy (world twoBatches).state.calls 0 ⟨1⟩ = 2 ∧
      PublishCall.takenBy (world twoBatches).state.calls 1 ⟨1⟩ = 1 ∧
      TookAll 2 deliveredRow (world (twoBatches.take 2)).state (world twoBatches).state := by
  intro world
  have rows : (world twoBatches).store.records = [deliveredRow] := by decide +kernel
  have waits : ∀ q ∈ (world (twoBatches.take 2)).store.records, q.processedAt = none := by decide +kernel
  obtain ⟨serves, -⟩ := publishes_to_every_broker busy created 2 Relay.firstRow.createdAt [0, 1] .empty twoBatches
    (by simp [twoBatches]) (by rw [rows]; decide) (by rw [rows]; decide)
  refine ⟨rows, by decide +kernel, by decide +kernel, ?_⟩
  have delivered : deliveredRow ∈ (world twoBatches).store.records := rows ▸ List.mem_cons_self
  rcases (serves (twoBatches.take 2) (.batch Relay.firstRow.createdAt) [] rfl).done deliveredRow delivered nofun with
    ⟨q, old, -, done⟩ | ⟨-, all⟩
  · exact absurd (waits q old) done
  · exact all

end Publishing

end Workboard
