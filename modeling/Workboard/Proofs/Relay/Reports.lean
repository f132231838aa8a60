import Workboard.Relay.Bench
import Workboard.Relay.Reports

/-!
The loop that reports the backlog breaks down exactly if it was given no time between its reports, as long as no
report does.
-/

namespace Workboard

theorem Ticker.every?_eq_none_iff {period now : Nat} : every? period now = none ↔ period = 0 := by
  unfold every?
  split <;> simp <;> omega

namespace ReportLoop

variable {σ : Type} {report : Nat → σ → Except BatchError Unit × σ} {l : ReportLoop σ}

/-- What an act does to the place of the loop. -/
inductive Moves (report : Nat → σ → Except BatchError Unit × σ) (l : ReportLoop σ) : ReportPlace → Prop
  | stays : Moves report l l.place
  | stops {t : Ticker} (waiting : l.place = .waiting t) (told : l.cancelled = true) : Moves report l .stopped
  | reports {t : Ticker} (waiting : l.place = .waiting t) (due : t.next ≤ l.now) :
      Moves report l (.waiting (t.tick l.now))
  | breaks {t : Ticker} {reason : String} (waiting : l.place = .waiting t) (due : t.next ≤ l.now)
      (broken : (report l.now l.world).1 = .error (.panicked reason)) : Moves report l .panicked

theorem moves_step (report : Nat → σ → Except BatchError Unit × σ) (l : ReportLoop σ) :
    Moves report l (l.step report).place := by
  unfold step
  split
  next t waiting =>
    split
    next told => exact .stops waiting told
    · split
      next due =>
        have due : t.next ≤ l.now := of_decide_eq_true due
        split
        next reason w broken => exact .breaks waiting due (congrArg Prod.fst broken)
        · exact .reports waiting due
      · exact .stays
  · exact .stays

theorem moves_act (report : Nat → σ → Except BatchError Unit × σ) (l : ReportLoop σ) (a : ReportAct σ) :
    Moves report l (l.act report a).place := by
  cases a with
  | step => exact moves_step report l
  | cancel => exact .stays
  | pass time => exact .stays
  | others change => exact .stays

/-- No report breaks down. -/
def Calm (report : Nat → σ → Except BatchError Unit × σ) : Prop :=
  ∀ now w reason, (report now w).1 ≠ .error (.panicked reason)

theorem Calm.act (calm : Calm report) (l : ReportLoop σ) (a : ReportAct σ) :
    (l.act report a).place = .panicked ↔ l.place = .panicked := by
  generalize place : (l.act report a).place = p
  have moves := moves_act report l a
  rw [place] at moves
  cases moves with
  | stays => exact Iff.rfl
  | stops waiting told => simp [waiting]
  | reports waiting due => simp [waiting]
  | breaks waiting due broken => exact absurd broken (calm _ _ _)

theorem Calm.after (calm : Calm report) (acts : List (ReportAct σ)) (l : ReportLoop σ) :
    (l.after report acts).place = .panicked ↔ l.place = .panicked := by
  induction acts generalizing l with
  | nil => exact Iff.rfl
  | cons a acts ih => exact (ih (l.act report a)).trans (calm.act l a)

theorem begin_panicked_iff {periodMs now : Nat} {cancelled : Bool} {world : σ} :
    (begin periodMs now cancelled world).place = .panicked ↔ periodMs = 0 := by
  refine Iff.trans ?_ (Ticker.every?_eq_none_iff : Ticker.every? periodMs now = none ↔ _)
  unfold begin
  split
  next t some => simp [some]
  next none => simp [none]

/-- Whatever happens to the loop, it breaks down exactly if it has no time between its reports. -/
theorem panics_iff (calm : Calm report) (periodMs now : Nat) (cancelled : Bool) (world : σ)
    (acts : List (ReportAct σ)) :
    ((begin periodMs now cancelled world).after report acts).place = .panicked ↔ periodMs = 0 :=
  (calm.after acts _).trans begin_panicked_iff

end ReportLoop

namespace RelayWorld

/-- A bench with the loop in it: the next report is planned, unless the loop has ended. -/
def ofLoop (l : ReportLoop BenchWorld) : BenchWorld :=
  match l.place with
  | .waiting t => l.world.plan (t.next - l.world.state.clock) (.report l.world.state.step)
  | _ => l.world.change fun b => { b with reporting := false }

theorem report_clock (w : BenchWorld) (now : Instant) : (w.report now).2.state.clock = w.state.clock := by
  unfold report
  split
  · rfl
  · split <;> rfl

/-- A turn of the loop on a bench is a step of the loop. -/
theorem reportTurn_eq (w : BenchWorld) (now : Instant) {t : Ticker} (due : t.next ≤ w.state.clock) :
    w.reportTurn now t.period =
      ofLoop ((⟨.waiting t, w.state.clock, w.state.cancelled, w⟩ : ReportLoop BenchWorld).step
        fun _ w => w.report now) := by
  have isDue : t.isDue w.state.clock = true := decide_eq_true due
  rcases answer : w.report now with ⟨result, after⟩
  have clock : after.state.clock = w.state.clock := by rw [← report_clock w now, answer]
  have again : ofLoop ⟨.waiting (t.tick w.state.clock), w.state.clock, w.state.cancelled, after⟩ =
      after.plan t.period (.report after.state.step) := by
    have period : w.state.clock + t.period - after.state.clock = t.period := by omega
    exact congrArg (after.plan · _) period
  unfold reportTurn
  simp only [ReportLoop.step, isDue, if_true, answer]
  split
  · rfl
  · match result with
    | .error (.panicked reason) => rfl
    | .error (.outbox e) => exact again.symm
    | .ok () => exact again.symm

end RelayWorld

end Workboard
