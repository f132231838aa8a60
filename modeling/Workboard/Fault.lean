/-!
How something ends, and faults planned in advance: of each kind of call, each of the next ones may be told to
fail.
-/

namespace Workboard

/-- How a piece of work ends by itself. -/
inductive Ending (ε α : Type) where
  | returned (value : α)
  | failed (error : ε)
  | panicked (message : String)

/-- For some kinds of calls, which of the next ones fail, in their order. -/
structure Faults (κ : Type) where
  planned : List (κ × List Bool)

namespace Faults

variable {κ : Type} [DecidableEq κ]

def none : Faults κ := ⟨[]⟩

/-- Which of the next calls of a kind fail; all calls after these work. -/
def plan (f : Faults κ) (kind : κ) : List Bool :=
  ((f.planned.find? fun e => e.1 = kind).map (·.2)).getD []

/-- How many calls of a kind a plan is made for. -/
def remaining (f : Faults κ) (kind : κ) : Nat := (f.plan kind).length

def withPlan (f : Faults κ) (kind : κ) (plan : List Bool) : Faults κ :=
  ⟨(kind, plan) :: f.planned.filter fun e => e.1 ≠ kind⟩

/-- The next calls of a kind fail, as many as `times` says. -/
def arm (f : Faults κ) (kind : κ) (times : Nat) : Faults κ := f.withPlan kind (List.replicate times true)

/-- Whether the next call of a kind fails, and the faults left after it. -/
def strike (f : Faults κ) (kind : κ) : Bool × Faults κ :=
  match f.plan kind with
  | [] => (false, f)
  | fails :: rest => (fails, f.withPlan kind rest)

theorem plan_withPlan (f : Faults κ) (kind other : κ) (plan : List Bool) :
    (f.withPlan kind plan).plan other = if other = kind then plan else f.plan other := by
  by_cases same : other = kind
  · simp [Faults.plan, withPlan, same]
  · have apart : kind ≠ other := Ne.symm same
    have skip : ((f.planned.filter fun e => decide (e.1 ≠ kind)).find? fun e => decide (e.1 = other)) =
        f.planned.find? fun e => decide (e.1 = other) := by
      rw [List.find?_filter]
      congr 1
      funext e
      by_cases own : e.1 = other <;> simp [own, same]
    simp only [Faults.plan, withPlan, if_neg same]
    rw [List.find?_cons_of_neg (by simpa using apart), skip]

theorem strike_fst (f : Faults κ) (kind : κ) : (f.strike kind).1 = (f.plan kind).headD false := by
  unfold strike
  cases f.plan kind <;> rfl

/-- A call uses up the plan for its own kind only. -/
theorem plan_strike (f : Faults κ) {kind other : κ} (apart : other ≠ kind) :
    (f.strike kind).2.plan other = f.plan other := by
  unfold strike
  cases f.plan kind with
  | nil => rfl
  | cons fails rest => rw [plan_withPlan, if_neg apart]

end Faults

end Workboard
