import SqrzlEmulator.Prog.Atomic

/-!
# Programs one step of which fails

The changes that a program makes to a disk can fail, each of them. `Faulty` is a state together with
**the one step that is going to fail**, by its name. The step fails before its change or after it
(`Fault.done`), and from then on nothing fails any more, so that what the program does about its
failure succeeds.

What a step does is said by cases (`step_cases`): it makes its change, or it is the one that fails. A program that cannot fail at all is lifted (`lift`).
-/

namespace Prog

variable {κ ε σ α β : Type}

/-- The failure of a step. -/
structure Fault (κ : Type) where
  step : κ
  /-- The change of the step was made before it failed. -/
  done : Bool
  deriving DecidableEq

/-- A state, and what is going to fail. -/
structure Faulty (κ σ : Type) where
  state : σ
  fault : Option (Fault κ) := none
  /-- A step has failed. -/
  failed : Bool := false

namespace Faulty

/-- The world with another state. -/
def withState (W : Faulty κ σ) (s : σ) : Faulty κ σ := { W with state := s }

@[simp] theorem state_withState (W : Faulty κ σ) (s : σ) : (W.withState s).state = s := rfl

@[simp] theorem fault_withState (W : Faulty κ σ) (s : σ) : (W.withState s).fault = W.fault := rfl

@[simp] theorem failed_withState (W : Faulty κ σ) (s : σ) : (W.withState s).failed = W.failed := rfl

@[simp] theorem withState_withState (W : Faulty κ σ) (s t : σ) :
    (W.withState s).withState t = W.withState t := rfl

@[simp] theorem withState_state (W : Faulty κ σ) : W.withState W.state = W := rfl

/-- A program of which no step can fail. -/
def lift (m : Atomic ε σ α) : Atomic ε (Faulty κ σ) α := fun W ↦
  ((m W.state).1, W.withState (m W.state).2)

section Steps

variable [DecidableEq κ]

/-- The step `k`: a change, or the error `e` if it is the one that fails. -/
def step (e : ε) (k : κ) (f : σ → σ) : Atomic ε (Faulty κ σ) Unit := fun W ↦
  match W.fault.filter (·.step = k) with
  | none => (.ok (), W.withState (f W.state))
  | some x => (.error e, ⟨if x.done then f W.state else W.state, none, true⟩)

variable {e : ε} {k : κ} {f : σ → σ} {g : Unit → Atomic ε (Faulty κ σ) β} {W : Faulty κ σ}

/-- **A step makes its change, or it is the one that fails.** -/
theorem step_cases :
    step e k f W = (.ok (), W.withState (f W.state)) ∨
      ∃ x, W.fault = some x ∧ x.step = k ∧
        step e k f W = (.error e, ⟨if x.done then f W.state else W.state, none, true⟩) := by
  rw [step]
  rcases h : W.fault.filter (·.step = k) with - | x
  · exact Or.inl (by rw [h])
  · obtain ⟨hx, hk⟩ := Option.filter_eq_some_iff.1 h
    exact Or.inr ⟨x, hx, by simpa using hk, by rw [h]⟩

/-- Where nothing is going to fail, a step makes its change. -/
theorem step_of_none (h : W.fault = none) :
    step e k f W = (.ok (), W.withState (f W.state)) := by
  rw [step, h]
  rfl

/-- Where nothing is going to fail, a program goes on behind its first step. -/
theorem step_bind_of_none (h : W.fault = none) :
    (step e k f >>= g) W = g () (W.withState (f W.state)) :=
  Atomic.bind_of_ok (step_of_none h)

end Steps

end Faulty

end Prog
