import SqrzlEmulator.Prog.Logic

/-!
# Runs without choices

A program that is given the first of all choices has **one run**, `calm`. Its result is computed
from the results of the parts of the program, so that the rules are equations: they say what a
program does when nothing unexpected happens, where the rules for `wp` say what it can do at all.
-/

namespace Prog

variable {ω ε σ α β : Type}

/-- Run a program, with the first of all choices. -/
def calm (p : Prog ω ε σ α) (s : σ) : Option (Except ε α) × σ := p.run [] s

/-- **A run of a composition without choices is composed of such runs.** -/
theorem calm_bind (p : Prog ω ε σ α) (g : α → Prog ω ε σ β) (s : σ) :
    (p.bind g).calm s = match p.calm s with
      | (some (.ok a), t) => (g a).calm t
      | (some (.error e), t) => (some (.error e), t)
      | (none, t) => (none, t) := by
  unfold calm
  induction p generalizing s with
  | ret a => rfl
  | fail e => rfl
  | step ready ev f k ih =>
    simp only [bind, run]
    split
    · exact ih _ _
    · rfl
  | io ev f k err ih ihe =>
    simp only [bind, run]
    split
    · exact ih _ _
    · exact ihe _
  | choose k ih => exact ih _ _

theorem calm_bind_ok {p : Prog ω ε σ α} {g : α → Prog ω ε σ β} {s t : σ} {a : α}
    (h : p.calm s = (some (.ok a), t)) : (p.bind g).calm s = (g a).calm t := by
  rw [calm_bind, h]

theorem calm_bind_error {p : Prog ω ε σ α} {g : α → Prog ω ε σ β} {s t : σ} {e : ε}
    (h : p.calm s = (some (.error e), t)) : (p.bind g).calm s = (some (.error e), t) := by
  rw [calm_bind, h]

@[simp] theorem calm_ret (a : α) (s : σ) : (ret a : Prog ω ε σ α).calm s = (some (.ok a), s) := rfl

@[simp] theorem calm_choose (k : ℕ → Prog ω ε σ α) (s : σ) : (choose k).calm s = (k 0).calm s := rfl

@[simp] theorem calm_ofExcept (x : Except ε α) (s : σ) :
    (ofExcept x : Prog ω ε σ α).calm s = (some x, s) := by
  cases x with
  | ok a => rfl
  | error e => rfl

theorem calm_attempt (p : Prog ω ε σ α) (s : σ) :
    p.attempt.calm s = ((p.calm s).1.map .ok, (p.calm s).2) := by
  unfold calm
  induction p generalizing s with
  | ret a => rfl
  | fail e => rfl
  | step ready ev f k ih =>
    simp only [attempt, run]
    split
    · exact ih _ _
    · rfl
  | io ev f k err ih ihe =>
    simp only [attempt, run]
    split
    · exact ih _ _
    · exact ihe _
  | choose k ih => exact ih _ _

theorem calm_attempt_bind {p : Prog ω ε σ α} {g : Except ε α → Prog ω ε σ β} {s t : σ}
    {r : Except ε α} (h : p.calm s = (some r, t)) : (p.attempt.bind g).calm s = (g r).calm t := by
  rw [calm_bind, calm_attempt, h]
  rfl

end Prog
