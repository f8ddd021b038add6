import Mathlib.Algebra.Ring.Nat
import Mathlib.Logic.Relation
import Mathlib.Tactic.Common

/-!
# Programs of atomic steps

A program is a tree of **atomic steps** over a state. Nothing here depends on what the state is: a
step is a function on it, and a program is what remains to be done.

* `step` reads and changes the state at once, and waits until `ready` holds;
* `io` is a step that the state itself can refuse (`none`), with the continuation the program takes
  when it is refused;
* `choose` is a choice nobody controls: an order, an identity, an answer of the outside world.

A step may carry an event. Events do not influence a run; they only say afterwards which steps were
taken, so that a statement can speak about them.

## Three readings of one program

* `Exec` runs a program alone. Its `stop` rule ends a run in front of any step, so the runs of a
  program include every prefix at which its process can be killed.
* `run` and `crashAfter` compute one of these runs, given the choices.
* `Pool` (next module) interleaves the steps of several programs.
-/

/-- Programs over the state `σ`, with result `α`, errors `ε` and events `ω`. -/
inductive Prog (ω ε σ α : Type) : Type where
  /-- Return a value. -/
  | ret (a : α)
  /-- Return an error. -/
  | fail (e : ε)
  /-- Wait for `ready`, then change the state by `f`; what follows may depend on the state that
  was found. -/
  | step (ready : σ → Bool) (ev : Option ω) (f : σ → σ) (next : σ → Prog ω ε σ α)
  /-- Try to change the state by `f`; when it refuses, leave it and go on with `err`. -/
  | io (ev : Option ω) (f : σ → Option σ) (next : σ → Prog ω ε σ α) (err : Prog ω ε σ α)
  /-- Go on with any of the continuations. -/
  | choose (next : ℕ → Prog ω ε σ α)

namespace Prog

variable {ω ε σ α β γ : Type}

/-! ### The monad -/

/-- Sequential composition; an error ends the program. -/
def bind : Prog ω ε σ α → (α → Prog ω ε σ β) → Prog ω ε σ β
  | ret a, g => g a
  | fail e, _ => fail e
  | step r ev f k, g => step r ev f fun s ↦ (k s).bind g
  | io ev f k err, g => io ev f (fun s ↦ (k s).bind g) (err.bind g)
  | choose k, g => choose fun n ↦ (k n).bind g

instance : Monad (Prog ω ε σ) where
  pure := ret
  bind := bind

/-- Run a program to its result and hand the result on, also when it is an error. -/
def attempt : Prog ω ε σ α → Prog ω ε σ (Except ε α)
  | ret a => ret (.ok a)
  | fail e => ret (.error e)
  | step r ev f k => step r ev f fun s ↦ (k s).attempt
  | io ev f k err => io ev f (fun s ↦ (k s).attempt) err.attempt
  | choose k => choose fun n ↦ (k n).attempt

/-- Return a result that is already there. -/
def ofExcept : Except ε α → Prog ω ε σ α
  | .ok a => ret a
  | .error e => fail e

@[simp] theorem pure_eq (a : α) : (pure a : Prog ω ε σ α) = ret a := rfl

@[simp] theorem bind_eq (p : Prog ω ε σ α) (g : α → Prog ω ε σ β) : p >>= g = p.bind g := rfl

@[simp] theorem ret_bind (a : α) (g : α → Prog ω ε σ β) : (ret a).bind g = g a := rfl

theorem bind_assoc (p : Prog ω ε σ α) (g : α → Prog ω ε σ β) (h : β → Prog ω ε σ γ) :
    (p.bind g).bind h = p.bind fun a ↦ (g a).bind h := by
  induction p with
  | ret a => rfl
  | fail e => rfl
  | step r ev f k ih => simp only [bind, ih]
  | io ev f k err ih ihe => simp only [bind, ih, ihe]
  | choose k ih => simp only [bind, ih]

/-- The result of a program may be changed before or after it is handed on. -/
theorem attempt_bind_ret (p : Prog ω ε σ α) (f : α → β) :
    (p.bind fun a ↦ ret (f a)).attempt = p.attempt.bind fun r ↦ ret (r.map f) := by
  induction p with
  | ret a => rfl
  | fail e => rfl
  | step r ev f k ih => simp only [bind, attempt, ih]
  | io ev f k err ih ihe => simp only [bind, attempt, ih, ihe]
  | choose k ih => simp only [bind, attempt, ih]

/-! ### Primitives -/

/-- Read the state. -/
def read (g : σ → α) : Prog ω ε σ α :=
  step (fun _ ↦ true) none id fun s ↦ ret (g s)

/-- Change the state. -/
def modify (f : σ → σ) : Prog ω ε σ Unit :=
  step (fun _ ↦ true) none f fun _ ↦ ret ()

/-- Wait for `ready`, and change the state in the same step. -/
def await (ready : σ → Bool) (f : σ → σ) : Prog ω ε σ Unit :=
  step ready none f fun _ ↦ ret ()

/-- Read the state, change it, and leave an event, all at once. -/
def act (ev : Option ω) (f : σ → σ) (g : σ → α) : Prog ω ε σ α :=
  step (fun _ ↦ true) ev f fun s ↦ ret (g s)

/-- A file-system call that changes the state, or fails with `e`. -/
def sys (e : ε) (f : σ → Option σ) : Prog ω ε σ Unit :=
  io none f (fun _ ↦ ret ()) (fail e)

/-- A file-system call that reads part of the state, or fails with `e`. -/
def sysRead (e : ε) (g : σ → Option α) : Prog ω ε σ α :=
  read g >>= fun
    | some a => ret a
    | none => fail e

/-- Run `body` on the elements of a list, in their order. -/
def forEach : List β → (β → Prog ω ε σ Unit) → Prog ω ε σ Unit
  | [], _ => ret ()
  | x :: xs, body => (body x).bind fun _ ↦ forEach xs body

/-- Run `body` on the elements of a list, in their order, with what it has returned before. -/
def foldEach : List β → γ → (γ → β → Prog ω ε σ γ) → Prog ω ε σ γ
  | [], acc, _ => ret acc
  | x :: xs, acc, body => (body acc x).bind fun acc ↦ foldEach xs acc body

/-- The `n`-th order of a list. -/
def permute (n : ℕ) : (l : List β) → List β
  | [] => []
  | x :: xs =>
    let rest := permute (n / (xs.length + 1)) xs
    rest.take (n % (xs.length + 1)) ++ x :: rest.drop (n % (xs.length + 1))

/-- A list in an order nobody controls, as a directory scan returns it. -/
def shuffled (l : List β) : Prog ω ε σ (List β) :=
  choose fun n ↦ ret (permute n l)

/-- Run `cleanup` when `p` fails, and fail as `p` did. -/
def onError (p : Prog ω ε σ α) (cleanup : Prog ω ε σ Unit) : Prog ω ε σ α :=
  p.attempt.bind fun
    | .ok a => ret a
    | .error e => cleanup.attempt.bind fun _ ↦ fail e

theorem permute_perm (n : ℕ) (l : List β) : (permute n l).Perm l := by
  induction l generalizing n with
  | nil => exact List.Perm.refl _
  | cons x xs ih =>
    simp only [permute]
    refine List.perm_middle.trans (List.Perm.cons x ?_)
    rw [List.take_append_drop]
    exact ih _

/-! ### Runs of one program -/

/-- `p.Exec s evs t r`: started in `s`, the program `p` takes steps with the events `evs` to the
state `t` and has returned `r` there, or was stopped there (`none`). -/
inductive Exec : Prog ω ε σ α → σ → List ω → σ → Option (Except ε α) → Prop
  | stop (p : Prog ω ε σ α) (s : σ) : Exec p s [] s none
  | ret (a : α) (s : σ) : Exec (ret a) s [] s (some (.ok a))
  | fail (e : ε) (s : σ) : Exec (fail e) s [] s (some (.error e))
  | step {ready : σ → Bool} {ev : Option ω} {f : σ → σ} {k : σ → Prog ω ε σ α} {s t : σ}
      {evs : List ω} {r : Option (Except ε α)} (hready : ready s = true)
      (h : Exec (k s) (f s) evs t r) : Exec (step ready ev f k) s (ev.toList ++ evs) t r
  | ioOk {ev : Option ω} {f : σ → Option σ} {k : σ → Prog ω ε σ α} {err : Prog ω ε σ α}
      {s s' t : σ} {evs : List ω} {r : Option (Except ε α)} (hf : f s = some s')
      (h : Exec (k s) s' evs t r) : Exec (io ev f k err) s (ev.toList ++ evs) t r
  | ioErr {ev : Option ω} {f : σ → Option σ} {k : σ → Prog ω ε σ α} {err : Prog ω ε σ α}
      {s t : σ} {evs : List ω} {r : Option (Except ε α)} (hf : f s = none)
      (h : Exec err s evs t r) : Exec (io ev f k err) s evs t r
  | choose {k : ℕ → Prog ω ε σ α} {s t : σ} {evs : List ω} {r : Option (Except ε α)} (n : ℕ)
      (h : Exec (k n) s evs t r) : Exec (choose k) s evs t r

/-- `p` can be stopped in `t`. -/
def Stops (p : Prog ω ε σ α) (s t : σ) : Prop := ∃ evs, p.Exec s evs t none

/-- `p` can return `r` in `t`. -/
def Returns (p : Prog ω ε σ α) (s : σ) (r : Except ε α) (t : σ) : Prop :=
  ∃ evs, p.Exec s evs t (some r)

/-- A run of a composition either ends inside its first program, or runs that one to a value and
then the second. -/
theorem Exec.of_bind {p : Prog ω ε σ α} {g : α → Prog ω ε σ β} {s t : σ} {evs : List ω}
    {r : Option (Except ε β)} (h : (p.bind g).Exec s evs t r) :
    (p.Exec s evs t none ∧ r = none) ∨
    (∃ e, p.Exec s evs t (some (.error e)) ∧ r = some (.error e)) ∨
    ∃ a u evs₁ evs₂, p.Exec s evs₁ u (some (.ok a)) ∧ (g a).Exec u evs₂ t r ∧
      evs = evs₁ ++ evs₂ := by
  induction p generalizing s evs with
  | ret a => exact .inr (.inr ⟨a, s, [], evs, .ret a s, h, rfl⟩)
  | fail e =>
    cases h with
    | stop => exact .inl ⟨.stop _ _, rfl⟩
    | fail => exact .inr (.inl ⟨e, .fail e _, rfl⟩)
  | step ready ev f k ih =>
    cases h with
    | stop => exact .inl ⟨.stop _ _, rfl⟩
    | step hready h =>
      obtain ⟨hp, hr⟩ | ⟨e, hp, hr⟩ | ⟨a, u, evs₁, evs₂, hp, hg, rfl⟩ := ih _ h
      · exact .inl ⟨.step hready hp, hr⟩
      · exact .inr (.inl ⟨e, .step hready hp, hr⟩)
      · exact .inr (.inr ⟨a, u, _, evs₂, .step hready hp, hg, (List.append_assoc ..).symm⟩)
  | io ev f k err ih ihe =>
    cases h with
    | stop => exact .inl ⟨.stop _ _, rfl⟩
    | ioOk hf h =>
      obtain ⟨hp, hr⟩ | ⟨e, hp, hr⟩ | ⟨a, u, evs₁, evs₂, hp, hg, rfl⟩ := ih _ h
      · exact .inl ⟨.ioOk hf hp, hr⟩
      · exact .inr (.inl ⟨e, .ioOk hf hp, hr⟩)
      · exact .inr (.inr ⟨a, u, _, evs₂, .ioOk hf hp, hg, (List.append_assoc ..).symm⟩)
    | ioErr hf h =>
      obtain ⟨hp, hr⟩ | ⟨e, hp, hr⟩ | ⟨a, u, evs₁, evs₂, hp, hg, rfl⟩ := ihe h
      · exact .inl ⟨.ioErr hf hp, hr⟩
      · exact .inr (.inl ⟨e, .ioErr hf hp, hr⟩)
      · exact .inr (.inr ⟨a, u, evs₁, evs₂, .ioErr hf hp, hg, rfl⟩)
  | choose k ih =>
    cases h with
    | stop => exact .inl ⟨.stop _ _, rfl⟩
    | choose n h =>
      obtain ⟨hp, hr⟩ | ⟨e, hp, hr⟩ | ⟨a, u, evs₁, evs₂, hp, hg, rfl⟩ := ih n h
      · exact .inl ⟨.choose n hp, hr⟩
      · exact .inr (.inl ⟨e, .choose n hp, hr⟩)
      · exact .inr (.inr ⟨a, u, evs₁, evs₂, .choose n hp, hg, rfl⟩)

/-! ### Computing a run -/

/-- Run a program with the given choices (`0` when they run out). A step that is not ready keeps the
program waiting for ever, and there is no result. -/
def run : Prog ω ε σ α → List ℕ → σ → Option (Except ε α) × σ
  | ret a, _, s => (some (.ok a), s)
  | fail e, _, s => (some (.error e), s)
  | step ready _ f k, cs, s => if ready s then (k s).run cs (f s) else (none, s)
  | io _ f k err, cs, s =>
    match f s with
    | some s' => (k s).run cs s'
    | none => err.run cs s
  | choose k, cs, s => (k (cs.headD 0)).run cs.tail s

/-- The state in which a run with the given choices is stopped after `n` steps. -/
def crashAfter : Prog ω ε σ α → List ℕ → ℕ → σ → σ
  | ret _, _, _, s => s
  | fail _, _, _, s => s
  | step _ _ _ _, _, 0, s => s
  | step ready _ f k, cs, n + 1, s => if ready s then (k s).crashAfter cs n (f s) else s
  | io _ _ _ _, _, 0, s => s
  | io _ f k err, cs, n + 1, s =>
    match f s with
    | some s' => (k s).crashAfter cs n s'
    | none => err.crashAfter cs (n + 1) s
  | choose k, cs, n, s => (k (cs.headD 0)).crashAfter cs.tail n s

theorem exec_run (p : Prog ω ε σ α) (cs : List ℕ) (s : σ) :
    ∃ evs, p.Exec s evs (p.run cs s).2 (p.run cs s).1 := by
  induction p generalizing cs s with
  | ret a => exact ⟨[], .ret a s⟩
  | fail e => exact ⟨[], .fail e s⟩
  | step ready ev f k ih =>
    simp only [run]
    split
    · next hready =>
      obtain ⟨evs, h⟩ := ih s cs (f s)
      exact ⟨_, .step hready h⟩
    · exact ⟨[], .stop _ s⟩
  | io ev f k err ih ihe =>
    simp only [run]
    split
    · next s' hf =>
      obtain ⟨evs, h⟩ := ih s cs s'
      exact ⟨_, .ioOk hf h⟩
    · next hf =>
      obtain ⟨evs, h⟩ := ihe cs s
      exact ⟨evs, .ioErr hf h⟩
  | choose k ih =>
    obtain ⟨evs, h⟩ := ih _ cs.tail s
    exact ⟨evs, .choose _ h⟩

/-- What `run` returns, the program can return. -/
theorem returns_run {p : Prog ω ε σ α} {cs : List ℕ} {s : σ} {r : Except ε α}
    (h : (p.run cs s).1 = some r) : p.Returns s r (p.run cs s).2 := by
  obtain ⟨evs, hx⟩ := p.exec_run cs s
  exact ⟨evs, h ▸ hx⟩

/-- The state `crashAfter` computes is one the program can be stopped in. -/
theorem stops_crashAfter (p : Prog ω ε σ α) (cs : List ℕ) (n : ℕ) (s : σ) :
    p.Stops s (p.crashAfter cs n s) := by
  induction p generalizing cs n s with
  | ret a => exact ⟨[], .stop _ s⟩
  | fail e => exact ⟨[], .stop _ s⟩
  | step ready ev f k ih =>
    cases n with
    | zero => exact ⟨[], .stop _ s⟩
    | succ n =>
      simp only [crashAfter]
      split
      · next hready =>
        obtain ⟨evs, h⟩ := ih s cs n (f s)
        exact ⟨_, .step hready h⟩
      · exact ⟨[], .stop _ s⟩
  | io ev f k err ih ihe =>
    cases n with
    | zero => exact ⟨[], .stop _ s⟩
    | succ n =>
      simp only [crashAfter]
      split
      · next s' hf =>
        obtain ⟨evs, h⟩ := ih s cs n s'
        exact ⟨_, .ioOk hf h⟩
      · next hf =>
        obtain ⟨evs, h⟩ := ihe cs (n + 1) s
        exact ⟨evs, .ioErr hf h⟩
  | choose k ih =>
    obtain ⟨evs, h⟩ := ih _ cs.tail n s
    exact ⟨evs, .choose _ h⟩

end Prog
