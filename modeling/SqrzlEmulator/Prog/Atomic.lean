import SqrzlEmulator.Prog.Logic

/-!
# Programs that run alone

A program that is never interleaved with another one is a **function of the state**: it returns a
value or fails, and leaves a state in either case. `Atomic` is the monad of such functions, for code
that runs under a lock that is held from its first step to its last.

## Success

What has happened when a program has returned is read off its text (`bind_ok` and the equations
beside it): each step has returned, and the state of one is the state that the next one has seen. A
program that only looks at the state leaves it as it was.

## Every outcome

What a program does to the state, whether it returns or fails, is said by a relation between the
state it finds and the state it leaves (`Moves`). The relation is a preorder, so that **a program
moves along it as soon as its steps do**; an invariant is the case of `fun s t ↦ P s → P t`.
-/

namespace Prog

variable {ω ε ε' σ τ α β : Type}

/-- A program as one function of the state. -/
def Atomic (ε σ α : Type) : Type := σ → Except ε α × σ

/-- What has passed a check has passed each of its parts. -/
theorem ok_of_bind {x : Except ε α} {f : α → Except ε β} {b : β} (h : (x >>= f) = .ok b) :
    ∃ a, x = .ok a ∧ f a = .ok b := by
  cases x with
  | error e => cases h
  | ok a => exact ⟨a, rfl, h⟩

namespace Atomic

/-- Run one program after the other, unless the first one fails. -/
def bind (m : Atomic ε σ α) (f : α → Atomic ε σ β) : Atomic ε σ β := fun s ↦
  match m s with
  | (.ok a, t) => f a t
  | (.error e, t) => (.error e, t)

instance : Monad (Atomic ε σ) where
  pure a := fun s ↦ (.ok a, s)
  bind := bind

/-- Fail. -/
def fail (e : ε) : Atomic ε σ α := fun s ↦ (.error e, s)

/-- Fail if the condition holds. -/
def refuseIf (c : Prop) [Decidable c] (e : ε) : Atomic ε σ Unit := fun s ↦
  if c then (.error e, s) else (.ok (), s)

/-- Look at the state. -/
def view (g : σ → α) : Atomic ε σ α := fun s ↦ (.ok (g s), s)

/-- Change the state. -/
def update (f : σ → σ) : Atomic ε σ Unit := fun s ↦ (.ok (), f s)

/-- Look at the state, and fail where there is nothing to be found. -/
def find (e : ε) (g : σ → Option α) : Atomic ε σ α := fun s ↦
  match g s with
  | some a => (.ok a, s)
  | none => (.error e, s)

/-- A value, or a failure. -/
def ofExcept (r : Except ε α) : Atomic ε σ α := fun s ↦ (r, s)

/-- Run a program, and take its failure as a value. -/
def attempt (m : Atomic ε σ α) : Atomic ε' σ (Except ε α) := fun s ↦ (.ok (m s).1, (m s).2)

/-- Rename the failures of a program. -/
def mapError (h : ε → ε') (m : Atomic ε σ α) : Atomic ε' σ α := fun s ↦
  ((m s).1.mapError h, (m s).2)

/-! ### What has happened when a program has returned -/

section Success

variable {m : Atomic ε σ α} {f : α → Atomic ε σ β} {s t u : σ} {a : α} {b : β} {e : ε}
  {c : Prop} [Decidable c]

theorem bind_eq : m >>= f = m.bind f := rfl

/-- **A program returns when each of its steps does.** -/
theorem bind_ok : (m >>= f) s = (.ok b, u) ↔ ∃ a t, m s = (.ok a, t) ∧ f a t = (.ok b, u) := by
  rw [bind_eq, bind]
  constructor
  · intro h
    split at h
    · next a t hm => exact ⟨a, t, hm, h⟩
    · next e t hm => cases h
  · rintro ⟨a, t, hm, hf⟩
    rw [hm]
    exact hf

theorem pure_ok {a' : α} : (pure a : Atomic ε σ α) s = (.ok a', t) ↔ a = a' ∧ s = t := by
  constructor
  · rintro ⟨⟩
    exact ⟨rfl, rfl⟩
  · rintro ⟨rfl, rfl⟩
    rfl

theorem refuseIf_ok {v : Unit} : (refuseIf c e : Atomic ε σ Unit) s = (.ok v, t) ↔ ¬ c ∧ s = t := by
  unfold refuseIf
  split
  · next h => exact ⟨nofun, fun h' ↦ absurd h h'.1⟩
  · next h =>
    constructor
    · rintro ⟨⟩
      exact ⟨h, rfl⟩
    · rintro ⟨-, rfl⟩
      rfl

theorem mapError_ok {h : ε → ε'} : mapError h m s = (.ok a, t) ↔ m s = (.ok a, t) := by
  rw [mapError]
  rcases m s with ⟨e | a', t'⟩
  · exact ⟨nofun, nofun⟩
  · constructor
    · rintro ⟨⟩
      rfl
    · rintro ⟨⟩
      rfl

theorem find_ok {g : σ → Option α} :
    (find e g : Atomic ε σ α) s = (.ok a, t) ↔ g s = some a ∧ s = t := by
  unfold find
  cases g s with
  | none => exact ⟨nofun, nofun⟩
  | some b =>
    constructor
    · rintro ⟨⟩
      exact ⟨rfl, rfl⟩
    · rintro ⟨⟨⟩, rfl⟩
      rfl

theorem ofExcept_ok {r : Except ε α} :
    (ofExcept r : Atomic ε σ α) s = (.ok a, t) ↔ r = .ok a ∧ s = t := by
  rw [ofExcept, Prod.mk.injEq]

/-! ### The first step of a program -/

theorem bind_of_ok (h : m s = (.ok a, t)) : (m >>= f) s = f a t := by
  rw [bind_eq, bind, h]

theorem bind_of_error (h : m s = (.error e, t)) : (m >>= f) s = (.error e, t) := by
  rw [bind_eq, bind, h]

/-- Only what the first step does to the state matters. -/
theorem bind_congr {m' : Atomic ε σ α} (h : m s = m' s) : (m >>= f) s = (m' >>= f) s := by
  rw [bind_eq, bind_eq, bind, bind, h]

theorem view_bind {g : σ → α} : (view g >>= f) s = f (g s) s := rfl

theorem update_bind {g : σ → σ} {k : Unit → Atomic ε σ β} : (update g >>= k) s = k () (g s) := rfl

theorem attempt_bind {k : Except ε α → Atomic ε' σ β} :
    (attempt m >>= k) s = k (m s).1 (m s).2 := rfl

theorem find_bind_of_some {g : σ → Option α} (h : g s = some a) : (find e g >>= f) s = f a s := by
  rw [bind_eq, bind, find, h]

theorem find_bind_of_none {g : σ → Option α} (h : g s = none) :
    (find e g >>= f) s = (.error e, s) := by
  rw [bind_eq, bind, find, h]

theorem refuseIf_bind_of {k : Unit → Atomic ε σ β} (h : c) :
    (refuseIf c e >>= k) s = (.error e, s) := by
  rw [bind_eq, bind, refuseIf, if_pos h]

theorem refuseIf_bind_of_not {k : Unit → Atomic ε σ β} (h : ¬ c) :
    (refuseIf c e >>= k) s = k () s := by
  rw [bind_eq, bind, refuseIf, if_neg h]

theorem ofExcept_bind_of_ok {r : Except ε α} (h : r = .ok a) : (ofExcept r >>= f) s = f a s := by
  rw [h]
  rfl

theorem ofExcept_bind_of_error {r : Except ε α} (h : r = .error e) :
    (ofExcept r >>= f) s = (.error e, s) := by
  rw [h]
  rfl

theorem refuseIf_bind_ok {k : Unit → Atomic ε σ β} :
    (refuseIf c e >>= k) s = (.ok b, u) ↔ ¬ c ∧ k () s = (.ok b, u) := by
  rw [bind_ok]
  constructor
  · rintro ⟨a, t, hm, hk⟩
    obtain ⟨hc, rfl⟩ := refuseIf_ok.1 hm
    exact ⟨hc, hk⟩
  · exact fun h ↦ ⟨(), s, refuseIf_ok.2 ⟨h.1, rfl⟩, h.2⟩

theorem ofExcept_bind_ok {r : Except ε α} :
    (ofExcept r >>= f) s = (.ok b, u) ↔ ∃ a, r = .ok a ∧ f a s = (.ok b, u) := by
  rw [bind_ok]
  constructor
  · rintro ⟨a, t, hm, hk⟩
    obtain ⟨rfl, rfl⟩ := ofExcept_ok.1 hm
    exact ⟨a, rfl, hk⟩
  · rintro ⟨a, rfl, hk⟩
    exact ⟨a, s, rfl, hk⟩

theorem find_bind_ok {g : σ → Option α} :
    (find e g >>= f) s = (.ok b, u) ↔ ∃ a, g s = some a ∧ f a s = (.ok b, u) := by
  rw [bind_ok]
  unfold find
  cases g s with
  | none => exact ⟨nofun, nofun⟩
  | some a =>
    constructor
    · rintro ⟨_, _, ⟨⟩, hk⟩
      exact ⟨a, rfl, hk⟩
    · rintro ⟨_, ⟨⟩, hk⟩
      exact ⟨a, s, rfl, hk⟩

end Success

/-! ### Programs that only look -/

/-- A program that leaves the state as it is. -/
def ReadOnly (m : Atomic ε σ α) : Prop := ∀ s, (m s).2 = s

namespace ReadOnly

variable {m : Atomic ε σ α} {f : α → Atomic ε σ β} {s t : σ} {r : Except ε β}

theorem pure {a : α} : ReadOnly (Pure.pure a : Atomic ε σ α) := fun _ ↦ rfl

theorem view {g : σ → α} : ReadOnly (view g : Atomic ε σ α) := fun _ ↦ rfl

theorem ofExcept {r : Except ε α} : ReadOnly (ofExcept r : Atomic ε σ α) := fun _ ↦ rfl

theorem refuseIf {c : Prop} [Decidable c] {e : ε} : ReadOnly (refuseIf c e : Atomic ε σ Unit) := by
  intro s
  unfold Atomic.refuseIf
  split
  · rfl
  · rfl

theorem find {e : ε} {g : σ → Option α} : ReadOnly (find e g) := by
  intro s
  unfold Atomic.find
  split
  · rfl
  · rfl

theorem bind (hm : ReadOnly m) (hf : ∀ a, ReadOnly (f a)) : ReadOnly (m >>= f) := by
  intro s
  have hs := hm s
  rw [bind_eq, Atomic.bind]
  rcases hr : m s with ⟨e | a, t⟩
  · rw [hr] at hs
    exact hs
  · rw [hr] at hs
    rw [← hs]
    exact hf a t

/-- **A program that begins by looking** fails there and leaves the state as it is, or goes on with
what it has seen. -/
theorem bind_cases (hm : ReadOnly m) (h : (m >>= f) s = (r, t)) :
    (∃ e, m s = (.error e, s) ∧ r = .error e ∧ t = s) ∨ ∃ a, m s = (.ok a, s) ∧ f a s = (r, t) := by
  have hs := hm s
  rw [bind_eq, Atomic.bind] at h
  rcases hr : m s with ⟨e | a, u⟩
  · rw [hr] at hs h
    obtain rfl : u = s := hs
    obtain ⟨rfl, rfl⟩ := Prod.mk.inj h
    exact Or.inl ⟨e, rfl, rfl, rfl⟩
  · rw [hr] at hs h
    obtain rfl : u = s := hs
    exact Or.inr ⟨a, rfl, h⟩

/-- A program that begins by looking fails there, or is what it does with what it has seen. -/
theorem bind_eq_cases (hm : ReadOnly m) :
    (∃ e, (m >>= f) s = (.error e, s)) ∨ ∃ a, m s = (.ok a, s) ∧ (m >>= f) s = f a s := by
  rcases hm.bind_cases (s := s) (f := f) rfl with ⟨e, -, hr, ht⟩ | ⟨a, ha, hf⟩
  · exact Or.inl ⟨e, Prod.ext hr ht⟩
  · exact Or.inr ⟨a, ha, hf.symm⟩

end ReadOnly

/-! ### Programs that move along a relation -/

/-- A program that leads from each state to a related one, whether it returns or fails. -/
def Moves (R : σ → σ → Prop) (m : Atomic ε σ α) : Prop := ∀ s, R s (m s).2

/-- What is preserved is a preorder. -/
instance {P : σ → Prop} : IsPreorder σ fun s t ↦ P s → P t where
  refl _ := id
  trans _ _ _ hst htu hs := htu (hst hs)

section Moves

variable {R : σ → σ → Prop} [IsPreorder σ R] {m : Atomic ε σ α} {f : α → Atomic ε σ β} {s : σ}

theorem ReadOnly.moves (h : ReadOnly m) : Moves R m := fun s ↦ (h s).symm ▸ refl_of R s

theorem Moves.pure {a : α} : Moves R (pure a : Atomic ε σ α) := ReadOnly.pure.moves

theorem Moves.view {g : σ → α} : Moves R (view g : Atomic ε σ α) := ReadOnly.view.moves

theorem Moves.refuseIf {c : Prop} [Decidable c] {e : ε} :
    Moves R (refuseIf c e : Atomic ε σ Unit) := ReadOnly.refuseIf.moves

omit [IsPreorder σ R] in
theorem Moves.mono {R' : σ → σ → Prop} (h : Moves R m) (hR : ∀ s t, R s t → R' s t) : Moves R' m :=
  fun s ↦ hR s _ (h s)

omit [IsPreorder σ R] in
theorem Moves.update {g : σ → σ} (h : ∀ s, R s (g s)) : Moves R (update g : Atomic ε σ Unit) := h

/-- **One step after the other**, from one state. -/
theorem bind_moves (hm : R s (m s).2) (hf : ∀ a t, m s = (.ok a, t) → R t (f a t).2) :
    R s ((m >>= f) s).2 := by
  rw [bind_eq, Atomic.bind]
  rcases hr : m s with ⟨e | a, t⟩
  · rw [hr] at hm
    exact hm
  · rw [hr] at hm
    exact trans_of R hm (hf a t hr)

/-- A program that begins by looking moves as what it does with what it has seen. -/
theorem ReadOnly.bind_moves (hm : ReadOnly m) (hf : ∀ a, m s = (.ok a, s) → R s (f a s).2) :
    R s ((m >>= f) s).2 := by
  refine Atomic.bind_moves (hm.moves s) fun a t ht ↦ ?_
  obtain rfl : t = s := by rw [← hm s, ht]
  exact hf a ht

/-- **One step after the other.** -/
theorem Moves.bind (hm : Moves R m) (hf : ∀ a, Moves R (f a)) : Moves R (m >>= f) :=
  fun s ↦ Atomic.bind_moves (hm s) fun a t _ ↦ hf a t

end Moves

end Atomic

end Prog
