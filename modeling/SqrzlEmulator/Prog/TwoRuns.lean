import SqrzlEmulator.Prog.Atomic

/-!
# Two runs of a program

An observer who cannot tell two states apart learns nothing from a program that answers alike in
both of them and leaves states that cannot be told apart either. `Alike R` says so of two outcomes,
for states that look alike by `R`, and a program is `Blind` if it is so from all such states.

Two runs of one program go side by side as long as its steps answer alike (`Alike.bind`). What is
looked at may differ between the two, and what is done with it may not: `Alike` relates the outcomes
of different programs too.

A list of calls, each of them a program, is answered one after the other (`answers`). **If each call
answers alike, the answers to all of them are the same** (`answers_eq_of_along`); what is asked of a
call may depend on the state that it finds in one of the two runs.
-/

namespace Prog.Atomic

variable {ε ε' σ α β κ : Type} {R : σ → σ → Prop} {s t : σ}

/-- The same result, in states that look alike. -/
def Alike (R : σ → σ → Prop) (x y : Except ε α × σ) : Prop := x.1 = y.1 ∧ R x.2 y.2

/-- A program that answers alike in all states that look alike. -/
def Blind (R : σ → σ → Prop) (m : Atomic ε σ α) : Prop := ∀ s t, R s t → Alike R (m s) (m t)

/-- **One step after the other.** -/
theorem Alike.bind {m m' : Atomic ε σ α} {f f' : α → Atomic ε σ β} (hm : Alike R (m s) (m' t))
    (hf : ∀ a u v, m s = (.ok a, u) → m' t = (.ok a, v) → R u v → Alike R (f a u) (f' a v)) :
    Alike R ((m >>= f) s) ((m' >>= f') t) := by
  obtain ⟨hresult, hstate⟩ := hm
  rw [bind_eq, bind_eq, Atomic.bind, Atomic.bind]
  rcases hs : m s with ⟨e | a, u⟩
  · rcases ht : m' t with ⟨e' | a', v⟩
    · rw [hs, ht] at hresult hstate
      cases Except.error.inj hresult
      exact ⟨rfl, hstate⟩
    · rw [hs, ht] at hresult
      cases hresult
  · rcases ht : m' t with ⟨e' | a', v⟩
    · rw [hs, ht] at hresult
      cases hresult
    · rw [hs, ht] at hresult hstate
      cases Except.ok.inj hresult
      exact hf a u v hs ht hstate

theorem Alike.mapError {m m' : Atomic ε σ α} {h : ε → ε'} (hm : Alike R (m s) (m' t)) :
    Alike R (Atomic.mapError h m s) (Atomic.mapError h m' t) :=
  ⟨congrArg (Except.mapError h) hm.1, hm.2⟩

/-- A result that is the same, and no change. -/
theorem Alike.ofExcept {r r' : Except ε α} (hr : r = r') (h : R s t) :
    Alike R (Atomic.ofExcept r s) (Atomic.ofExcept r' t) :=
  ⟨hr, h⟩

/-- Looking at the state, which may be different. -/
theorem Alike.view_bind {g g' : σ → α} {f f' : α → Atomic ε σ β}
    (hf : Alike R (f (g s) s) (f' (g' t) t)) :
    Alike R ((Atomic.view g >>= f) s) ((Atomic.view g' >>= f') t) := hf

/-- The same refusal for the same reason. -/
theorem Alike.refuseIf_bind {c c' : Prop} [Decidable c] [Decidable c'] {e : ε}
    {f f' : Unit → Atomic ε σ β} (hc : c ↔ c') (h : R s t)
    (hf : ¬ c → Alike R (f () s) (f' () t)) :
    Alike R ((Atomic.refuseIf c e >>= f) s) ((Atomic.refuseIf c' e >>= f') t) := by
  by_cases hholds : c
  · rw [refuseIf_bind_of hholds, refuseIf_bind_of (hc.1 hholds)]
    exact ⟨rfl, h⟩
  · rw [refuseIf_bind_of_not hholds, refuseIf_bind_of_not fun h' ↦ hholds (hc.2 h')]
    exact hf hholds

/-- The same check of the same values. -/
theorem Alike.ofExcept_bind {r r' : Except ε α} {f f' : α → Atomic ε σ β} (hr : r = r') (h : R s t)
    (hf : ∀ a, r = .ok a → Alike R (f a s) (f' a t)) :
    Alike R ((Atomic.ofExcept r >>= f) s) ((Atomic.ofExcept r' >>= f') t) := by
  subst hr
  cases hresult : r with
  | error e => exact ⟨rfl, h⟩
  | ok a => exact hf a hresult

namespace Blind

variable {m : Atomic ε σ α} {f : α → Atomic ε σ β}

theorem pure {a : α} : Blind R (Pure.pure a : Atomic ε σ α) := fun _ _ h ↦ ⟨rfl, h⟩

theorem fail {e : ε} : Blind R (Atomic.fail e : Atomic ε σ α) := fun _ _ h ↦ ⟨rfl, h⟩

theorem refuseIf {c : Prop} [Decidable c] {e : ε} :
    Blind R (Atomic.refuseIf c e : Atomic ε σ Unit) := by
  intro s t h
  unfold Atomic.refuseIf
  split
  · exact ⟨rfl, h⟩
  · exact ⟨rfl, h⟩

/-- Looking at what is the same in states that look alike. -/
theorem view {g : σ → α} (hg : ∀ s t, R s t → g s = g t) : Blind R (Atomic.view g : Atomic ε σ α) :=
  fun s t h ↦ ⟨congrArg Except.ok (hg s t h), h⟩

theorem find {e : ε} {g : σ → Option α} (hg : ∀ s t, R s t → g s = g t) :
    Blind R (Atomic.find e g) := by
  intro s t h
  unfold Atomic.find
  rw [hg s t h]
  split
  · exact ⟨rfl, h⟩
  · exact ⟨rfl, h⟩

theorem mapError {h : ε → ε'} (hm : Blind R m) : Blind R (Atomic.mapError h m) :=
  fun s t hR ↦ (hm s t hR).mapError

theorem attempt (hm : Blind R m) : Blind R (Atomic.attempt m : Atomic ε' σ (Except ε α)) :=
  fun s t hR ↦ ⟨congrArg Except.ok (hm s t hR).1, (hm s t hR).2⟩

theorem bind (hm : Blind R m) (hf : ∀ a, Blind R (f a)) : Blind R (m >>= f) :=
  fun s t h ↦ (hm s t h).bind fun a u v _ _ huv ↦ hf a u v huv

end Blind

/-! ### Lists of calls -/

section Calls

variable (call : κ → Atomic ε σ α)

/-- The answers to a list of calls, one after the other. -/
def answers : List κ → σ → List (Except ε α)
  | [], _ => []
  | c :: calls, s => (call c s).1 :: answers calls (call c s).2

/-- Each call finds a state that is good for it. -/
def Along (Good : κ → σ → Prop) : List κ → σ → Prop
  | [], _ => True
  | c :: calls, s => Good c s ∧ Along Good calls (call c s).2

variable {call} {Good : κ → σ → Prop}

/-- **Calls that answer alike** where they find a good state are answered alike in every run that
finds good states. -/
theorem answers_eq_of_along
    (hcall : ∀ c s t, R s t → Good c s → Alike R (call c s) (call c t)) :
    ∀ (calls : List κ) (s t : σ), R s t → Along call Good calls s →
      answers call calls s = answers call calls t
  | [], _, _, _, _ => rfl
  | c :: calls, s, t, h, hgood => by
    obtain ⟨hresult, hstate⟩ := hcall c s t h hgood.1
    rw [answers, answers, hresult,
      answers_eq_of_along hcall calls (call c s).2 (call c t).2 hstate hgood.2]

end Calls

end Prog.Atomic
