import SqrzlEmulator.Prog.Logic

/-!
# Programs that run side by side

A pool is a family of programs over one state. Its runs interleave their steps in every order, and a
run keeps a **trace**: which thread left which event. Threads do not share anything but the state,
so a thread that waits for `ready` simply takes no step until another one has made it so.

Statements about all interleavings come from statements about single steps (`Step`), which say how
the steps of a program are those of its parts. A program that nobody interrupts takes its steps one
after the other, and these are a run of the pool (`Run.of_exec`).
-/

namespace Prog

variable {ω ε σ τ α β : Type}

/-! ### Single steps -/

/-- `p.Step s es q t`: in the state `s` the program `p` can take a step that leaves the events `es`,
to the state `t`, and then `q` is what remains. -/
inductive Step : Prog ω ε σ α → σ → List ω → Prog ω ε σ α → σ → Prop
  | step {ready : σ → Bool} {ev : Option ω} {f : σ → σ} {k : σ → Prog ω ε σ α} {s : σ}
      (hready : ready s = true) : Step (step ready ev f k) s ev.toList (k s) (f s)
  | ioOk {ev : Option ω} {f : σ → Option σ} {k : σ → Prog ω ε σ α} {err : Prog ω ε σ α} {s t : σ}
      (hf : f s = some t) : Step (io ev f k err) s ev.toList (k s) t
  | ioErr {ev : Option ω} {f : σ → Option σ} {k : σ → Prog ω ε σ α} {err : Prog ω ε σ α} {s : σ}
      (hf : f s = none) : Step (io ev f k err) s [] err s
  | choose {k : ℕ → Prog ω ε σ α} {s : σ} (n : ℕ) : Step (choose k) s [] (k n) s

variable {p q : Prog ω ε σ α} {s t : σ}

/-- A step begins a run. -/
theorem Step.exec {es evs : List ω} {u : σ} {r : Option (Except ε α)} (h : p.Step s es q t)
    (hx : q.Exec t evs u r) : p.Exec s (es ++ evs) u r := by
  cases h with
  | step hready => exact .step hready hx
  | ioOk hf => exact .ioOk hf hx
  | ioErr hf => exact .ioErr hf hx
  | choose n => exact .choose n hx

/-- A step of a composition is a step of its first program, or that one has returned. -/
theorem Step.of_bind {g : α → Prog ω ε σ β} {es : List ω} {q' : Prog ω ε σ β}
    (h : (p.bind g).Step s es q' t) :
    (∃ p', p.Step s es p' t ∧ q' = p'.bind g) ∨ ∃ a, p = ret a ∧ (g a).Step s es q' t := by
  cases p with
  | ret a => exact .inr ⟨a, rfl, h⟩
  | fail e => cases h
  | step ready ev f k =>
    cases h with
    | step hready => exact .inl ⟨_, .step hready, rfl⟩
  | io ev f k err =>
    cases h with
    | ioOk hf => exact .inl ⟨_, .ioOk hf, rfl⟩
    | ioErr hf => exact .inl ⟨_, .ioErr hf, rfl⟩
  | choose k =>
    cases h with
    | choose n => exact .inl ⟨_, .choose n, rfl⟩

theorem Step.of_attempt {es : List ω} {q' : Prog ω ε σ (Except ε α)} (h : p.attempt.Step s es q' t) :
    ∃ p', p.Step s es p' t ∧ q' = p'.attempt := by
  cases p with
  | ret a => cases h
  | fail e => cases h
  | step ready ev f k =>
    cases h with
    | step hready => exact ⟨_, .step hready, rfl⟩
  | io ev f k err =>
    cases h with
    | ioOk hf => exact ⟨_, .ioOk hf, rfl⟩
    | ioErr hf => exact ⟨_, .ioErr hf, rfl⟩
  | choose k =>
    cases h with
    | choose n => exact ⟨_, .choose n, rfl⟩

/-- A step of a part changes nothing but that part. -/
theorem Step.of_zoom {L : Lens σ τ} {p : Prog ω ε τ α} {es : List ω} {q' : Prog ω ε σ α}
    (h : (zoom L p).Step s es q' t) :
    ∃ p' x, p.Step (L.get s) es p' x ∧ q' = zoom L p' ∧ (t = L.set x s ∨ t = s ∧ x = L.get s) := by
  cases p with
  | ret a => cases h
  | fail e => cases h
  | step ready ev f k =>
    cases h with
    | step hready => exact ⟨_, _, .step hready, rfl, .inl rfl⟩
  | io ev f k err =>
    cases h with
    | ioOk hf =>
      obtain ⟨x, hx, rfl⟩ := Option.map_eq_some_iff.1 hf
      exact ⟨_, x, .ioOk hx, rfl, .inl rfl⟩
    | ioErr hf => exact ⟨_, _, .ioErr (Option.map_eq_none_iff.1 hf), rfl, .inr ⟨rfl, rfl⟩⟩
  | choose k =>
    cases h with
    | choose n => exact ⟨_, _, .choose n, rfl, .inr ⟨rfl, rfl⟩⟩

/-- Any number of steps. -/
inductive Steps : Prog ω ε σ α → σ → Prog ω ε σ α → σ → Prop
  | refl (p : Prog ω ε σ α) (s : σ) : Steps p s p s
  | tail {p q q' : Prog ω ε σ α} {s t t' : σ} {es : List ω} (h : Steps p s q t)
      (hstep : q.Step t es q' t') : Steps p s q' t'

theorem Steps.exec {u : σ} {r : Option (Except ε α)} (h : Steps p s q t)
    (hx : ∃ evs, q.Exec t evs u r) : ∃ evs, p.Exec s evs u r := by
  induction h with
  | refl => exact hx
  | tail _ hstep ih =>
    obtain ⟨evs, hx⟩ := hx
    exact ih ⟨_, hstep.exec hx⟩

/-! ### Runs of a pool -/

variable {ι : Type} [DecidableEq ι]

/-- `Run T₀ s₀ tr T s`: begun with the programs `T₀` in the state `s₀`, the pool has taken steps
with the trace `tr`, the programs `T` remain, and the state is `s`. -/
inductive Run (T₀ : ι → Prog ω ε σ α) (s₀ : σ) : List (ι × ω) → (ι → Prog ω ε σ α) → σ → Prop
  | refl : Run T₀ s₀ [] T₀ s₀
  | step {tr : List (ι × ω)} {T : ι → Prog ω ε σ α} {s t : σ} {es : List ω} {p : Prog ω ε σ α}
      (h : Run T₀ s₀ tr T s) (i : ι) (hstep : (T i).Step s es p t) :
      Run T₀ s₀ (tr ++ es.map (i, ·)) (Function.update T i p) t

variable {T₀ T T' : ι → Prog ω ε σ α} {s₀ : σ} {tr tr' : List (ι × ω)}

theorem Run.trans {u : σ} (h : Run T₀ s₀ tr T s) (h' : Run T s tr' T' u) :
    Run T₀ s₀ (tr ++ tr') T' u := by
  induction h' with
  | refl => rwa [List.append_nil]
  | step _ i hstep ih =>
    rw [← List.append_assoc]
    exact ih.step i hstep

/-- A run begins with a step of one of its programs. -/
theorem Run.of_step {i : ι} {es evs : List ω} {u : σ} {r : Prog ω ε σ α} (hstep : (T i).Step s es q t)
    (h : Run (Function.update T i q) t (evs.map (i, ·))
      (Function.update (Function.update T i q) i r) u) :
    Run T s ((es ++ evs).map (i, ·)) (Function.update T i r) u := by
  rw [List.map_append, ← List.nil_append (es.map _)]
  rw [Function.update_idem] at h
  exact (Run.refl.step i hstep).trans h

/-- A pool can run one of its programs to its end. -/
theorem Run.of_exec {i : ι} {evs : List ω} {r : Except ε α}
    (h : (T i).Exec s evs t (some r)) :
    Run T s (evs.map (i, ·)) (Function.update T i (ofExcept r)) t := by
  generalize hp : T i = p at h
  generalize hr : some r = r' at h
  induction h generalizing T with
  | stop p s => cases hr
  | ret a s =>
    cases hr
    rw [Function.update_eq_self_iff.2 hp.symm]
    exact .refl
  | fail e s =>
    cases hr
    rw [Function.update_eq_self_iff.2 hp.symm]
    exact .refl
  | step hready _ ih => exact Run.of_step (hp ▸ .step hready) (ih (Function.update_self ..) hr)
  | ioOk hf _ ih => exact Run.of_step (hp ▸ .ioOk hf) (ih (Function.update_self ..) hr)
  | ioErr hf _ ih =>
    have hstep : (T i).Step _ [] _ _ := hp ▸ Step.ioErr hf
    exact Run.of_step hstep (ih (Function.update_self ..) hr)
  | @choose k s _ _ _ n _ ih =>
    have hstep : (T i).Step s [] (k n) s := hp ▸ Step.choose n
    exact Run.of_step hstep (ih (Function.update_self ..) hr)

end Prog
