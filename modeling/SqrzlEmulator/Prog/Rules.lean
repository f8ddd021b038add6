import SqrzlEmulator.Prog.Logic

/-!
# Running compositions forward, and keeping an invariant

`Exec.of_bind` takes a run of a composition apart. The rules here put one together: **a run of the
first program and a run of what follows are a run of the composition**, for runs that are stopped
(`Stops.inside`, `Stops.bind`) and for runs to the end (`Returns.bind`, `Returns.bind_error`). They
show that a program can do something, where `wp` shows what it cannot do.

`p.Keeps I` says that `p` may be started in any state of `I`, never waits there, and **passes
through states of `I` only**. It composes without a look at the states between.
-/

namespace Prog

variable {ω ε σ α β : Type}

/-- A program that returns a value, and what follows it. -/
theorem Exec.bind {p : Prog ω ε σ α} {g : α → Prog ω ε σ β} {s u t : σ} {evs evs' : List ω} {a : α}
    {r : Option (Except ε β)} (h : p.Exec s evs u (some (.ok a))) (hg : (g a).Exec u evs' t r) :
    (p.bind g).Exec s (evs ++ evs') t r := by
  generalize hr : some (Except.ok a : Except ε α) = r' at h
  induction h with
  | stop => cases hr
  | ret b s =>
    cases hr
    exact hg
  | fail => cases hr
  | step hready _ ih =>
    rw [List.append_assoc]
    exact .step hready (ih hg hr)
  | ioOk hf _ ih =>
    rw [List.append_assoc]
    exact .ioOk hf (ih hg hr)
  | ioErr hf _ ih => exact .ioErr hf (ih hg hr)
  | choose n _ ih => exact .choose n (ih hg hr)

/-- A program that is stopped, is stopped inside a composition. -/
theorem Exec.bind_stop {p : Prog ω ε σ α} {g : α → Prog ω ε σ β} {s t : σ} {evs : List ω}
    (h : p.Exec s evs t none) : (p.bind g).Exec s evs t none := by
  generalize hr : (none : Option (Except ε α)) = r' at h
  induction h with
  | stop => exact .stop _ _
  | ret => cases hr
  | fail => cases hr
  | step hready _ ih => exact .step hready (ih hr)
  | ioOk hf _ ih => exact .ioOk hf (ih hr)
  | ioErr hf _ ih => exact .ioErr hf (ih hr)
  | choose n _ ih => exact .choose n (ih hr)

/-- A program that fails, and nothing follows. -/
theorem Exec.bind_error {p : Prog ω ε σ α} {g : α → Prog ω ε σ β} {s t : σ} {evs : List ω} {e : ε}
    (h : p.Exec s evs t (some (.error e))) : (p.bind g).Exec s evs t (some (.error e)) := by
  generalize hr : some (Except.error e : Except ε α) = r' at h
  induction h with
  | stop => cases hr
  | ret => cases hr
  | fail =>
    cases hr
    exact .fail _ _
  | step hready _ ih => exact .step hready (ih hr)
  | ioOk hf _ ih => exact .ioOk hf (ih hr)
  | ioErr hf _ ih => exact .ioErr hf (ih hr)
  | choose n _ ih => exact .choose n (ih hr)

/-- Attempting a program runs it. -/
theorem Exec.attempt {p : Prog ω ε σ α} {s t : σ} {evs : List ω} {r : Option (Except ε α)}
    (h : p.Exec s evs t r) : p.attempt.Exec s evs t (r.map .ok) := by
  induction h with
  | stop => exact .stop _ _
  | ret => exact .ret _ _
  | fail => exact .ret _ _
  | step hready _ ih => exact .step hready ih
  | ioOk hf _ ih => exact .ioOk hf ih
  | ioErr hf _ ih => exact .ioErr hf ih
  | choose n _ ih => exact .choose n ih

/-- What stops a program, stops it when it is guarded. -/
theorem Stops.onError {p : Prog ω ε σ α} {cleanup : Prog ω ε σ Unit} {s t : σ} (h : p.Stops s t) :
    (p.onError cleanup).Stops s t := by
  obtain ⟨evs, h⟩ := h
  exact ⟨evs, h.attempt.bind_stop⟩

theorem Returns.onError {p : Prog ω ε σ α} {s t : σ} {a : α} (h : p.Returns s (.ok a) t)
    (cleanup : Prog ω ε σ Unit) : (p.onError cleanup).Returns s (.ok a) t := by
  obtain ⟨evs, h⟩ := h
  exact ⟨_, h.attempt.bind (.ret a t)⟩

/-- A guarded program that fails has been cleaned up. -/
theorem Returns.onError_error {p : Prog ω ε σ α} {cleanup : Prog ω ε σ Unit} {s u t : σ} {e : ε}
    {r : Except ε Unit} (h : p.Returns s (.error e) u) (hclean : cleanup.Returns u r t) :
    (p.onError cleanup).Returns s (.error e) t := by
  obtain ⟨evs, h⟩ := h
  obtain ⟨evs', hclean⟩ := hclean
  exact ⟨_, h.attempt.bind (hclean.attempt.bind (.fail e t))⟩

theorem Stops.bind {p : Prog ω ε σ α} {g : α → Prog ω ε σ β} {s u t : σ} {a : α}
    (h : p.Returns s (.ok a) u) (hg : (g a).Stops u t) : (p.bind g).Stops s t := by
  obtain ⟨evs, h⟩ := h
  obtain ⟨evs', hg⟩ := hg
  exact ⟨_, h.bind hg⟩

theorem Stops.inside {p : Prog ω ε σ α} {g : α → Prog ω ε σ β} {s t : σ} (h : p.Stops s t) :
    (p.bind g).Stops s t := by
  obtain ⟨evs, h⟩ := h
  exact ⟨evs, h.bind_stop⟩

theorem Returns.bind {p : Prog ω ε σ α} {g : α → Prog ω ε σ β} {s u t : σ} {a : α}
    {r : Except ε β} (h : p.Returns s (.ok a) u) (hg : (g a).Returns u r t) :
    (p.bind g).Returns s r t := by
  obtain ⟨evs, h⟩ := h
  obtain ⟨evs', hg⟩ := hg
  exact ⟨_, h.bind hg⟩

theorem Returns.bind_error {p : Prog ω ε σ α} {g : α → Prog ω ε σ β} {s t : σ} {e : ε}
    (h : p.Returns s (.error e) t) : (p.bind g).Returns s (.error e) t := by
  obtain ⟨evs, h⟩ := h
  exact ⟨evs, h.bind_error⟩

theorem Returns.stops {p : Prog ω ε σ α} {s t : σ} {r : Except ε α} (h : p.Returns s r t) :
    p.Stops s t := by
  obtain ⟨evs, h⟩ := h
  refine ⟨evs, ?_⟩
  generalize hr : some r = r' at h
  induction h with
  | stop => cases hr
  | ret => exact .stop _ _
  | fail => exact .stop _ _
  | step hready _ ih => exact .step hready (ih hr)
  | ioOk hf _ ih => exact .ioOk hf (ih hr)
  | ioErr hf _ ih => exact .ioErr hf (ih hr)
  | choose n _ ih => exact .choose n (ih hr)

/-! ### Invariants -/

/-- Wherever the program is started in `I`, it stays in `I`. -/
def Keeps (I : σ → Prop) (p : Prog ω ε σ α) : Prop := ∀ s, I s → wp I p (fun _ t ↦ I t) s

section Keeps

variable {I : σ → Prop} {p : Prog ω ε σ α}

theorem keeps_ret (a : α) : (ret a : Prog ω ε σ α).Keeps I := fun _ hs ↦ ⟨hs, hs⟩

theorem keeps_fail (e : ε) : (fail e : Prog ω ε σ α).Keeps I := fun _ hs ↦ ⟨hs, hs⟩

theorem keeps_read (g : σ → α) : (read g : Prog ω ε σ α).Keeps I :=
  fun _ hs ↦ wp_read.2 ⟨hs, hs⟩

theorem keeps_ofExcept (x : Except ε α) : (ofExcept x : Prog ω ε σ α).Keeps I := by
  cases x with
  | ok a => exact keeps_ret a
  | error e => exact keeps_fail e

theorem keeps_modify {f : σ → σ} (h : ∀ s, I s → I (f s)) :
    (modify f : Prog ω ε σ Unit).Keeps I :=
  fun s hs ↦ wp_modify.2 ⟨hs, h s hs, h s hs⟩

theorem keeps_choose {k : ℕ → Prog ω ε σ α} (h : ∀ n, (k n).Keeps I) : (choose k).Keeps I :=
  fun s hs n ↦ h n s hs

theorem Keeps.bind {g : α → Prog ω ε σ β} (hp : p.Keeps I) (hg : ∀ a, (g a).Keeps I) :
    (p.bind g).Keeps I := by
  intro s hs
  refine wp_bind.2 (wp_mono (hp s hs) (fun _ ↦ id) fun r t ht _ ↦ ?_)
  cases r with
  | ok a => exact hg a t ht
  | error e => exact ht

theorem keeps_forEach {l : List β} {body : β → Prog ω ε σ Unit} (h : ∀ x ∈ l, (body x).Keeps I) :
    (forEach l body).Keeps I := by
  induction l with
  | nil => exact keeps_ret ()
  | cons x l ih =>
    exact (h x List.mem_cons_self).bind fun _ ↦ ih fun y hy ↦ h y (List.mem_cons_of_mem _ hy)

theorem keeps_foldEach {γ : Type} {l : List β} {acc : γ} {body : γ → β → Prog ω ε σ γ}
    (h : ∀ acc x, (body acc x).Keeps I) : (foldEach l acc body).Keeps I := by
  induction l generalizing acc with
  | nil => exact keeps_ret acc
  | cons x l ih => exact (h acc x).bind fun _ ↦ ih

theorem Keeps.attempt (hp : p.Keeps I) : p.attempt.Keeps I := fun s hs ↦ wp_attempt.2 (hp s hs)

theorem Keeps.onError {cleanup : Prog ω ε σ Unit} (hp : p.Keeps I) (hc : cleanup.Keeps I) :
    (p.onError cleanup).Keeps I := by
  refine hp.attempt.bind fun r ↦ ?_
  cases r with
  | ok a => exact keeps_ret a
  | error e => exact hc.attempt.bind fun _ ↦ keeps_fail e

end Keeps

end Prog
