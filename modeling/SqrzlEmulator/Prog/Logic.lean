import SqrzlEmulator.Prog.Basic

/-!
# A crash logic for programs of atomic steps

`wp I p Q s` says two things about every run of `p` from `s`: **each state it passes through
satisfies `I`**, so a process killed at any point leaves a state in `I`; and a run that gets to the
end returns a result and a state in `Q`. It also says that no step waits for ever.

The definition is a recursion over the program, so that `simp` executes a program symbolically with
the equations below; `wp_bind` is the rule for composition, `wp_forEach` the rule for loops, and
`wp_zoom` carries a statement about a part of the state to the whole.

## Lenses

A `Lens` names a part of the state: a file of a directory, a directory of a tree. `zoom` runs a
program of the part on the whole. The law `set (get s) s = s` is not a field, because the parts we
use need not be there before a program creates them; `wp_zoom` asks for it at the initial state
only.
-/

namespace Prog

variable {ω ε σ τ α β : Type}

/-- Every state a run of the program passes through is in `I`, and every result is in `Q`. -/
def wp (I : σ → Prop) : Prog ω ε σ α → (Except ε α → σ → Prop) → σ → Prop
  | ret a, Q, s => I s ∧ Q (.ok a) s
  | fail e, Q, s => I s ∧ Q (.error e) s
  | step ready _ f k, Q, s => I s ∧ ready s = true ∧ wp I (k s) Q (f s)
  | io _ f k err, Q, s =>
    I s ∧ match f s with
      | some s' => wp I (k s) Q s'
      | none => wp I err Q s
  | choose k, Q, s => ∀ n, wp I (k n) Q s

/-! ### Adequacy -/

variable {I I' : σ → Prop} {p : Prog ω ε σ α} {Q Q' : Except ε α → σ → Prop} {s t : σ}

theorem inv_of_wp (h : wp I p Q s) : I s := by
  induction p with
  | ret a => exact h.1
  | fail e => exact h.1
  | step ready ev f k ih => exact h.1
  | io ev f k err ih ihe => exact h.1
  | choose k ih => exact ih 0 (h 0)

/-- What `wp` promises holds of every run, stopped or finished. -/
theorem Exec.of_wp {evs : List ω} {r : Option (Except ε α)} (hx : p.Exec s evs t r)
    (h : wp I p Q s) : I t ∧ ∀ v, r = some v → Q v t := by
  induction hx with
  | stop p s => exact ⟨inv_of_wp h, by simp⟩
  | ret a s => exact ⟨h.1, by rintro v ⟨⟩; exact h.2⟩
  | fail e s => exact ⟨h.1, by rintro v ⟨⟩; exact h.2⟩
  | step _ _ ih => exact ih h.2.2
  | ioOk hf _ ih =>
    have h' := h.2
    rw [hf] at h'
    exact ih h'
  | ioErr hf _ ih =>
    have h' := h.2
    rw [hf] at h'
    exact ih h'
  | choose n _ ih => exact ih (h n)

theorem Stops.of_wp (hx : p.Stops s t) (h : wp I p Q s) : I t := by
  obtain ⟨_, hx⟩ := hx
  exact (hx.of_wp h).1

theorem Returns.of_wp {r : Except ε α} (hx : p.Returns s r t) (h : wp I p Q s) : Q r t := by
  obtain ⟨_, hx⟩ := hx
  exact (hx.of_wp h).2 r rfl

theorem wp_mono (h : wp I p Q s) (hI : ∀ t, I t → I' t) (hQ : ∀ r t, I t → Q r t → Q' r t) :
    wp I' p Q' s := by
  induction p generalizing s with
  | ret a => exact ⟨hI _ h.1, hQ _ _ h.1 h.2⟩
  | fail e => exact ⟨hI _ h.1, hQ _ _ h.1 h.2⟩
  | step ready ev f k ih => exact ⟨hI _ h.1, h.2.1, ih _ h.2.2⟩
  | io ev f k err ih ihe =>
    refine ⟨hI _ h.1, ?_⟩
    have h' := h.2
    cases hf : f s with
    | some s' => rw [hf] at h'; exact ih _ h'
    | none => rw [hf] at h'; exact ihe h'
  | choose k ih => exact fun n ↦ ih n (h n)

theorem wp_and (h : wp I p Q s) (h' : wp I' p Q' s) :
    wp (fun t ↦ I t ∧ I' t) p (fun r t ↦ Q r t ∧ Q' r t) s := by
  induction p generalizing s with
  | ret a => exact ⟨⟨h.1, h'.1⟩, h.2, h'.2⟩
  | fail e => exact ⟨⟨h.1, h'.1⟩, h.2, h'.2⟩
  | step ready ev f k ih => exact ⟨⟨h.1, h'.1⟩, h.2.1, ih _ h.2.2 h'.2.2⟩
  | io ev f k err ih ihe =>
    refine ⟨⟨h.1, h'.1⟩, ?_⟩
    have h₁ := h.2
    have h₂ := h'.2
    cases hf : f s with
    | some s' => rw [hf] at h₁ h₂; exact ih _ h₁ h₂
    | none => rw [hf] at h₁ h₂; exact ihe h₁ h₂
  | choose k ih => exact fun n ↦ ih n (h n) (h' n)

/-- A program that need not wait always has a run to its end. -/
theorem exists_returns_of_wp (h : wp I p Q s) : ∃ r t, p.Returns s r t := by
  induction p generalizing s with
  | ret a => exact ⟨_, s, [], .ret a s⟩
  | fail e => exact ⟨_, s, [], .fail e s⟩
  | step ready ev f k ih =>
    obtain ⟨r, t, evs, hx⟩ := ih _ h.2.2
    exact ⟨r, t, _, .step h.2.1 hx⟩
  | io ev f k err ih ihe =>
    have h' := h.2
    cases hf : f s with
    | some s' =>
      rw [hf] at h'
      obtain ⟨r, t, evs, hx⟩ := ih _ h'
      exact ⟨r, t, _, .ioOk hf hx⟩
    | none =>
      rw [hf] at h'
      obtain ⟨r, t, evs, hx⟩ := ihe h'
      exact ⟨r, t, _, .ioErr hf hx⟩
  | choose k ih =>
    obtain ⟨r, t, evs, hx⟩ := ih 0 (h 0)
    exact ⟨r, t, evs, .choose 0 hx⟩

/-! ### Rules -/

@[simp] theorem wp_ret {a : α} : wp I (ret a : Prog ω ε σ α) Q s ↔ I s ∧ Q (.ok a) s := Iff.rfl

@[simp] theorem wp_fail {e : ε} : wp I (fail e : Prog ω ε σ α) Q s ↔ I s ∧ Q (.error e) s := Iff.rfl

@[simp] theorem wp_choose {k : ℕ → Prog ω ε σ α} :
    wp I (choose k) Q s ↔ ∀ n, wp I (k n) Q s := Iff.rfl

/-- Composition: what the first program must establish is what the second one needs. -/
@[simp] theorem wp_bind {g : α → Prog ω ε σ β} {Q : Except ε β → σ → Prop} :
    wp I (p.bind g) Q s ↔ wp I p (fun r t ↦ match r with
      | .ok a => wp I (g a) Q t
      | .error e => Q (.error e) t) s := by
  induction p generalizing s with
  | ret a => exact ⟨fun h ↦ ⟨inv_of_wp h, h⟩, fun h ↦ h.2⟩
  | fail e => exact Iff.rfl
  | step ready ev f k ih => simp only [bind, wp, ih]
  | io ev f k err ih ihe => simp only [bind, wp, ih, ihe]
  | choose k ih => simp only [bind, wp, ih]

@[simp] theorem wp_attempt {Q : Except ε (Except ε α) → σ → Prop} :
    wp I p.attempt Q s ↔ wp I p (fun r t ↦ Q (.ok r) t) s := by
  induction p generalizing s with
  | ret a => exact Iff.rfl
  | fail e => exact Iff.rfl
  | step ready ev f k ih => simp only [attempt, wp, ih]
  | io ev f k err ih ihe => simp only [attempt, wp, ih, ihe]
  | choose k ih => simp only [attempt, wp, ih]

@[simp] theorem wp_ofExcept {x : Except ε α} :
    wp I (ofExcept x : Prog ω ε σ α) Q s ↔ I s ∧ Q x s := by
  cases x <;> rfl

@[simp] theorem wp_read {g : σ → α} :
    wp I (read g : Prog ω ε σ α) Q s ↔ I s ∧ Q (.ok (g s)) s := by
  simp [read, wp]

/-- A check, and what follows when it passes. -/
theorem wp_ofExcept_bind {x : Except ε α} {g : α → Prog ω ε σ β} {Q : Except ε β → σ → Prop}
    (hI : I s) (herr : ∀ e, x = .error e → Q (.error e) s)
    (hok : ∀ a, x = .ok a → wp I (g a) Q s) : wp I (ofExcept x >>= g) Q s := by
  rw [bind_eq, wp_bind, wp_ofExcept]
  refine ⟨hI, ?_⟩
  cases hx : x with
  | error e => exact herr e hx
  | ok a => exact hok a hx

/-- A question, and what follows its answer. -/
theorem wp_read_bind {g : σ → α} {k : α → Prog ω ε σ β} {Q : Except ε β → σ → Prop} (hI : I s)
    (h : wp I (k (g s)) Q s) : wp I (read g >>= k) Q s := by
  rw [bind_eq, wp_bind, wp_read]
  exact ⟨hI, h⟩

@[simp] theorem wp_modify {f : σ → σ} {Q : Except ε Unit → σ → Prop} :
    wp I (modify f : Prog ω ε σ Unit) Q s ↔ I s ∧ I (f s) ∧ Q (.ok ()) (f s) := by
  simp [modify, wp]

@[simp] theorem wp_await {ready : σ → Bool} {f : σ → σ} {Q : Except ε Unit → σ → Prop} :
    wp I (await ready f : Prog ω ε σ Unit) Q s ↔
      I s ∧ ready s = true ∧ I (f s) ∧ Q (.ok ()) (f s) := by
  simp [await, wp]

@[simp] theorem wp_act {ev : Option ω} {f : σ → σ} {g : σ → α} :
    wp I (act ev f g : Prog ω ε σ α) Q s ↔ I s ∧ I (f s) ∧ Q (.ok (g s)) (f s) := by
  simp [act, wp]

@[simp] theorem wp_io {ev : Option ω} {f : σ → Option σ} {k : σ → Prog ω ε σ α}
    {err : Prog ω ε σ α} :
    wp I (io ev f k err) Q s ↔ I s ∧ match f s with
      | some s' => wp I (k s) Q s'
      | none => wp I err Q s := Iff.rfl

@[simp] theorem wp_sys {e : ε} {f : σ → Option σ} {Q : Except ε Unit → σ → Prop} :
    wp I (sys e f : Prog ω ε σ Unit) Q s ↔ I s ∧ match f s with
      | some s' => I s' ∧ Q (.ok ()) s'
      | none => Q (.error e) s := by
  cases hf : f s with
  | some s' => simp [sys, wp, hf]
  | none => simp only [sys, wp, hf, ← and_assoc, and_self]

theorem wp_sys_some {e : ε} {f : σ → Option σ} {Q : Except ε Unit → σ → Prop} {t : σ}
    (hf : f s = some t) (hs : I s) (hI : I t) (hQ : Q (.ok ()) t) :
    wp I (sys e f : Prog ω ε σ Unit) Q s := by
  rw [wp_sys, hf]
  exact ⟨hs, hI, hQ⟩

@[simp] theorem wp_sysRead {e : ε} {g : σ → Option α} :
    wp I (sysRead e g : Prog ω ε σ α) Q s ↔ I s ∧ match g s with
      | some a => Q (.ok a) s
      | none => Q (.error e) s := by
  cases hg : g s <;> simp [sysRead, hg]

@[simp] theorem wp_onError {cleanup : Prog ω ε σ Unit} :
    wp I (p.onError cleanup) Q s ↔ wp I p (fun r t ↦ match r with
      | .ok a => I t ∧ Q (.ok a) t
      | .error e => wp I cleanup (fun _ t ↦ I t ∧ Q (.error e) t) t) s := by
  have hpost : ∀ {r : Except ε α} {t : σ}, wp I (match r with
      | .ok a => (ret a : Prog ω ε σ α)
      | .error e => cleanup.attempt.bind fun _ ↦ fail e) Q t ↔ match r with
      | .ok a => I t ∧ Q (.ok a) t
      | .error e => wp I cleanup (fun _ t ↦ I t ∧ Q (.error e) t) t := by
    rintro (e | a) t <;> simp
  simp only [onError, wp_bind, wp_attempt]
  constructor
  · exact fun h ↦ wp_mono h (fun _ ↦ id) fun r t _ ↦ hpost.1
  · exact fun h ↦ wp_mono h (fun _ ↦ id) fun r t _ ↦ hpost.2

/-- An order nobody controls may be any order. -/
theorem wp_shuffled {l : List β} {Q : Except ε (List β) → σ → Prop} (hs : I s)
    (h : ∀ l' : List β, l'.Perm l → Q (.ok l') s) :
    wp I (shuffled l : Prog ω ε σ (List β)) Q s :=
  fun n ↦ ⟨hs, h _ (permute_perm n l)⟩

/-- A loop: `J xs` is what holds before the elements `xs` have been worked off. -/
theorem wp_forEach {J : List β → σ → Prop} {body : β → Prog ω ε σ Unit}
    {Q : Except ε Unit → σ → Prop}
    (hbody : ∀ x xs s, J (x :: xs) s → wp I (body x) (fun r t ↦ match r with
      | .ok _ => J xs t
      | .error e => Q (.error e) t) s)
    (hdone : ∀ s, J [] s → I s ∧ Q (.ok ()) s) (l : List β) (h : J l s) :
    wp I (forEach l body) Q s := by
  induction l generalizing s with
  | nil => exact hdone s h
  | cons x xs ih =>
    rw [forEach, wp_bind]
    refine wp_mono (hbody x xs s h) (fun _ ↦ id) ?_
    rintro (e | u) t - hq
    · exact hq
    · exact ih hq

/-- A loop with a result: `J xs acc` is what holds before the elements `xs` have been worked off. -/
theorem wp_foldEach {γ : Type} {J : List β → γ → σ → Prop} {body : γ → β → Prog ω ε σ γ}
    {Q : Except ε γ → σ → Prop}
    (hbody : ∀ x xs acc s, J (x :: xs) acc s → wp I (body acc x) (fun r t ↦ match r with
      | .ok acc => J xs acc t
      | .error e => Q (.error e) t) s)
    (hdone : ∀ acc s, J [] acc s → I s ∧ Q (.ok acc) s) (l : List β) {acc : γ} (h : J l acc s) :
    wp I (foldEach l acc body) Q s := by
  induction l generalizing s acc with
  | nil => exact hdone acc s h
  | cons x xs ih =>
    rw [foldEach, wp_bind]
    refine wp_mono (hbody x xs acc s h) (fun _ ↦ id) ?_
    rintro (e | a) t - hq
    · exact hq
    · exact ih hq

/-! ### Parts of the state -/

/-- A part of a state: how it is read and how it is replaced. -/
structure Lens (σ τ : Type) where
  /-- Read the part. -/
  get : σ → τ
  /-- Replace the part. -/
  set : τ → σ → σ
  /-- What was put there is found there. -/
  get_set : ∀ x s, get (set x s) = x
  /-- The last replacement counts. -/
  set_set : ∀ x y s, set x (set y s) = set x s

namespace Lens

attribute [simp] get_set set_set

/-- A part of a part. -/
@[simps] def comp {υ : Type} (L : Lens σ τ) (M : Lens τ υ) : Lens σ υ where
  get s := M.get (L.get s)
  set x s := L.set (M.set x (L.get s)) s
  get_set x s := by simp
  set_set x y s := by simp

/-- The content of an optional part that is there. -/
@[simps] def existing [Inhabited τ] : Lens (Option τ) τ where
  get o := o.getD default
  set x _ := some x
  get_set _ _ := rfl
  set_set _ _ _ := rfl

end Lens

/-- Run a program of a part on the whole state. -/
def zoom (L : Lens σ τ) : Prog ω ε τ α → Prog ω ε σ α
  | ret a => ret a
  | fail e => fail e
  | step ready ev f k =>
    step (fun s ↦ ready (L.get s)) ev (fun s ↦ L.set (f (L.get s)) s) fun s ↦ zoom L (k (L.get s))
  | io ev f k err =>
    io ev (fun s ↦ (f (L.get s)).map (L.set · s)) (fun s ↦ zoom L (k (L.get s))) (zoom L err)
  | choose k => choose fun n ↦ zoom L (k n)

/-- A statement about a program of a part, read on the whole state. -/
theorem wp_zoom_iff {L : Lens σ τ} {p : Prog ω ε τ α} (hs : L.set (L.get s) s = s) :
    wp I (zoom L p) Q s ↔
      wp (fun x ↦ I (L.set x s)) p (fun r x ↦ Q r (L.set x s)) (L.get s) := by
  induction p generalizing s with
  | ret a => simp [zoom, hs]
  | fail e => simp [zoom, hs]
  | step ready ev f k ih =>
    simp only [zoom, wp, hs]
    rw [ih (L.get s) (s := L.set (f (L.get s)) s) (by simp)]
    simp
  | io ev f k err ih ihe =>
    simp only [zoom, wp, hs]
    cases hf : f (L.get s) with
    | none => simp only [Option.map_none, ihe hs]
    | some x =>
      simp only [Option.map_some]
      rw [ih (L.get s) (s := L.set x s) (by simp)]
      simp
  | choose k ih => simp only [zoom, wp, ih _ hs]

/-- The rule for `zoom`. -/
theorem wp_zoom {L : Lens σ τ} {p : Prog ω ε τ α} (hs : L.set (L.get s) s = s)
    (h : wp (fun x ↦ I (L.set x s)) p (fun r x ↦ Q r (L.set x s)) (L.get s)) :
    wp I (zoom L p) Q s :=
  (wp_zoom_iff hs).2 h

/-- The rule for a part that is there. -/
theorem wp_zoom_existing [Inhabited τ] {L : Lens σ (Option τ)} {p : Prog ω ε τ α} {v : τ}
    (hv : L.get s = some v) (hs : L.set (some v) s = s)
    (h : wp (fun x ↦ I (L.set (some x) s)) p (fun r x ↦ Q r (L.set (some x) s)) v) :
    wp I (zoom (L.comp .existing) p) Q s := by
  refine wp_zoom ?_ ?_
  · simp [hv, hs]
  · simpa [hv] using h

theorem zoom_bind (L : Lens σ τ) (p : Prog ω ε τ α) (g : α → Prog ω ε τ β) :
    zoom L (p.bind g) = (zoom L p).bind fun a ↦ zoom L (g a) := by
  induction p with
  | ret a => rfl
  | fail e => rfl
  | step ready ev f k ih => simp only [bind, zoom, ih]
  | io ev f k err ih ihe => simp only [bind, zoom, ih, ihe]
  | choose k ih => simp only [bind, zoom, ih]

/-! ### Events -/

/-- Keep the events of a run in its state, so that `wp` can speak of them. -/
def record : Prog ω ε σ α → Prog ω ε (List ω × σ) α
  | ret a => ret a
  | fail e => fail e
  | step ready ev f k =>
    step (fun x ↦ ready x.2) ev (fun x ↦ (x.1 ++ ev.toList, f x.2)) fun x ↦ record (k x.2)
  | io ev f k err =>
    io ev (fun x ↦ (f x.2).map fun s ↦ (x.1 ++ ev.toList, s)) (fun x ↦ record (k x.2)) (record err)
  | choose k => choose fun n ↦ record (k n)

theorem Exec.record {evs : List ω} {r : Option (Except ε α)} (h : p.Exec s evs t r)
    (es : List ω) : p.record.Exec (es, s) evs (es ++ evs, t) r := by
  induction h generalizing es with
  | stop p s => simpa using Exec.stop _ _
  | ret a s => simpa [Prog.record] using Exec.ret a _
  | fail e s => simpa [Prog.record] using Exec.fail e _
  | step hready _ ih =>
    rw [← List.append_assoc]
    exact Exec.step hready (ih _)
  | ioOk hf _ ih =>
    rw [← List.append_assoc]
    exact Exec.ioOk (by simp [hf]) (ih _)
  | ioErr hf _ ih => exact Exec.ioErr (by simp [hf]) (ih es)
  | choose n _ ih => exact Exec.choose n (ih es)

theorem record_bind (p : Prog ω ε σ α) (g : α → Prog ω ε σ β) :
    record (p.bind g) = (record p).bind fun a ↦ record (g a) := by
  induction p with
  | ret a => rfl
  | fail e => rfl
  | step ready ev f k ih => simp only [bind, record, ih]
  | io ev f k err ih ihe => simp only [bind, record, ih, ihe]
  | choose k ih => simp only [bind, record, ih]

theorem record_attempt (p : Prog ω ε σ α) : record p.attempt = (record p).attempt := by
  induction p with
  | ret a => rfl
  | fail e => rfl
  | step ready ev f k ih => simp only [attempt, record, ih]
  | io ev f k err ih ihe => simp only [attempt, record, ih, ihe]
  | choose k ih => simp only [attempt, record, ih]

theorem record_onError (p : Prog ω ε σ α) (cleanup : Prog ω ε σ Unit) :
    record (p.onError cleanup) = (record p).onError (record cleanup) := by
  simp only [onError, record_bind, record_attempt]
  congr 1
  funext r
  cases r with
  | ok a => rfl
  | error e => simp only [record_bind, record_attempt]; rfl

/-- A part of a state, together with the events of the run. -/
@[simps] def Lens.recorded (L : Lens σ τ) : Lens (List ω × σ) (List ω × τ) where
  get x := (x.1, L.get x.2)
  set y x := (y.1, L.set y.2 x.2)
  get_set _ _ := by simp
  set_set _ _ _ := by simp

theorem record_zoom (L : Lens σ τ) (p : Prog ω ε τ α) :
    record (zoom L p) = zoom L.recorded (record p) := by
  induction p with
  | ret a => rfl
  | fail e => rfl
  | step ready ev f k ih => simp only [zoom, record, ih, Lens.recorded]
  | io ev f k err ih ihe =>
    simp only [zoom, record, ih, ihe, Lens.recorded, Option.map_map]
    rfl
  | choose k ih => simp only [zoom, record, ih]

theorem wp_record_zoom {L : Lens σ τ} {p : Prog ω ε τ α} {es : List ω} {I : List ω × σ → Prop}
    {Q : Except ε α → List ω × σ → Prop} (hs : L.set (L.get s) s = s)
    (h : wp (fun x ↦ I (x.1, L.set x.2 s)) (record p) (fun r x ↦ Q r (x.1, L.set x.2 s))
      (es, L.get s)) :
    wp I (record (zoom L p)) Q (es, s) := by
  rw [record_zoom]
  exact wp_zoom (by simp [hs]) (by simpa using h)

theorem wp_of_record (es : List ω)
    (h : wp (fun x ↦ I x.2) p.record (fun r x ↦ Q r x.2) (es, s)) : wp I p Q s := by
  induction p generalizing s es with
  | ret a => exact h
  | fail e => exact h
  | step ready ev f k ih => exact ⟨h.1, h.2.1, ih _ _ h.2.2⟩
  | io ev f k err ih ihe =>
    refine ⟨h.1, ?_⟩
    have h' := h.2
    cases hf : f s with
    | some s' => simp only [hf, Option.map_some] at h'; exact ih _ _ h'
    | none => simp only [hf, Option.map_none] at h'; exact ihe _ h'
  | choose k ih => exact fun n ↦ ih n _ (h n)

/-- A program that leaves no events. -/
def Quiet : Prog ω ε σ α → Prop
  | ret _ => True
  | fail _ => True
  | step _ ev _ k => ev = none ∧ ∀ s, (k s).Quiet
  | io ev _ k err => ev = none ∧ (∀ s, (k s).Quiet) ∧ err.Quiet
  | choose k => ∀ n, (k n).Quiet

/-- The events of a run do not change while a quiet program runs. -/
theorem wp_record_of_quiet {es : List ω} {I : List ω × σ → Prop}
    {Q : Except ε α → List ω × σ → Prop} (hp : p.Quiet) :
    wp I p.record Q (es, s) ↔ wp (fun t ↦ I (es, t)) p (fun r t ↦ Q r (es, t)) s := by
  induction p generalizing s with
  | ret a => exact Iff.rfl
  | fail e => exact Iff.rfl
  | step ready ev f k ih => simp [record, wp, hp.1, ih _ (hp.2 _)]
  | io ev f k err ih ihe =>
    cases hf : f s <;> simp [record, wp, hp.1, hf, ih _ (hp.2.1 _), ihe hp.2.2]
  | choose k ih => simp [record, wp, ih _ (hp _)]

@[simp] theorem quiet_ret (a : α) : (ret a : Prog ω ε σ α).Quiet := trivial

@[simp] theorem quiet_fail (e : ε) : (fail e : Prog ω ε σ α).Quiet := trivial

@[simp] theorem quiet_read (g : σ → α) : (read g : Prog ω ε σ α).Quiet := by simp [read, Quiet]

@[simp] theorem quiet_sys (e : ε) (f : σ → Option σ) : (sys e f : Prog ω ε σ Unit).Quiet := by
  simp [sys, Quiet]

@[simp] theorem quiet_ofExcept (x : Except ε α) : (ofExcept x : Prog ω ε σ α).Quiet := by
  cases x <;> trivial

@[simp] theorem quiet_shuffled (l : List α) : (shuffled l : Prog ω ε σ (List α)).Quiet :=
  fun _ ↦ trivial

@[simp] theorem Quiet.bind {g : α → Prog ω ε σ β} (hp : p.Quiet) (hg : ∀ a, (g a).Quiet) :
    (p.bind g).Quiet := by
  induction p with
  | ret a => exact hg a
  | fail e => trivial
  | step ready ev f k ih => exact ⟨hp.1, fun s ↦ ih s (hp.2 s)⟩
  | io ev f k err ih ihe => exact ⟨hp.1, fun s ↦ ih s (hp.2.1 s), ihe hp.2.2⟩
  | choose k ih => exact fun n ↦ ih n (hp n)

@[simp] theorem Quiet.attempt (hp : p.Quiet) : p.attempt.Quiet := by
  induction p with
  | ret a => trivial
  | fail e => trivial
  | step ready ev f k ih => exact ⟨hp.1, fun s ↦ ih s (hp.2 s)⟩
  | io ev f k err ih ihe => exact ⟨hp.1, fun s ↦ ih s (hp.2.1 s), ihe hp.2.2⟩
  | choose k ih => exact fun n ↦ ih n (hp n)

@[simp] theorem quiet_sysRead (e : ε) (g : σ → Option α) :
    (sysRead e g : Prog ω ε σ α).Quiet :=
  (quiet_read g).bind fun o ↦ by cases o <;> trivial

@[simp] theorem Quiet.onError {cleanup : Prog ω ε σ Unit} (hp : p.Quiet) (hc : cleanup.Quiet) :
    (p.onError cleanup).Quiet :=
  hp.attempt.bind fun r ↦ by
    cases r with
    | ok a => trivial
    | error e => exact hc.attempt.bind fun _ ↦ trivial

@[simp] theorem Quiet.forEach {body : β → Prog ω ε σ Unit} (h : ∀ x, (body x).Quiet)
    (l : List β) : (forEach l body).Quiet := by
  induction l with
  | nil => trivial
  | cons x xs ih => exact (h x).bind fun _ ↦ ih

@[simp] theorem Quiet.zoom {L : Lens τ σ} (hp : p.Quiet) : (zoom L p).Quiet := by
  induction p with
  | ret a => trivial
  | fail e => trivial
  | step ready ev f k ih => exact ⟨hp.1, fun s ↦ ih _ (hp.2 _)⟩
  | io ev f k err ih ihe => exact ⟨hp.1, fun s ↦ ih _ (hp.2.1 _), ihe hp.2.2⟩
  | choose k ih => exact fun n ↦ ih n (hp n)

/-! ### Running to the end -/

/-- `p` has a run to its end, and every run to its end returns a value in `Q`. -/
def Completes (p : Prog ω ε σ α) (s : σ) (Q : α → σ → Prop) : Prop :=
  (∃ r t, p.Returns s r t) ∧ ∀ r t, p.Returns s r t → ∃ a, r = .ok a ∧ Q a t

theorem completes_of_wp {Q : α → σ → Prop} (h : wp I p (fun r t ↦ match r with
      | .ok a => Q a t
      | .error _ => False) s) : p.Completes s Q := by
  refine ⟨exists_returns_of_wp h, fun r t hx ↦ ?_⟩
  have hq := hx.of_wp h
  cases r with
  | ok a => exact ⟨a, rfl, hq⟩
  | error e => exact hq.elim

end Prog
