import SqrzlEmulator.Prog.Pool
import SqrzlEmulator.Data.Table
import Mathlib.Data.Fintype.Basic
import Mathlib.Data.Finset.Card

/-!
# Mutexes by key

A registry hands out one mutex for each key, and holds **only a weak reference** to it: when the
last user of a mutex has dropped it, the mutex is gone, and the next user of the key gets a new one.
What makes this safe is that a user who waits for a mutex already keeps it alive, so that all users
of a key at any time share one mutex.

`withLock key body` runs a program under the mutex of a key. The main result is that this makes the
program atomic (`Run.linearized`): the results and the final state of every interleaving of programs
under one key are those of some order in which they run one after the other.
-/

namespace Prog

/-! ### The registry -/

/-- A mutex that is alive: how many references to it there are, and whether it is locked. -/
structure Mutex where
  strong : ℕ
  held : Bool
  deriving DecidableEq

/-- Mutexes by key. -/
structure Registry (κ : Type) [Ord κ] where
  /-- Weak references; a mutex that is referred to may be gone. -/
  weak : Table κ ℕ := ∅
  /-- The mutexes that are alive. -/
  cells : Table ℕ Mutex := ∅
  /-- The next mutex to be made. -/
  next : ℕ := 0

namespace Registry

variable {κ : Type} [Ord κ] [Std.TransOrd κ]

/-- Forget the references to mutexes that are gone. -/
def retain (r : Registry κ) : Registry κ :=
  { r with weak := r.weak.filter fun _ c ↦ r.cells[c]?.isSome }

/-- Get a reference to the mutex of a key, and make the mutex if there is none. -/
def acquire (key : κ) (r : Registry κ) : ℕ × Registry κ :=
  let r := r.retain
  match r.weak[key]? with
  | some c =>
    (c, { r with cells := r.cells.set c (r.cells[c]?.map fun m ↦ { m with strong := m.strong + 1 }) })
  | none =>
    (r.next, { weak := r.weak.set key (some r.next)
               cells := r.cells.set r.next (some { strong := 1, held := false })
               next := r.next + 1 })

/-- Whether a mutex is locked. -/
def held (c : ℕ) (r : Registry κ) : Bool := r.cells[c]?.any (·.held)

/-- Lock or unlock a mutex. -/
def setHeld (c : ℕ) (b : Bool) (r : Registry κ) : Registry κ :=
  { r with cells := r.cells.set c (r.cells[c]?.map fun m ↦ { m with held := b }) }

/-- Drop a reference. -/
def release (c : ℕ) (r : Registry κ) : Registry κ :=
  { r with cells := r.cells.set c (r.cells[c]?.bind fun m ↦
      if m.strong ≤ 1 then none else some { m with strong := m.strong - 1 }) }

end Registry

/-- Run a program under the mutex of a key. -/
def withLock {ω ε σ α κ : Type} [Ord κ] [Std.TransOrd κ] (R : Lens σ (Registry κ)) (key : κ)
    (body : Prog ω ε σ α) : Prog ω ε σ α := do
  let c ← act none (fun s ↦ R.set ((R.get s).acquire key).2 s) fun s ↦ ((R.get s).acquire key).1
  await (fun s ↦ !(R.get s).held c) fun s ↦ R.set ((R.get s).setHeld c true) s
  let r ← attempt body
  modify fun s ↦ R.set ((R.get s).setHeld c false) s
  modify fun s ↦ R.set ((R.get s).release c) s
  ofExcept r

/-- The result of a program may be changed under the mutex or after it has been dropped. -/
theorem withLock_bind_ret {ω ε σ α β κ : Type} [Ord κ] [Std.TransOrd κ] (R : Lens σ (Registry κ))
    (key : κ) (body : Prog ω ε σ α) (f : α → β) :
    (withLock R key body).bind (fun a ↦ ret (f a)) =
      withLock R key (body.bind fun a ↦ ret (f a)) := by
  have hret : ∀ r : Except ε α, (ofExcept r : Prog ω ε σ α).bind (fun a ↦ ret (f a)) =
      ofExcept (r.map f) := by
    rintro (e | a) <;> rfl
  simp only [withLock, bind_eq, bind_assoc, attempt_bind_ret, hret, ret_bind]

/-! ### One key -/

namespace Registry

variable {κ : Type} [Ord κ] [Std.TransOrd κ] {r : Registry κ} {key : κ} {c n : ℕ} {b : Bool}

/-- The mutex of the key is alive, with `n` references. -/
def Has (r : Registry κ) (key : κ) (c n : ℕ) (b : Bool) : Prop :=
  r.weak[key]? = some c ∧ r.cells[c]? = some ⟨n, b⟩

/-- The mutex of the key is gone. -/
def Lacks (r : Registry κ) (key : κ) : Prop := ∀ c, r.weak[key]? = some c → r.cells[c]? = none

theorem held_of_has (h : r.Has key c n b) : r.held c = b := by
  simp [held, h.2]

theorem Has.setHeld (h : r.Has key c n b) (b' : Bool) : (r.setHeld c b').Has key c n b' :=
  ⟨h.1, by simp [Registry.setHeld, h.2]⟩

theorem Has.release (h : r.Has key c (n + 2) b) : (r.release c).Has key c (n + 1) b :=
  ⟨h.1, by simp [Registry.release, h.2]⟩

theorem lacks_release (h : r.Has key c 1 b) : (r.release c).Lacks key := by
  intro c' hc'
  obtain rfl : c = c' := Option.some.inj (h.1.symm.trans hc')
  simp [release, h.2]

theorem acquire_of_retain (hw : r.retain.weak[key]? = none) :
    r.acquire key = (r.next, { weak := r.retain.weak.set key (some r.next)
                               cells := r.cells.set r.next (some { strong := 1, held := false })
                               next := r.next + 1 }) := by
  unfold acquire
  dsimp only
  rw [hw]
  rfl

variable [Std.LawfulEqOrd κ]

theorem weak_retain : r.retain.weak[key]? = r.weak[key]?.filter fun c ↦ r.cells[c]?.isSome :=
  Std.ExtTreeMap.getElem?_filter'

theorem acquire_of_has (h : r.Has key c n b) :
    (r.acquire key).1 = c ∧ (r.acquire key).2.Has key c (n + 1) b := by
  have hw : r.retain.weak[key]? = some c := by
    rw [weak_retain, h.1, Option.filter_some, h.2]
    rfl
  have hc : r.retain.cells[c]? = some ⟨n, b⟩ := h.2
  unfold acquire
  dsimp only
  rw [hw]
  refine ⟨rfl, hw, ?_⟩
  simp only [Table.getElem?_set, if_true, hc]
  rfl

variable [DecidableEq κ]

theorem acquire_of_lacks (h : r.Lacks key) :
    (r.acquire key).2.Has key (r.acquire key).1 1 false := by
  have hw : r.retain.weak[key]? = none := by
    rw [weak_retain]
    cases hk : r.weak[key]? with
    | none => rfl
    | some c => rw [Option.filter_some, h c hk]; rfl
  rw [acquire_of_retain hw]
  exact ⟨by simp, by simp⟩

omit [DecidableEq κ] in
/-- A registry that nobody uses, after one use of it. -/
theorem cells_after_use (key : κ) (h : r.cells = ∅) :
    (r.acquire key).2.held (r.acquire key).1 = false ∧
      ((((r.acquire key).2.setHeld (r.acquire key).1 true).setHeld (r.acquire key).1 false).release
        (r.acquire key).1).cells = ∅ := by
  have hw : r.retain.weak[key]? = none := by
    rw [weak_retain]
    cases r.weak[key]? with
    | none => rfl
    | some c => rw [Option.filter_some, h]; rfl
  rw [acquire_of_retain hw, h]
  refine ⟨by simp [held], ?_⟩
  simp only [setHeld, release, Table.getElem?_set, if_true, Option.map_some, Option.bind_some,
    Table.set_set]
  exact Table.set_eq_self _ (by simp)

end Registry

/-! ### One program at a time -/

section Sequential

variable {ω ε σ α κ : Type} [Ord κ] [Std.TransOrd κ] [Std.LawfulEqOrd κ] [DecidableEq κ]
  {R : Lens σ (Registry κ)} {key : κ} {body : Prog ω ε σ α} {s : σ} {I : σ → Prop}
  {Q : Except ε α → σ → Prop}

omit [DecidableEq κ] in
/-- A mutex that nobody else uses does nothing. -/
theorem wp_withLock (hs : R.set (R.get s) s = s) (hfree : (R.get s).cells = ∅)
    (hI : ∀ r, I (R.set r s))
    (hbody : ∀ r, wp I body (fun res t ↦ R.get t = r ∧ (∀ r', I (R.set r' t)) ∧
      ∀ r', r'.cells = ∅ → Q res (R.set r' t)) (R.set r s)) :
    wp I (withLock R key body) Q s := by
  have hIs : I s := hs ▸ hI _
  obtain ⟨hheld, hafter⟩ := Registry.cells_after_use key hfree
  simp only [withLock, bind_eq, wp_bind, wp_act, wp_await, wp_attempt, wp_modify, Lens.get_set,
    Lens.set_set, hheld]
  refine ⟨hIs, hI _, hI _, rfl, hI _, wp_mono (hbody _) (fun _ ↦ id) ?_⟩
  rintro res t ht ⟨hr, hIt, hQ⟩
  have hend : ∀ r', r'.cells = ∅ → wp I (ofExcept res : Prog ω ε σ α) Q (R.set r' t) := by
    intro r' hr'
    cases res with
    | ok a => exact ⟨hIt r', hQ r' hr'⟩
    | error e => exact ⟨hIt r', hQ r' hr'⟩
  refine ⟨ht, hIt _, hIt _, hIt _, hend _ ?_⟩
  rw [hr]
  exact hafter

end Sequential

/-! ### Programs under one key -/

section Linear

variable {ω ε σ τ α κ ι : Type} [Ord κ] [Std.TransOrd κ]

/-- Two parts of a state that do not overlap. -/
structure Apart {ρ : Type} (R : Lens σ ρ) (D : Lens σ τ) : Prop where
  get_left : ∀ x s, R.get (D.set x s) = R.get s
  get_right : ∀ r s, D.get (R.set r s) = D.get s

/-- Programs run one after the other, with their results. -/
inductive InOrder (body : ι → Prog ω ε τ α) (x₀ : τ) : List (ι × Except ε α) → τ → Prop
  | nil : InOrder body x₀ [] x₀
  | snoc {l : List (ι × Except ε α)} {x y : τ} {i : ι} {r : Except ε α} (h : InOrder body x₀ l x)
      (hret : (body i).Returns x r y) : InOrder body x₀ (l ++ [(i, r)]) y

theorem InOrder.split {body : ι → Prog ω ε τ α} {x₀ x : τ} {l₁ l₂ : List (ι × Except ε α)} {i : ι}
    {r : Except ε α} (h : InOrder body x₀ (l₁ ++ (i, r) :: l₂) x) :
    ∃ y z, InOrder body x₀ l₁ y ∧ (body i).Returns y r z ∧ InOrder body z l₂ x := by
  induction l₂ using List.reverseRecOn generalizing x with
  | nil =>
    generalize hl : l₁ ++ [(i, r)] = l at h
    cases h with
    | nil => exact absurd hl (by simp)
    | snoc h hret =>
      obtain ⟨rfl, heq⟩ := List.append_inj' hl rfl
      cases heq
      exact ⟨_, _, h, hret, .nil⟩
  | append_singleton l₂ last ih =>
    generalize hl : l₁ ++ (i, r) :: (l₂ ++ [last]) = l at h
    cases h with
    | nil => exact absurd hl (by simp)
    | snoc h hret =>
      rw [← List.cons_append, ← List.append_assoc] at hl
      obtain ⟨rfl, heq⟩ := List.append_inj' hl rfl
      cases heq
      obtain ⟨y, z, hy, hz, hx⟩ := ih h
      exact ⟨y, z, hy, hz, hx.snoc hret⟩

/-- **What every program preserves, running them in any order preserves.** -/
theorem InOrder.invariant {body : ι → Prog ω ε τ α} {x₀ x : τ} {l : List (ι × Except ε α)}
    {J : τ → Prop} (h : InOrder body x₀ l x) (h₀ : J x₀)
    (hstep : ∀ i r y z, (i, r) ∈ l → J y → (body i).Returns y r z → J z) : J x := by
  induction h with
  | nil => exact h₀
  | snoc h hret ih =>
    refine hstep _ _ _ _ (by simp) (ih fun i r y z hmem ↦ ?_) hret
    exact hstep i r y z (List.mem_append_left _ hmem)

/-- Where a program under a mutex is. -/
inductive Phase (ω ε τ α : Type) where
  | idle
  | waiting (c : ℕ)
  | running (c : ℕ) (q : Prog ω ε τ α)
  | unlocked (c : ℕ) (r : Except ε α)
  | done (r : Except ε α)

namespace Phase

variable (R : Lens σ (Registry κ)) (D : Lens σ τ) (key : κ) (body : Prog ω ε τ α)

/-- What remains to be done after the release of the mutex. -/
def leave (c : ℕ) (r : Except ε α) : Prog ω ε σ α :=
  (modify fun s ↦ R.set ((R.get s).release c) s).bind fun _ ↦ ofExcept r

/-- What remains to be done while the mutex is locked. -/
def inside (c : ℕ) (q : Prog ω ε τ α) : Prog ω ε σ α :=
  (zoom D q).attempt.bind fun r ↦
    (modify fun s ↦ R.set ((R.get s).setHeld c false) s).bind fun _ ↦ leave R c r

/-- What remains to be done. -/
def prog : Phase ω ε τ α → Prog ω ε σ α
  | idle => withLock R key (zoom D body)
  | waiting c =>
    (await (fun s ↦ !(R.get s).held c) fun s ↦ R.set ((R.get s).setHeld c true) s).bind fun _ ↦
      inside R D c body
  | running c q => inside R D c q
  | unlocked c r => leave R c r
  | done r => ofExcept r

/-- The mutex that the program refers to. -/
def ref : Phase ω ε τ α → Option ℕ
  | idle => none
  | waiting c => some c
  | running c _ => some c
  | unlocked c _ => some c
  | done _ => none

/-- Whether the program has locked the mutex. -/
def isRunning : Phase ω ε τ α → Bool
  | running _ _ => true
  | _ => false

/-- The result, once it is there and the mutex is unlocked. -/
def result : Phase ω ε τ α → Option (Except ε α)
  | unlocked _ r => some r
  | done r => some r
  | _ => none

/-- A program that has returned is done. -/
theorem eq_done {ph : Phase ω ε τ α} {r : Except ε α} (h : ph.prog R D key body = ofExcept r) :
    ph = done r := by
  cases ph with
  | idle => cases r <;> cases h
  | waiting c => cases r <;> cases h
  | running c q => cases q <;> cases r <;> cases h
  | unlocked c r' => cases r <;> cases h
  | done r' => cases r <;> cases r' <;> cases h <;> rfl

/-- The step that a program takes, and the phase that it enters. -/
theorem step_cases {ph : Phase ω ε τ α} {s t : σ} {es : List ω} {p : Prog ω ε σ α}
    (h : (ph.prog R D key body).Step s es p t) :
    (ph = idle ∧ p = (waiting ((R.get s).acquire key).1).prog R D key body ∧
      t = R.set ((R.get s).acquire key).2 s) ∨
    (∃ c, ph = waiting c ∧ p = (running c body).prog R D key body ∧ (R.get s).held c = false ∧
      t = R.set ((R.get s).setHeld c true) s) ∨
    (∃ c q q' x, ph = running c q ∧ p = (running c q').prog R D key body ∧
      q.Step (D.get s) es q' x ∧ (t = D.set x s ∨ t = s ∧ x = D.get s)) ∨
    (∃ c r, ph = running c (ofExcept r) ∧ p = (unlocked c r).prog R D key body ∧
      t = R.set ((R.get s).setHeld c false) s) ∨
    ∃ c r, ph = unlocked c r ∧ p = (done r).prog R D key body ∧
      t = R.set ((R.get s).release c) s := by
  cases ph with
  | idle =>
    cases h with
    | step _ => exact .inl ⟨rfl, rfl, rfl⟩
  | waiting c =>
    cases h with
    | step hready =>
      have hheld : (R.get s).held c = false := by simpa using hready
      exact .inr (.inl ⟨c, rfl, rfl, hheld, rfl⟩)
  | running c q =>
    refine .inr (.inr ?_)
    obtain ⟨p', hp', rfl⟩ | ⟨r, hr, hstep⟩ := Step.of_bind h
    · obtain ⟨p'', hp'', rfl⟩ := Step.of_attempt hp'
      obtain ⟨q', x, hq, rfl, ht⟩ := Step.of_zoom hp''
      exact .inl ⟨c, q, q', x, rfl, rfl, hq, ht⟩
    · have hq : q = ofExcept r := by
        cases q with
        | ret a => cases hr; rfl
        | fail e => cases hr; rfl
        | step => cases hr
        | io => cases hr
        | choose => cases hr
      subst hq
      cases hstep with
      | step _ => exact .inr (.inl ⟨c, r, rfl, rfl, rfl⟩)
  | unlocked c r =>
    cases h with
    | step _ => exact .inr (.inr (.inr (.inr ⟨c, r, rfl, rfl, rfl⟩)))
  | done r => cases r <;> cases h

end Phase

section Users

variable [Fintype ι] [DecidableEq ι] {ph : ι → Phase ω ε τ α} {r : Registry κ} {key : κ} {i : ι}
  {new : Phase ω ε τ α}

/-- The programs that refer to the mutex. -/
def users (ph : ι → Phase ω ε τ α) : Finset ι := Finset.univ.filter fun i ↦ (ph i).ref.isSome

omit [DecidableEq ι] in
theorem mem_users : i ∈ users ph ↔ (ph i).ref.isSome := by
  simp [users]

theorem users_update_some (h : new.ref.isSome) :
    users (Function.update ph i new) = insert i (users ph) := by
  ext j
  rw [Finset.mem_insert, mem_users, mem_users]
  by_cases hj : j = i
  · subst hj
    rw [Function.update_self]
    exact ⟨fun _ ↦ .inl rfl, fun _ ↦ h⟩
  · rw [Function.update_of_ne hj]
    exact ⟨.inr, fun h ↦ h.resolve_left hj⟩

theorem users_update_none (h : new.ref = none) :
    users (Function.update ph i new) = (users ph).erase i := by
  ext j
  rw [Finset.mem_erase, mem_users, mem_users]
  by_cases hj : j = i
  · subst hj
    rw [Function.update_self, h]
    exact ⟨fun h ↦ absurd h (by simp), fun h ↦ absurd rfl h.1⟩
  · rw [Function.update_of_ne hj]
    exact ⟨fun h ↦ ⟨hj, h⟩, fun h ↦ h.2⟩

/-- **All users share one mutex**, which counts them, and at most one of them is running. -/
structure Shared (key : κ) (r : Registry κ) (ph : ι → Phase ω ε τ α) : Prop where
  mutex : (users ph = ∅ ∧ r.Lacks key) ∨ ∃ c b, r.Has key c (users ph).card b ∧
    (∀ i c', (ph i).ref = some c' → c' = c) ∧ (b = false → ∀ i, (ph i).isRunning = false)
  single : ∀ i j, (ph i).isRunning = true → (ph j).isRunning = true → i = j

theorem Phase.ref_of_isRunning {ph : Phase ω ε τ α} (h : ph.isRunning = true) : ph.ref.isSome := by
  cases ph with
  | running c q => rfl
  | idle => cases h
  | waiting c => cases h
  | unlocked c r => cases h
  | done r => cases h

omit [Fintype ι] in
theorem forall_update {P : Phase ω ε τ α → Prop} (hnew : P new) (h : ∀ j, j ≠ i → P (ph j)) (j : ι) :
    P (Function.update ph i new j) := by
  by_cases hj : j = i
  · subst hj
    rwa [Function.update_self]
  · rw [Function.update_of_ne hj]
    exact h j hj

/-- A user that stays one, and does not lock the mutex. -/
theorem Shared.single_update (h : Shared key r ph)
    (hnew : new.isRunning = true → (ph i).isRunning = true ∨ ∀ j, (ph j).isRunning = false) :
    ∀ j k, (Function.update ph i new j).isRunning = true →
      (Function.update ph i new k).isRunning = true → j = k := by
  have hone : ∀ j, j ≠ i → new.isRunning = true → (ph j).isRunning = false := by
    intro j hj hrun
    by_contra hjrun
    rw [Bool.not_eq_false] at hjrun
    rcases hnew hrun with hi | hnone
    · exact hj (h.single j i hjrun hi)
    · exact absurd hjrun (by rw [hnone j]; decide)
  intro j k hj hk
  by_cases hji : j = i <;> by_cases hki : k = i
  · rw [hji, hki]
  · subst hji
    rw [Function.update_self] at hj
    rw [Function.update_of_ne hki, hone k hki hj] at hk
    cases hk
  · subst hki
    rw [Function.update_self] at hk
    rw [Function.update_of_ne hji, hone j hji hk] at hj
    cases hj
  · rw [Function.update_of_ne hji] at hj
    rw [Function.update_of_ne hki] at hk
    exact h.single j k hj hk

omit [DecidableEq ι] in
/-- A user has the mutex in hand. -/
theorem Shared.has (h : Shared key r ph) {c : ℕ} (hi : (ph i).ref = some c) :
    ∃ b, r.Has key c (users ph).card b ∧ (∀ i c', (ph i).ref = some c' → c' = c) ∧
      (b = false → ∀ i, (ph i).isRunning = false) := by
  rcases h.mutex with ⟨hnone, -⟩ | ⟨c', b, hhas, href, hrun⟩
  · have hmem : i ∈ users ph := mem_users.2 (by rw [hi]; rfl)
    rw [hnone] at hmem
    exact absurd hmem (Finset.notMem_empty i)
  · obtain rfl : c = c' := href i c hi
    exact ⟨b, hhas, href, hrun⟩

theorem Shared.card_of_ref (hi : (ph i).ref.isSome) (hnew : new.ref.isSome) :
    (users (Function.update ph i new)).card = (users ph).card := by
  rw [users_update_some hnew, Finset.insert_eq_self.2 (mem_users.2 hi)]

/-- A user goes on without touching the mutex. -/
theorem Shared.move (h : Shared key r ph) {c : ℕ} (hi : (ph i).ref = some c)
    (hnew : new.ref = some c) (hrun : new.isRunning = (ph i).isRunning) :
    Shared key r (Function.update ph i new) := by
  obtain ⟨b, hhas, href, hb⟩ := h.has hi
  refine ⟨.inr ⟨c, b, ?_, ?_, fun hb' ↦ ?_⟩, h.single_update fun hr ↦ .inl (hrun ▸ hr)⟩
  · rwa [Shared.card_of_ref (by rw [hi]; rfl) (by rw [hnew]; rfl)]
  · refine forall_update (P := fun x ↦ ∀ c', x.ref = some c' → c' = c) ?_ fun j _ ↦ href j
    intro c' hc'
    exact Option.some.inj (hc'.symm.trans hnew)
  · refine forall_update (P := fun x ↦ x.isRunning = false) ?_ fun j _ ↦ hb hb' j
    rw [hrun]
    exact hb hb' i

/-- A user locks the mutex, which nobody has locked. -/
theorem Shared.lock (h : Shared key r ph) (new : Phase ω ε τ α) {c : ℕ} (hi : (ph i).ref = some c)
    (hheld : r.held c = false) (hnew : new.ref = some c) :
    (∀ j, (ph j).isRunning = false) ∧
      Shared key (r.setHeld c true) (Function.update ph i new) := by
  obtain ⟨b, hhas, href, hb⟩ := h.has hi
  obtain rfl : b = false := (Registry.held_of_has hhas).symm.trans hheld
  refine ⟨hb rfl, .inr ⟨c, true, ?_, ?_, nofun⟩, h.single_update fun _ ↦ .inr (hb rfl)⟩
  · rw [Shared.card_of_ref (by rw [hi]; rfl) (by rw [hnew]; rfl)]
    exact hhas.setHeld true
  · refine forall_update (P := fun x ↦ ∀ c', x.ref = some c' → c' = c) ?_ fun j _ ↦ href j
    intro c' hc'
    exact Option.some.inj (hc'.symm.trans hnew)

/-- The running user unlocks the mutex. -/
theorem Shared.unlock (h : Shared key r ph) (new : Phase ω ε τ α) {c : ℕ} (hi : (ph i).ref = some c)
    (hrun : (ph i).isRunning = true) (hnew : new.ref = some c) (hstop : new.isRunning = false) :
    (∀ j, (Function.update ph i new j).isRunning = false) ∧
      Shared key (r.setHeld c false) (Function.update ph i new) := by
  obtain ⟨b, hhas, href, hb⟩ := h.has hi
  have hall : ∀ j, (Function.update ph i new j).isRunning = false := by
    refine forall_update (P := fun x ↦ x.isRunning = false) hstop fun j hj ↦ ?_
    by_contra hjrun
    exact hj (h.single j i (by simpa using hjrun) hrun)
  refine ⟨hall, .inr ⟨c, false, ?_, ?_, fun _ ↦ hall⟩, fun j k hj ↦ ?_⟩
  · rw [Shared.card_of_ref (by rw [hi]; rfl) (by rw [hnew]; rfl)]
    exact hhas.setHeld false
  · refine forall_update (P := fun x ↦ ∀ c', x.ref = some c' → c' = c) ?_ fun j _ ↦ href j
    intro c' hc'
    exact Option.some.inj (hc'.symm.trans hnew)
  · rw [hall j] at hj
    cases hj

/-- A user drops the mutex. -/
theorem Shared.drop (h : Shared key r ph) {c : ℕ} (hi : (ph i).ref = some c)
    (hnew : new.ref = none) (hstop : new.isRunning = false) :
    Shared key (r.release c) (Function.update ph i new) := by
  obtain ⟨b, hhas, href, hb⟩ := h.has hi
  have hmem : i ∈ users ph := mem_users.2 (by rw [hi]; rfl)
  have hcard : (users ph).card = ((users ph).erase i).card + 1 := by
    rw [Finset.card_erase_of_mem hmem]
    have := Finset.card_pos.2 ⟨i, hmem⟩
    omega
  refine ⟨?_, h.single_update fun hr ↦ absurd hr (by rw [hstop]; decide)⟩
  rw [users_update_none hnew]
  rw [hcard] at hhas
  rcases Nat.eq_zero_or_pos ((users ph).erase i).card with hzero | hpos
  · rw [hzero] at hhas
    exact .inl ⟨Finset.card_eq_zero.1 hzero, Registry.lacks_release hhas⟩
  · obtain ⟨m, hm⟩ : ∃ m, ((users ph).erase i).card = m + 1 := ⟨_, (Nat.sub_add_cancel hpos).symm⟩
    rw [hm] at hhas ⊢
    refine .inr ⟨c, b, hhas.release, ?_, fun hb' ↦ ?_⟩
    · refine forall_update (P := fun x ↦ ∀ c', x.ref = some c' → c' = c) ?_ fun j _ ↦ href j
      intro c' hc'
      rw [hnew] at hc'
      cases hc'
    · exact forall_update (P := fun x ↦ x.isRunning = false) hstop fun j _ ↦ hb hb' j

variable [Std.LawfulEqOrd κ] [DecidableEq κ]

/-- A program becomes a user. -/
theorem Shared.acquire (h : Shared key r ph) (hi : (ph i).ref = none)
    (hnew : new.ref = some (r.acquire key).1) (hwait : new.isRunning = false) :
    Shared key (r.acquire key).2 (Function.update ph i new) := by
  have hnot : i ∉ users ph := fun hmem ↦ by
    rw [mem_users, hi] at hmem
    cases hmem
  have hcard : (users (Function.update ph i new)).card = (users ph).card + 1 := by
    rw [users_update_some (by rw [hnew]; rfl), Finset.card_insert_of_notMem hnot]
  refine ⟨.inr ?_, h.single_update fun hr ↦ absurd hr (by rw [hwait]; decide)⟩
  rw [hcard]
  rcases h.mutex with ⟨hnone, hlacks⟩ | ⟨c, b, hhas, href, hb⟩
  · have hrefs : ∀ j, (ph j).ref = none := by
      intro j
      have : j ∉ users ph := by rw [hnone]; exact Finset.notMem_empty j
      rwa [mem_users, Option.not_isSome_iff_eq_none] at this
    refine ⟨(r.acquire key).1, false, ?_, ?_, fun _ ↦ ?_⟩
    · rw [hnone]
      exact Registry.acquire_of_lacks hlacks
    · refine forall_update (P := fun x ↦ ∀ c', x.ref = some c' → c' = _) ?_ fun j _ c' hc' ↦ ?_
      · exact fun c' hc' ↦ Option.some.inj (hc'.symm.trans hnew)
      · rw [hrefs j] at hc'
        cases hc'
    · refine forall_update (P := fun x ↦ x.isRunning = false) hwait fun j _ ↦ ?_
      by_contra hrun
      have := Phase.ref_of_isRunning (by simpa using hrun)
      rw [hrefs j] at this
      cases this
  · obtain ⟨hc, hhas'⟩ := Registry.acquire_of_has hhas
    refine ⟨c, b, hhas', ?_, fun hb' ↦ ?_⟩
    · refine forall_update (P := fun x ↦ ∀ c', x.ref = some c' → c' = c) ?_ fun j _ ↦ href j
      intro c' hc'
      rw [← hc]
      exact Option.some.inj (hc'.symm.trans hnew)
    · exact forall_update (P := fun x ↦ x.isRunning = false) hwait fun j _ ↦ hb hb' j

end Users

/-! ### The order of a run -/

section Order

variable [Fintype ι] [DecidableEq ι] {R : Lens σ (Registry κ)} {D : Lens σ τ} {key : κ}
  {body : ι → Prog ω ε τ α} {x₀ x : τ} {ph : ι → Phase ω ε τ α}
  {order : List (ι × Except ε α)} {T : ι → Prog ω ε σ α} {s t : σ} {i : ι}

/-- How far a run has come: its programs have run **one after the other in `order`**, and then
possibly a part of one more. -/
structure Linear (R : Lens σ (Registry κ)) (D : Lens σ τ) (key : κ) (body : ι → Prog ω ε τ α)
    (x₀ : τ) (T : ι → Prog ω ε σ α) (s : σ) (ph : ι → Phase ω ε τ α)
    (order : List (ι × Except ε α)) (x : τ) : Prop where
  prog : ∀ i, T i = (ph i).prog R D key (body i)
  shared : Shared key (R.get s) ph
  inOrder : InOrder body x₀ order x
  results : ∀ i r, (i, r) ∈ order ↔ (ph i).result = some r
  nodup : (order.map Prod.fst).Nodup
  resting : (∀ i, (ph i).isRunning = false) → D.get s = x
  running : ∀ i c q, ph i = .running c q → (body i).Steps x q (D.get s)

/-- Moving one program to a phase in which it has no result yet. -/
theorem Linear.results_update (h : Linear R D key body x₀ T s ph order x) {new : Phase ω ε τ α}
    (hnew : new.result = (ph i).result) (j : ι) (r : Except ε α) :
    (j, r) ∈ order ↔ (Function.update ph i new j).result = some r := by
  rw [h.results j r]
  by_cases hj : j = i
  · subst hj
    rw [Function.update_self, hnew]
  · rw [Function.update_of_ne hj]

theorem Linear.prog_update (h : Linear R D key body x₀ T s ph order x) (new : Phase ω ε τ α)
    (j : ι) : Function.update T i (new.prog R D key (body i)) j =
      (Function.update ph i new j).prog R D key (body j) := by
  by_cases hj : j = i
  · subst hj
    rw [Function.update_self, Function.update_self]
  · rw [Function.update_of_ne hj, Function.update_of_ne hj]
    exact h.prog j

omit [Fintype ι] in
theorem running_update {new : Phase ω ε τ α} {P : ι → Prog ω ε τ α → Prop}
    (hnew : ∀ c q, new = .running c q → P i q)
    (h : ∀ j c q, j ≠ i → ph j = .running c q → P j q) (j : ι) (c : ℕ) (q : Prog ω ε τ α)
    (hj : Function.update ph i new j = .running c q) : P j q := by
  by_cases hji : j = i
  · subst hji
    rw [Function.update_self] at hj
    exact hnew c q hj
  · rw [Function.update_of_ne hji] at hj
    exact h j c q hji hj

variable [Std.LawfulEqOrd κ] [DecidableEq κ]

/-- **One step of the pool extends the order by at most one program**, at the step that unlocks the
mutex. -/
theorem Linear.step (hA : Apart R D) (h : Linear R D key body x₀ T s ph order x) {es : List ω}
    {p : Prog ω ε σ α} (hstep : (T i).Step s es p t) :
    ∃ ph' order' x', Linear R D key body x₀ (Function.update T i p) t ph' order' x' := by
  rw [h.prog i] at hstep
  obtain ⟨hi, rfl, rfl⟩ | ⟨c, hi, rfl, hheld, rfl⟩ | ⟨c, q, q', y, hi, rfl, hq, ht⟩ |
    ⟨c, r, hi, rfl, rfl⟩ | ⟨c, r, hi, rfl, rfl⟩ := Phase.step_cases R D key (body i) hstep
  · refine ⟨_, order, x, h.prog_update _, ?_, h.inOrder, h.results_update (by rw [hi]; rfl), h.nodup,
      fun hrest ↦ ?_, running_update nofun fun j c q _ hj ↦ ?_⟩
    · rw [Lens.get_set]
      exact h.shared.acquire (by rw [hi]; rfl) rfl rfl
    · rw [hA.get_right]
      refine h.resting fun j ↦ ?_
      by_cases hj : j = i
      · rw [hj, hi]; rfl
      · have := hrest j
        rwa [Function.update_of_ne hj] at this
    · rw [hA.get_right]
      exact h.running j c q hj
  · obtain ⟨hfree, hshared⟩ := h.shared.lock (.running c (body i)) (i := i)
      (by rw [hi]; rfl) hheld rfl
    refine ⟨_, order, x, h.prog_update _, ?_, h.inOrder, h.results_update (by rw [hi]; rfl), h.nodup,
      fun hrest ↦ ?_, running_update ?_ fun j c q _ hj ↦ ?_⟩
    · rw [Lens.get_set]
      exact hshared
    · have := hrest i
      rw [Function.update_self] at this
      cases this
    · rintro _ _ ⟨⟩
      rw [hA.get_right, h.resting hfree]
      exact .refl _ _
    · have := hfree j
      rw [hj] at this
      cases this
  · have hget : R.get t = R.get s ∧ D.get t = y := by
      rcases ht with rfl | ⟨rfl, rfl⟩
      · exact ⟨hA.get_left _ _, D.get_set _ _⟩
      · exact ⟨rfl, rfl⟩
    refine ⟨_, order, x, h.prog_update _, ?_, h.inOrder, h.results_update (by rw [hi]; rfl), h.nodup,
      fun hrest ↦ ?_, running_update ?_ fun j c' q'' hj hrun ↦ ?_⟩
    · rw [hget.1]
      exact h.shared.move (by rw [hi]; rfl) rfl (by rw [hi]; rfl)
    · have := hrest i
      rw [Function.update_self] at this
      cases this
    · rintro _ _ ⟨⟩
      rw [hget.2]
      exact (h.running i c q hi).tail hq
    · exact absurd (h.shared.single j i (by rw [hrun]; rfl) (by rw [hi]; rfl)) hj
  · obtain ⟨hfree, hshared⟩ := h.shared.unlock (.unlocked c r) (i := i) (by rw [hi]; rfl)
      (by rw [hi]; rfl) rfl rfl
    have hnot : ∀ r', (i, r') ∉ order := by
      intro r' hmem
      rw [h.results, hi] at hmem
      cases hmem
    refine ⟨_, order ++ [(i, r)], D.get s, h.prog_update _, ?_, ?_, fun j r' ↦ ?_, ?_, fun _ ↦ ?_,
      fun j c q hj ↦ ?_⟩
    · rw [Lens.get_set]
      exact hshared
    · refine h.inOrder.snoc ((h.running i c _ hi).exec ?_)
      cases r with
      | ok a => exact ⟨[], .ret a _⟩
      | error e => exact ⟨[], .fail e _⟩
    · rw [List.mem_append, List.mem_singleton]
      by_cases hj : j = i
      · subst hj
        rw [Function.update_self]
        constructor
        · rintro (hmem | heq)
          · exact absurd hmem (hnot r')
          · cases heq
            rfl
        · rintro ⟨⟩
          exact .inr rfl
      · rw [Function.update_of_ne hj, ← h.results]
        exact ⟨fun hmem ↦ hmem.resolve_right fun heq ↦ hj (congrArg Prod.fst heq), .inl⟩
    · rw [List.map_append, List.nodup_append]
      refine ⟨h.nodup, List.nodup_singleton _, ?_⟩
      rintro a ha b hb rfl
      obtain ⟨⟨j, r'⟩, hmem, rfl⟩ := List.mem_map.1 ha
      obtain rfl : j = i := List.mem_singleton.1 hb
      exact hnot r' hmem
    · exact hA.get_right _ _
    · have := hfree j
      rw [hj] at this
      cases this
  · refine ⟨_, order, x, h.prog_update _, ?_, h.inOrder, h.results_update (by rw [hi]; rfl), h.nodup,
      fun hrest ↦ ?_, running_update nofun fun j c q _ hj ↦ ?_⟩
    · rw [Lens.get_set]
      exact h.shared.drop (by rw [hi]; rfl) rfl rfl
    · rw [hA.get_right]
      refine h.resting fun j ↦ ?_
      by_cases hj : j = i
      · rw [hj, hi]; rfl
      · have := hrest j
        rwa [Function.update_of_ne hj] at this
    · rw [hA.get_right]
      exact h.running j c q hj

omit [DecidableEq ι] [Ord κ] [Std.TransOrd κ] [Std.LawfulEqOrd κ] [DecidableEq κ] in
theorem users_idle : users (fun _ : ι ↦ (Phase.idle : Phase ω ε τ α)) = ∅ := by
  rw [Finset.eq_empty_iff_forall_notMem]
  intro i hi
  rw [mem_users] at hi
  cases hi

/-- **Programs under one mutex run one after the other.** When all of them have returned, there is
an order of them in which they, run alone and in this order, return the same results and reach the
same state. -/
theorem Run.linearized (hA : Apart R D) {tr : List (ι × ω)} {s₀ : σ} {res : ι → Except ε α}
    (hfree : (R.get s₀).Lacks key)
    (h : Run (fun i ↦ withLock R key (zoom D (body i))) s₀ tr (fun i ↦ ofExcept (res i)) s) :
    ∃ order : List ι, order.Nodup ∧ (∀ i, i ∈ order) ∧
      InOrder body (D.get s₀) (order.map fun i ↦ (i, res i)) (D.get s) := by
  have hinv : ∀ {tr T s}, Run (fun i ↦ withLock R key (zoom D (body i))) s₀ tr T s →
      ∃ ph order x, Linear R D key body (D.get s₀) T s ph order x := by
    intro tr T s h
    induction h with
    | refl =>
      refine ⟨fun _ ↦ .idle, [], D.get s₀, fun _ ↦ rfl, ⟨.inl ⟨users_idle, hfree⟩, nofun⟩, .nil,
        fun i r ↦ ?_, List.nodup_nil, fun _ ↦ rfl, nofun⟩
      exact ⟨nofun, nofun⟩
    | step _ i hstep ih =>
      obtain ⟨ph, order, x, hlin⟩ := ih
      exact hlin.step hA hstep
  obtain ⟨ph, order, x, hlin⟩ := hinv h
  have hdone : ∀ i, ph i = .done (res i) := fun i ↦
    Phase.eq_done R D key (body i) (hlin.prog i).symm
  have hres : ∀ y ∈ order, y = (y.1, res y.1) := by
    rintro ⟨i, r⟩ hmem
    rw [hlin.results, hdone i] at hmem
    cases hmem
    rfl
  refine ⟨order.map Prod.fst, hlin.nodup, fun i ↦ ?_, ?_⟩
  · exact List.mem_map.2 ⟨(i, res i), (hlin.results i _).2 (by rw [hdone i]; rfl), rfl⟩
  · have hmap : (order.map Prod.fst).map (fun i ↦ (i, res i)) = order := by
      rw [List.map_map]
      exact (List.map_congr_left fun y hy ↦ (hres y hy).symm).trans (List.map_id order)
    rw [hmap, hlin.resting fun i ↦ by rw [hdone i]; rfl]
    exact hlin.inOrder

end Order

end Linear

end Prog
