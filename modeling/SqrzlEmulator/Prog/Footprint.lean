import SqrzlEmulator.Data.Disk

/-!
# What the runs of a program can do

`p.Moves F` says that every run of `p`, from any state to wherever it is stopped, is related by `F`.
For a reflexive and transitive `F` **it composes**: a sequence, a loop or a guarded program moves by
`F` when its parts do. The parts are calls, or short programs that have to be looked at as one, for
which `Moves.of_wp` takes a proof with the rules for single steps.

`Disk.Within P` is the relation of this kind that is used for disks: a node is as it was, or it is
one that `P` allows at its path. `P` is the **footprint** of a program.
-/

namespace Prog

variable {ω ε σ α β γ : Type} {F : σ → σ → Prop} {p : Prog ω ε σ α}

/-- Every run of the program is related by `F`. -/
def Moves (F : σ → σ → Prop) (p : Prog ω ε σ α) : Prop :=
  ∀ ⦃s t : σ⦄ ⦃evs : List ω⦄ ⦃r : Option (Except ε α)⦄, p.Exec s evs t r → F s t

/-- A program that is looked at as one. -/
theorem Moves.of_wp (h : ∀ s, wp (F s) p (fun _ t ↦ F s t) s) : p.Moves F :=
  fun _ _ _ _ hx ↦ (hx.of_wp (h _)).1

/-- A composition that has returned a value, has run its two programs to values. -/
theorem Exec.ok_of_bind {q : Prog ω ε σ β} {g : β → Prog ω ε σ α} {s t : σ} {evs : List ω} {a : α}
    (hx : (q.bind g).Exec s evs t (some (.ok a))) :
    ∃ b u evs₁ evs₂, q.Exec s evs₁ u (some (.ok b)) ∧ (g b).Exec u evs₂ t (some (.ok a)) := by
  obtain ⟨-, hr⟩ | ⟨e, -, hr⟩ | ⟨b, u, evs₁, evs₂, hq, hg, -⟩ := hx.of_bind
  · cases hr
  · cases hr
  · exact ⟨b, u, evs₁, evs₂, hq, hg⟩

theorem Exec.eq_of_ret {s t : σ} {evs : List ω} {a b : α}
    (hx : (Prog.ret a : Prog ω ε σ α).Exec s evs t (some (.ok b))) : b = a := by
  cases hx
  rfl

/-- What every round keeps holds of what has been returned. -/
theorem Exec.of_foldEach {J : List β → γ → Prop} {body : γ → β → Prog ω ε σ γ}
    (hbody : ∀ x l acc s t evs acc', J (x :: l) acc → (body acc x).Exec s evs t (some (.ok acc')) →
      J l acc')
    {l : List β} {acc acc' : γ} {s t : σ} {evs : List ω} (h : J l acc)
    (hx : (foldEach l acc body).Exec s evs t (some (.ok acc'))) : J [] acc' := by
  induction l generalizing acc s evs with
  | nil =>
    obtain rfl := hx.eq_of_ret
    exact h
  | cons x l ih =>
    obtain ⟨acc₁, u, evs₁, evs₂, hfirst, hrest⟩ := Exec.ok_of_bind hx
    exact ih (hbody x l acc s u evs₁ acc₁ h hfirst) hrest

/-! ### Composition -/

theorem Moves.bind {g : α → Prog ω ε σ β} (htrans : ∀ s t u, F s t → F t u → F s u)
    (hp : p.Moves F) (hg : ∀ a, (g a).Moves F) : (p.bind g).Moves F := by
  intro s t evs r hx
  obtain ⟨hx, -⟩ | ⟨e, hx, -⟩ | ⟨a, u, evs₁, evs₂, hx, hy, -⟩ := hx.of_bind
  · exact hp hx
  · exact hp hx
  · exact htrans s u t (hp hx) (hg a hy)

end Prog

namespace Disk

variable {κ ω ε α : Type} {P Q : DiskPath → Option (Node κ) → Prop} {d t u : Disk κ} {e : ε}

/-! ### Footprints -/

/-- Every node of `t` is as in `d`, or one that `P` allows at its path. -/
def Within (P : DiskPath → Option (Node κ) → Prop) (d t : Disk κ) : Prop :=
  ∀ q, t[q]? = d[q]? ∨ P q t[q]?

theorem Within.refl (d : Disk κ) : Within P d d := fun _ ↦ .inl rfl

theorem Within.trans (h : Within P d t) (h' : Within P t u) : Within P d u := fun q ↦ by
  rcases h' q with heq | hq
  · rcases h q with heq' | hq'
    · exact .inl (heq.trans heq')
    · exact .inr (heq ▸ hq')
  · exact .inr hq

/-- One more change. -/
theorem Within.set (h : Within P d t) {q : DiskPath} {n : Option (Node κ)} (hq : P q n) :
    Within P d (Table.set t q n) := fun q' ↦ by
  rw [Table.getElem?_set]
  split
  · next heq => exact .inr (heq ▸ hq)
  · exact h q'

theorem within_trans (d t u : Disk κ) (h : Within P d t) (h' : Within P t u) : Within P d u :=
  h.trans h'

/-- A program with the footprint `P`. -/
abbrev Touches (P : DiskPath → Option (Node κ) → Prop) (p : Prog ω ε (Disk κ) α) : Prop :=
  p.Moves (Within P)

theorem touches_bind {p : Prog ω ε (Disk κ) α} {β : Type} {g : α → Prog ω ε (Disk κ) β}
    (hp : Touches P p) (hg : ∀ a, Touches P (g a)) : Touches P (p >>= g) :=
  Prog.Moves.bind within_trans hp hg

theorem touches_call {f : Disk κ → Option (Disk κ)} (h : ∀ d t, f d = some t → Within P d t) :
    Touches P (call e f : Prog ω ε (Disk κ) Unit) :=
  .of_wp fun d ↦ wp_call (.refl d) (.refl d) fun t ht ↦ ⟨h d t ht, h d t ht⟩

theorem touches_unlink {p : DiskPath} (h : P p none) :
    Touches P (call e (unlink p) : Prog ω ε (Disk κ) Unit) := by
  refine touches_call fun d t ht ↦ ?_
  obtain ⟨-, rfl⟩ := unlink_eq_some ht
  exact (Within.refl d).set h

end Disk
