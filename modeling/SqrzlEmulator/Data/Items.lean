import Mathlib.Data.List.Basic

/-!
# Reading item by item

A reader goes through events in some state; `A s l` says that it accepts the events `l` from the
state `s` on. If at each point it is either done, or it reads the events of one item and goes on,
then what it accepts is the events of some items, one after the other, and behind them something
that it is done with (`accepts_iff`). What the items make of the state is `Steps`.
-/

namespace Items

variable {σ ε ι : Type}

/-- The states in front of some items and behind them. -/
inductive Steps (step : σ → ι → σ → Prop) : σ → List ι → σ → Prop
  | nil (s : σ) : Steps step s [] s
  | cons {s t u : σ} {i : ι} {items : List ι} (h : step s i t) (hrest : Steps step t items u) :
      Steps step s (i :: items) u

theorem steps_nil_iff {step : σ → ι → σ → Prop} {s t : σ} : Steps step s [] t ↔ t = s := by
  constructor
  · rintro ⟨⟩
    rfl
  · rintro rfl
    exact .nil _

theorem steps_cons_iff {step : σ → ι → σ → Prop} {s u : σ} {i : ι} {items : List ι} :
    Steps step s (i :: items) u ↔ ∃ t, step s i t ∧ Steps step t items u := by
  constructor
  · rintro (_ | ⟨h, hrest⟩)
    exact ⟨_, h, hrest⟩
  · rintro ⟨t, h, hrest⟩
    exact .cons h hrest

/-- **What is accepted item by item.** `G` is what is known of a state and of the events in front of
which it is, `D` is being done, `R` is what an item makes of the state and `E` are its events. -/
theorem accepts_iff {A D G : σ → List ε → Prop} {R : σ → ι → σ → Prop} {E : ι → List ε}
    (hE : ∀ i, E i ≠ [])
    (hG : ∀ {s t i l}, G s (E i ++ l) → R s i t → G t l)
    (hA : ∀ {s l}, G s l →
      (A s l ↔ D s l ∨ ∃ i t rest, l = E i ++ rest ∧ R s i t ∧ A t rest))
    {s : σ} {l : List ε} (h : G s l) :
    A s l ↔ ∃ items t rest, l = items.flatMap E ++ rest ∧ Steps R s items t ∧ D t rest := by
  constructor
  · -- the induction is on the number of events that are left
    induction hn : l.length using Nat.strongRecOn generalizing s l with
    | _ n ih =>
    subst hn
    intro hl
    rcases (hA h).1 hl with hdone | ⟨i, t, rest, rfl, hstep, hrest⟩
    · exact ⟨[], s, l, rfl, .nil s, hdone⟩
    · have hshorter : rest.length < (E i ++ rest).length := by
        have hpos := List.length_pos_iff.2 (hE i)
        rw [List.length_append]
        omega
      obtain ⟨items, u, rest', rfl, hsteps, hdone⟩ := ih _ hshorter (hG h hstep) rfl hrest
      exact ⟨i :: items, u, rest', (List.append_assoc ..).symm, .cons hstep hsteps, hdone⟩
  · rintro ⟨items, t, rest, rfl, hsteps, hdone⟩
    induction hsteps with
    | nil s => exact (hA h).2 (.inl hdone)
    | cons hstep hrest ih =>
      rw [List.flatMap_cons, List.append_assoc] at h ⊢
      exact (hA h).2 (.inr ⟨_, _, _, rfl, hstep, ih (hG h hstep) hdone⟩)

end Items
