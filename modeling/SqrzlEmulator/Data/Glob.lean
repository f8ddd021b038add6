import Mathlib.Data.List.Infix
import Mathlib.Data.List.Forall2

/-!
# Glob patterns

Patterns over an alphabet with two wildcards: `one` stands for exactly one letter, and `many` for
any word. `Glob` is the language of a pattern: how a word is split along it.

## Splits that face

A matcher that compares letters before it looks for wildcards takes a `many` of the pattern that
meets the letter `many` in the word for that letter. What it accepts is a smaller language,
`Facing`: in such a split, **a `many` that faces itself stands for exactly itself**.

`Facing` is the language of a loop that never returns to an earlier `many`. The reason is
`Facing.of_skip`: once a stretch of the pattern has been matched letter by letter, whatever a later
start of the same stretch can reach, can be reached from where the stretch ended. A `many` inside
the stretch would break this if it could stand for the empty word in front of the letter that it
was matched with, and that is what facing excludes.
-/

namespace Sqrzl

variable {α : Type*} {one many c d : α} {p v w x seg : List α}

/-- The words that can be split along a pattern. -/
inductive Glob (one many : α) : List α → List α → Prop where
  | nil : Glob one many [] []
  | letter {c : α} {p v : List α} : c ≠ one → c ≠ many → Glob one many p v →
      Glob one many (c :: p) (c :: v)
  | one {p v : List α} (c : α) : Glob one many p v → Glob one many (one :: p) (c :: v)
  | many {p v : List α} (w : List α) : Glob one many p v → Glob one many (many :: p) (w ++ v)

/-- The words that can be split along a pattern so that a `many` which faces the letter `many`
stands for exactly this letter. -/
inductive Facing (one many : α) : List α → List α → Prop where
  | nil : Facing one many [] []
  | letter {c : α} {p v : List α} : c ≠ one → c ≠ many → Facing one many p v →
      Facing one many (c :: p) (c :: v)
  | one {p v : List α} (c : α) : Facing one many p v → Facing one many (one :: p) (c :: v)
  | self {p v : List α} : Facing one many p v → Facing one many (many :: p) (many :: v)
  | many {p v : List α} (w : List α) : (w ++ v).head? ≠ some many → Facing one many p v →
      Facing one many (many :: p) (w ++ v)

/-- **A split that faces is a split.** -/
theorem Facing.glob (h : Facing one many p v) : Glob one many p v := by
  induction h with
  | nil => exact .nil
  | letter hone hmany _ ih => exact .letter hone hmany ih
  | one c _ ih => exact .one c ih
  | self _ ih => exact Glob.many [many] ih
  | many w _ _ ih => exact .many w ih

/-! ### One letter of the pattern -/

/-- A letter of a pattern is taken for a letter of a word without looking any further. -/
def Meets (one c d : α) : Prop := c = one ∨ c = d

theorem facing_nil_left : Facing one many [] v ↔ v = [] := by
  constructor
  · intro h
    cases h
    rfl
  · rintro rfl
    exact .nil

/-- What is left of a pattern at the end of the word is all wildcards. -/
theorem facing_nil_right : Facing one many p [] ↔ ∀ c ∈ p, c = many := by
  induction p with
  | nil => simpa using Facing.nil
  | cons c p ih =>
    rw [List.forall_mem_cons, ← ih]
    constructor
    · intro h
      generalize hv : ([] : List α) = v at h
      rcases h with _ | ⟨_, _, _⟩ | _ | _ | ⟨w, hhead, h⟩
      · exact absurd hv (by simp)
      · exact absurd hv (by simp)
      · exact absurd hv (by simp)
      · obtain ⟨rfl, rfl⟩ := List.append_eq_nil_iff.1 hv.symm
        exact ⟨rfl, h⟩
    · rintro ⟨rfl, h⟩
      exact .many [] (by simp) h

/-- **A letter that meets a letter of the word stands for it.** -/
theorem facing_meets (hne : one ≠ many) (h : Meets one c d) :
    Facing one many (c :: p) (d :: v) ↔ Facing one many p v := by
  constructor
  · intro hf
    generalize hv : d :: v = u at hf
    rcases hf with _ | ⟨hone, hmany, hf⟩ | ⟨e, hf⟩ | hf | ⟨w, hhead, hf⟩
    · obtain ⟨-, rfl⟩ := List.cons.inj hv
      exact hf
    · obtain ⟨-, rfl⟩ := List.cons.inj hv
      exact hf
    · obtain ⟨-, rfl⟩ := List.cons.inj hv
      exact hf
    · rcases h with h | rfl
      · exact absurd h.symm hne
      · rw [← hv] at hhead
        exact absurd rfl hhead
  · intro hf
    by_cases hone : c = one
    · subst hone
      exact .one d hf
    · obtain rfl := h.resolve_left hone
      by_cases hmany : c = many
      · subst hmany
        exact .self hf
      · exact .letter hone hmany hf

/-- A letter that meets nothing, and is no wildcard, matches nothing. -/
theorem not_facing_of_not_meets (hmany : c ≠ many) (h : ¬ Meets one c d) :
    ¬ Facing one many (c :: p) (d :: v) := by
  intro hf
  generalize hv : d :: v = u at hf
  rcases hf with _ | ⟨hone, hmany, hf⟩ | ⟨e, hf⟩ | hf | ⟨w, hhead, hf⟩
  · exact h (.inr (List.cons.inj hv).1.symm)
  · exact h (.inl rfl)
  · exact hmany rfl
  · exact hmany rfl

/-- **A `many` that does not face itself stands for any word.** -/
theorem facing_many (hhead : v.head? ≠ some many) (hne : one ≠ many) :
    Facing one many (many :: p) v ↔ ∃ x, x <:+ v ∧ Facing one many p x := by
  constructor
  · intro hf
    generalize hq : many :: p = q at hf
    rcases hf with _ | ⟨hone, hmany, hf⟩ | ⟨e, hf⟩ | hf | ⟨w, -, hf⟩
    · exact absurd hq (by simp)
    · exact absurd (List.cons.inj hq).1.symm hmany
    · exact absurd (List.cons.inj hq).1.symm hne
    · exact absurd rfl hhead
    · obtain ⟨-, rfl⟩ := List.cons.inj hq
      exact ⟨_, ⟨w, rfl⟩, hf⟩
  · rintro ⟨x, ⟨w, rfl⟩, hf⟩
    exact .many w hhead hf

/-- A `many` can take more in front, unless it would face itself there. -/
theorem Facing.extend (hne : one ≠ many) (hf : Facing one many (many :: p) x) (hx : x <:+ v)
    (hhead : v.head? ≠ some many) : Facing one many (many :: p) v := by
  rw [facing_many hhead hne]
  generalize hq : many :: p = q at hf
  rcases hf with _ | ⟨hone, hmany, hf⟩ | ⟨e, hf⟩ | hf | ⟨w, -, hf⟩
  · exact absurd hq (by simp)
  · exact absurd (List.cons.inj hq).1.symm hmany
  · exact absurd (List.cons.inj hq).1.symm hne
  · obtain ⟨-, rfl⟩ := List.cons.inj hq
    exact ⟨_, (List.suffix_cons _ _).trans hx, hf⟩
  · obtain ⟨-, rfl⟩ := List.cons.inj hq
    exact ⟨_, (List.suffix_append w _).trans hx, hf⟩

/-! ### Stretches of the pattern -/

/-- A stretch that is matched letter by letter can be taken off. -/
theorem facing_append (hne : one ≠ many) (h : List.Forall₂ (Meets one) seg w) :
    Facing one many (seg ++ p) (w ++ v) ↔ Facing one many p v := by
  induction h with
  | nil => rfl
  | cons hmeets _ ih =>
    rw [List.cons_append, List.cons_append, facing_meets hne hmeets, ih]

theorem suffix_of_cons (h : c :: x <:+ d :: v) : x <:+ v := by
  rcases List.suffix_cons_iff.1 h with h | h
  · exact (List.cons.inj h).2 ▸ List.suffix_rfl
  · exact (List.suffix_cons c x).trans h

/-- **A later start reaches nothing new.** If a stretch of the pattern has been matched letter by
letter, then a split of what begins somewhere inside or behind it gives a split of the rest of the
pattern that begins behind it. -/
theorem Facing.of_skip (hne : one ≠ many) (h : List.Forall₂ (Meets one) seg w)
    (hx : x <:+ w ++ v) (hf : Facing one many (seg ++ p) x) :
    ∃ y, y <:+ v ∧ Facing one many p y := by
  induction h generalizing x with
  | nil => exact ⟨x, hx, hf⟩
  | @cons c d seg w hmeets _ ih =>
    generalize hq : c :: seg ++ p = q at hf
    rcases hf with _ | ⟨hone, hmany, hf⟩ | ⟨e, hf⟩ | hf | ⟨u, hhead, hf⟩
    · exact absurd hq (by simp)
    · obtain ⟨-, rfl⟩ := List.cons.inj hq
      exact ih (suffix_of_cons hx) hf
    · obtain ⟨-, rfl⟩ := List.cons.inj hq
      exact ih (suffix_of_cons hx) hf
    · obtain ⟨-, rfl⟩ := List.cons.inj hq
      exact ih (suffix_of_cons hx) hf
    · -- the start is not at `d`, which is `many`, and so it is inside the rest of the stretch
      obtain ⟨rfl, rfl⟩ := List.cons.inj hq
      obtain rfl := hmeets.resolve_left hne.symm
      have hrest := (List.suffix_cons_iff.1 hx).resolve_left fun h ↦ hhead (by rw [h]; rfl)
      exact ih ((List.suffix_append u _).trans hrest) hf

end Sqrzl
