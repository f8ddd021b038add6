import Mathlib.Data.Finset.Card
import Mathlib.Data.Finset.Filter
import Mathlib.Order.Basic

/-!
# Rounds that look at a page

A set of elements is worked off in rounds. **A round looks at the first `n` elements that are left**,
and removes those of them that are ready in this round. An element may be ready in several rounds,
and not be on the page in any of them.

`served_iff` says when all elements that should go are gone in the end: exactly if each can be given
a deadline, a round in which it is ready, such that fewer than `n` elements before it have no earlier
deadline. The deadlines are about the elements that are there at the beginning, and do not mention
the rounds in between.
-/

namespace Sqrzl

variable {ι : Type} [LinearOrder ι] {n m : ℕ} {ready : ℕ → ι → Prop} {wanted : ι → Prop}
  {left : ℕ → Finset ι} {deadline : ι → ℕ} {x : ι} {i j : ℕ}

/-- The elements of the set that are before `x`. -/
def before (s : Finset ι) (x : ι) : Finset ι := s.filter (· < x)

theorem mem_before {s : Finset ι} {y : ι} : y ∈ before s x ↔ y ∈ s ∧ y < x := Finset.mem_filter

/-- **Rounds over the first `n` elements**: `left i` are the elements that are left before the
round `i`. -/
structure Rounds (n : ℕ) (ready : ℕ → ι → Prop) (left : ℕ → Finset ι) : Prop where
  shrink : ∀ i, left (i + 1) ⊆ left i
  step : ∀ i, ∀ x ∈ left i,
    (x ∉ left (i + 1) ↔ ready i x ∧ (before (left i) x).card < n)

namespace Rounds

theorem anti (h : Rounds n ready left) (hij : i ≤ j) : left j ⊆ left i := by
  induction j, hij using Nat.le_induction with
  | base => exact Finset.Subset.refl _
  | succ j _ ih => exact (h.shrink j).trans ih

/-- An element that goes does so in a round in which it is ready and on the page. -/
theorem exists_round (h : Rounds n ready left) (hx : x ∈ left 0) (hm : x ∉ left m) :
    ∃ i < m, x ∈ left i ∧ x ∉ left (i + 1) ∧ ready i x ∧ (before (left i) x).card < n := by
  induction m with
  | zero => exact absurd hx hm
  | succ m ih =>
    by_cases hxm : x ∈ left m
    · exact ⟨m, Nat.lt_succ_self m, hxm, hm, (h.step m x hxm).1 hm⟩
    · obtain ⟨i, hi, hround⟩ := ih hxm
      exact ⟨i, Nat.lt_succ_of_lt hi, hround⟩

/-- The elements before `x` that have no earlier deadline. -/
noncomputable def crowd (wanted : ι → Prop) (deadline : ι → ℕ) (s : Finset ι) (x : ι) : Finset ι :=
  open Classical in s.filter fun y ↦ y < x ∧ ¬ (wanted y ∧ deadline y < deadline x)

theorem mem_crowd {s : Finset ι} {y : ι} : y ∈ crowd wanted deadline s x ↔
    y ∈ s ∧ y < x ∧ ¬ (wanted y ∧ deadline y < deadline x) := by
  classical
  rw [crowd, Finset.mem_filter]

/-- The deadlines can be kept. -/
def Feasible (n m : ℕ) (ready : ℕ → ι → Prop) (wanted : ι → Prop) (deadline : ι → ℕ) (s : Finset ι) :
    Prop :=
  ∀ x ∈ s, wanted x → deadline x < m ∧ ready (deadline x) x ∧ (crowd wanted deadline s x).card < n

/-- **Deadlines that can be kept are kept.** -/
theorem Feasible.kept (hdeadline : Feasible n m ready wanted deadline (left 0))
    (h : Rounds n ready left) (hx : x ∈ left 0) (hwanted : wanted x) : x ∉ left (deadline x + 1) := by
  -- the elements before `x` keep theirs
  induction hk : (before (left 0) x).card using Nat.strong_induction_on generalizing x with
  | h k ih =>
    obtain ⟨-, hready, hcrowd⟩ := hdeadline x hx hwanted
    intro hleft
    have hthere : x ∈ left (deadline x) := h.shrink _ hleft
    refine (h.step _ x hthere).2 ⟨hready, (Finset.card_le_card fun y hy ↦ ?_).trans_lt hcrowd⟩ hleft
    obtain ⟨hy, hlt⟩ := mem_before.1 hy
    have hy₀ : y ∈ left 0 := h.anti (Nat.zero_le _) hy
    refine mem_crowd.2 ⟨hy₀, hlt, fun ⟨hwanted', hearlier⟩ ↦ ?_⟩
    refine ih _ ?_ hy₀ hwanted' rfl (h.anti (Nat.succ_le_of_lt hearlier) hy)
    rw [← hk]
    refine Finset.card_lt_card ⟨fun z hz ↦ ?_, fun hsub ↦ ?_⟩
    · obtain ⟨hz, hzy⟩ := mem_before.1 hz
      exact mem_before.2 ⟨hz, hzy.trans hlt⟩
    · exact lt_irrefl y (mem_before.1 (hsub (mem_before.2 ⟨hy₀, hlt⟩))).2

/-- **The rounds remove all elements that are wanted** if and only if there are deadlines for them
that can be kept. -/
theorem served_iff (h : Rounds n ready left) (hready : ∀ i, ∀ x ∈ left 0, ready i x → wanted x) :
    (∀ x ∈ left 0, wanted x → x ∉ left m) ↔
      ∃ deadline, Feasible n m ready wanted deadline (left 0) := by
  constructor
  · intro hserved
    -- the round in which an element goes
    have hround : ∀ x, ∃ i, x ∈ left 0 → wanted x →
        i < m ∧ x ∈ left i ∧ ready i x ∧ (before (left i) x).card < n := by
      intro x
      by_cases hx : x ∈ left 0 ∧ wanted x
      · obtain ⟨i, hi, hthere, -, hround⟩ := h.exists_round hx.1 (hserved x hx.1 hx.2)
        exact ⟨i, fun _ _ ↦ ⟨hi, hthere, hround⟩⟩
      · exact ⟨0, fun h₁ h₂ ↦ absurd ⟨h₁, h₂⟩ hx⟩
    choose deadline hdeadline using hround
    refine ⟨deadline, fun x hx hwanted ↦ ?_⟩
    obtain ⟨hi, -, hnow, hpage⟩ := hdeadline x hx hwanted
    refine ⟨hi, hnow, (Finset.card_le_card fun y hy ↦ ?_).trans_lt hpage⟩
    obtain ⟨hy, hlt, hlate⟩ := mem_crowd.1 hy
    refine mem_before.2 ⟨?_, hlt⟩
    -- an element that is not wanted stays, and the others stay until their rounds
    by_contra hnot
    obtain ⟨j, -, -, -, hnow', -⟩ := h.exists_round hy hnot
    have hwanted' : wanted y := hready j y hy hnow'
    refine hlate ⟨hwanted', lt_of_not_ge fun hle ↦ ?_⟩
    exact hnot (h.anti hle (hdeadline y hy hwanted').2.1)
  · rintro ⟨deadline, hdeadline⟩ x hx hwanted hleft
    exact hdeadline.kept h hx hwanted
      (h.anti (Nat.succ_le_of_lt (hdeadline x hx hwanted).1) hleft)

end Rounds

end Sqrzl
