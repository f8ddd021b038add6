import Mathlib.Algebra.Ring.Nat
import Mathlib.Data.List.Lex
import Mathlib.Data.List.Sort

/-!
# Prefixes, delimiters and the lexicographic order

Words over an ordered alphabet, in their lexicographic order. Relative to a prefix `p` and a
delimiter `d`, a word collapses to its part up to and including the first `d` after `p`; a word
without one stands for itself.

## Why a sorted list stays sorted

**Collapsing is monotone** (`collapse_le_collapse`): a longer word cannot jump over the words that
collapse to the same place. Two facts carry this. The words with a given prefix form an interval
(`isPrefix_of_le_of_le`), and a word that begins with the collapsed part of another collapses to the
same part (`collapse_of_isPrefix`). So equal results are adjacent when the words are sorted, and
comparing with the last one is enough to drop duplicates.

## Sorted lists

On a sorted list a walk that starts at a lower bound and stops at the first word that does not
qualify is a filter (`dropWhile_eq_filter`, `takeWhile_eq_filter`).
-/

namespace Collapse

variable {α : Type} [LinearOrder α]

/-! ### Prefixes -/

theorem cons_le_cons_iff {c d : α} {a b : List α} :
    c :: a ≤ d :: b ↔ c < d ∨ c = d ∧ a ≤ b := by
  rw [← not_lt, ← not_lt, List.cons_lt_cons_iff]
  constructor
  · intro h
    push Not at h
    rcases lt_or_eq_of_le h.1 with hlt | rfl
    · exact .inl hlt
    · exact .inr ⟨rfl, not_lt.2 (h.2 rfl)⟩
  · rintro (hlt | ⟨rfl, h⟩)
    · rintro (hlt' | ⟨rfl, -⟩)
      · exact absurd (hlt.trans hlt') (lt_irrefl _)
      · exact absurd hlt (lt_irrefl _)
    · rintro (hlt | ⟨-, h'⟩)
      · exact absurd hlt (lt_irrefl _)
      · exact h h'

theorem le_of_isPrefix {p a : List α} (h : p <+: a) : p ≤ a := by
  rw [← not_lt]
  exact List.not_lt.2 h.le

/-- **The words with a given prefix form an interval.** -/
theorem isPrefix_of_le_of_le {p a b : List α} (hpa : p ≤ a) (hab : a ≤ b) (hpb : p <+: b) :
    p <+: a := by
  induction p generalizing a b with
  | nil => exact List.nil_prefix
  | cons c p ih =>
    obtain ⟨t, rfl⟩ := hpb
    cases a with
    | nil => exact absurd hpa (by simp)
    | cons d a =>
      rw [List.cons_append, cons_le_cons_iff] at hab
      rw [cons_le_cons_iff] at hpa
      obtain ⟨rfl, hpa'⟩ : c = d ∧ p ≤ a := by
        rcases hpa with hlt | h
        · rcases hab with hlt' | ⟨rfl, -⟩
          · exact absurd (hlt.trans hlt') (lt_irrefl _)
          · exact absurd hlt (lt_irrefl _)
        · exact h
      have hab' : a ≤ p ++ t := by
        rcases hab with hlt | ⟨-, h⟩
        · exact absurd hlt (lt_irrefl _)
        · exact h
      exact List.cons_prefix_cons.2 ⟨rfl, ih hpa' hab' (List.prefix_append p t)⟩

/-! ### The first occurrence of a word in another -/

/-- The position of the first occurrence of `d`. -/
def findSub (d : List α) : List α → Option ℕ
  | [] => if d = [] then some 0 else none
  | c :: l => if d <+: c :: l then some 0 else (findSub d l).map (· + 1)

theorem add_length_le_of_findSub {d l : List α} {i : ℕ} (h : findSub d l = some i) :
    i + d.length ≤ l.length := by
  induction l generalizing i with
  | nil =>
    simp only [findSub] at h
    split at h
    · next hd =>
      obtain rfl : 0 = i := by simpa using h
      simp [hd]
    · cases h
  | cons c l ih =>
    simp only [findSub] at h
    split at h
    · next hd =>
      obtain rfl : 0 = i := by simpa using h
      simpa using hd.length_le
    · obtain ⟨j, hj, rfl⟩ := Option.map_eq_some_iff.1 h
      have := ih hj
      simp only [List.length_cons]
      omega

/-- An occurrence that is first in a word is first in every word that begins in the same way. -/
theorem findSub_of_take_isPrefix {d l l' : List α} {i : ℕ} (h : findSub d l = some i)
    (hp : l.take (i + d.length) <+: l') : findSub d l' = some i := by
  induction l generalizing i l' with
  | nil =>
    simp only [findSub] at h
    split at h
    · next hd =>
      obtain rfl : 0 = i := by simpa using h
      subst hd
      cases l' <;> simp [findSub]
    · cases h
  | cons c l ih =>
    simp only [findSub] at h
    split at h
    · next hd =>
      obtain rfl : 0 = i := by simpa using h
      have hdl : d <+: l' := by
        obtain ⟨t, ht⟩ := hd
        rw [← ht] at hp
        simpa using hp
      cases l' with
      | nil => simp [findSub, List.prefix_nil.1 hdl]
      | cons c' l' => simp [findSub, hdl]
    · next hd =>
      obtain ⟨j, hj, rfl⟩ := Option.map_eq_some_iff.1 h
      rw [show j + 1 + d.length = (j + d.length) + 1 by omega, List.take_succ_cons] at hp
      obtain ⟨l'', rfl⟩ : ∃ l'', l' = c :: l'' := by
        obtain ⟨t, ht⟩ := hp
        exact ⟨_, ht.symm⟩
      have hp' : l.take (j + d.length) <+: l'' := (List.cons_prefix_cons.1 hp).2
      have hnot : ¬ d <+: c :: l'' := by
        intro hd'
        have hlen := add_length_le_of_findSub hj
        refine hd ((List.prefix_of_prefix_length_le hd' hp ?_).trans
          (List.cons_prefix_cons.2 ⟨rfl, l.take_prefix (j + d.length)⟩))
        simp only [List.length_cons, List.length_take]
        omega
      simp [findSub, hnot, ih hj hp']

theorem findSub_eq_none_iff {d l : List α} : findSub d l = none ↔ ∀ u v, l ≠ u ++ d ++ v := by
  induction l with
  | nil => by_cases hd : d = [] <;> simp [findSub, hd]
  | cons c l ih =>
    simp only [findSub]
    split
    · next hd =>
      obtain ⟨v, hv⟩ := hd
      simp only [reduceCtorEq, false_iff, not_forall, not_not]
      exact ⟨[], v, by simp [hv]⟩
    · next hd =>
      rw [Option.map_eq_none_iff, ih]
      constructor
      · intro h u v heq
        cases u with
        | nil => exact hd ⟨v, by simpa using heq.symm⟩
        | cons c' u =>
          obtain ⟨-, h'⟩ : c = c' ∧ l = u ++ d ++ v := by simpa using heq
          exact h u v h'
      · intro h u v heq
        exact h (c :: u) v (by simp [heq])

/-- The first occurrence splits a word, and every other split is later. -/
theorem findSub_eq_some_iff {d l : List α} {i : ℕ} : findSub d l = some i ↔
    ∃ u v, l = u ++ d ++ v ∧ u.length = i ∧ ∀ u' v', l = u' ++ d ++ v' → i ≤ u'.length := by
  induction l generalizing i with
  | nil =>
    by_cases hd : d = []
    · simp [findSub, hd, eq_comm]
    · simp [findSub, hd]
  | cons c l ih =>
    simp only [findSub]
    split
    · next hd =>
      obtain ⟨v, hv⟩ := hd
      constructor
      · rintro ⟨⟩
        exact ⟨[], v, by simp [hv], rfl, by simp⟩
      · rintro ⟨u, v', -, rfl, hmin⟩
        simpa [eq_comm] using hmin [] v (by simp [hv])
    · next hd =>
      rw [Option.map_eq_some_iff]
      constructor
      · rintro ⟨j, hj, rfl⟩
        obtain ⟨u, v, rfl, rfl, hmin⟩ := ih.1 hj
        refine ⟨c :: u, v, rfl, rfl, fun u' v' heq ↦ ?_⟩
        cases u' with
        | nil => exact absurd ⟨v', by simpa using heq.symm⟩ hd
        | cons c' u' =>
          have := hmin u' v' (by simpa using (List.cons_eq_cons.1 heq).2)
          simpa using this
      · rintro ⟨u, v, heq, rfl, hmin⟩
        cases u with
        | nil => exact absurd ⟨v, by simpa using heq.symm⟩ hd
        | cons c' u =>
          obtain ⟨rfl, rfl⟩ : c = c' ∧ l = u ++ d ++ v := by simpa using heq
          refine ⟨u.length, ih.2 ⟨u, v, rfl, rfl, fun u' v' h ↦ ?_⟩, rfl⟩
          have := hmin (c :: u') v' (by simp [h])
          simpa using this

/-! ### Collapsing -/

/-- The part of `k` up to and including the first `d` after the prefix `p`, or all of it. -/
def collapse (p d k : List α) : List α :=
  match findSub d (k.drop p.length) with
  | none => k
  | some i => k.take (p.length + i + d.length)

/-- Whether there is a `d` after the prefix `p`. -/
def Collapses (p d k : List α) : Prop := (findSub d (k.drop p.length)).isSome

variable {p d k k' : List α}

theorem collapse_isPrefix : collapse p d k <+: k := by
  unfold collapse
  split
  · exact List.prefix_refl _
  · exact List.take_prefix _ _

theorem collapse_of_not (h : ¬ Collapses p d k) : collapse p d k = k := by
  unfold Collapses at h
  unfold collapse
  cases hf : findSub d (k.drop p.length) with
  | none => rfl
  | some i => simp [hf] at h

/-- A word that begins with the collapsed part of another collapses to the same part. -/
theorem collapse_of_isPrefix (hp : p <+: k) (hk : Collapses p d k) (h : collapse p d k <+: k') :
    collapse p d k' = collapse p d k ∧ Collapses p d k' := by
  obtain ⟨i, hi⟩ := Option.isSome_iff_exists.1 hk
  have hck : collapse p d k = k.take (p.length + i + d.length) := by simp [collapse, hi]
  obtain ⟨t, rfl⟩ := hp
  have hlen := add_length_le_of_findSub hi
  simp only [List.drop_left] at hi hlen
  rw [hck] at h
  have htake : (p ++ t).take (p.length + i + d.length) = p ++ t.take (i + d.length) := by
    rw [Nat.add_assoc, List.take_length_add_append]
  rw [htake] at h
  obtain ⟨u, rfl⟩ := h
  have hi' : findSub d ((p ++ t.take (i + d.length) ++ u).drop p.length) = some i := by
    rw [List.append_assoc, List.drop_left]
    exact findSub_of_take_isPrefix hi (List.prefix_append _ _)
  refine ⟨?_, by rw [Collapses, hi']; rfl⟩
  rw [hck, htake]
  simp only [collapse, hi']
  rw [List.append_assoc, Nat.add_assoc, List.take_length_add_append, List.take_left']
  simp only [List.length_take]
  omega

/-- **Collapsing is monotone.** -/
theorem collapse_le_collapse (hp : p <+: k') (h : k ≤ k') : collapse p d k ≤ collapse p d k' := by
  by_cases hk : Collapses p d k'
  · by_contra hlt
    rw [not_le] at hlt
    have hle : collapse p d k' ≤ k := hlt.le.trans (le_of_isPrefix collapse_isPrefix)
    have hpre := isPrefix_of_le_of_le hle h collapse_isPrefix
    rw [(collapse_of_isPrefix hp hk hpre).1] at hlt
    exact lt_irrefl _ hlt
  · rw [collapse_of_not hk]
    exact (le_of_isPrefix collapse_isPrefix).trans h

/-- Words that collapse to the same part are alike. -/
theorem collapses_of_collapse_eq (hp : p <+: k) (h : collapse p d k = collapse p d k')
    (hk : Collapses p d k) : Collapses p d k' :=
  (collapse_of_isPrefix hp hk (h ▸ collapse_isPrefix)).2

/-! ### Sorted lists -/

section Sorted

variable {β : Type} {l : List β} {q : β → Bool}

omit [LinearOrder α]

/-- A walk that stops at the first element that does not qualify, when none after it does. -/
theorem takeWhile_eq_filter (h : l.Pairwise fun a b ↦ q b = true → q a = true) :
    l.takeWhile q = l.filter q := by
  induction l with
  | nil => rfl
  | cons a l ih =>
    rw [List.pairwise_cons] at h
    cases ha : q a with
    | true => simp [ha, ih h.2]
    | false =>
      have hnone : l.filter q = [] := by
        rw [List.filter_eq_nil_iff]
        intro b hb hq
        rw [h.1 b hb hq] at ha
        cases ha
      simp [ha, hnone]

/-- A walk that starts at the first element that does not qualify, when none after it does. -/
theorem dropWhile_eq_filter (h : l.Pairwise fun a b ↦ q b = true → q a = true) :
    l.dropWhile q = l.filter fun a ↦ !q a := by
  induction l with
  | nil => rfl
  | cons a l ih =>
    rw [List.pairwise_cons] at h
    cases ha : q a with
    | true => simp [ha, ih h.2]
    | false =>
      have hall : (a :: l).filter (fun a ↦ !q a) = a :: l := by
        rw [List.filter_eq_self]
        intro b hb
        rcases List.mem_cons.1 hb with rfl | hb
        · simp [ha]
        · cases hq : q b with
          | false => rfl
          | true => rw [h.1 b hb hq] at ha; cases ha
      rw [hall]
      simp [ha]

end Sorted

/-! ### Walking in pages -/

section Pages

variable {κ ε : Type} [LinearOrder κ] {path : ε → κ} {l a b : List ε} {x : ε}

omit [LinearOrder α]

/-- A list that is sorted by distinct paths is determined by its members. -/
theorem eq_of_mem_iff {l₁ l₂ : List ε} (h₁ : l₁.Pairwise fun x y ↦ path x < path y)
    (h₂ : l₂.Pairwise fun x y ↦ path x < path y) (h : ∀ x, x ∈ l₁ ↔ x ∈ l₂) : l₁ = l₂ :=
  haveI : Std.Irrefl fun x y : ε ↦ path x < path y := ⟨fun _ ↦ lt_irrefl _⟩
  haveI : Std.Antisymm fun x y : ε ↦ path x < path y :=
    ⟨fun _ _ hab hba ↦ absurd (hab.trans hba) (lt_irrefl _)⟩
  h₁.eq_of_mem_iff h₂ h

/-- The entries after a marker. -/
def after (path : ε → κ) (marker : Option κ) (l : List ε) : List ε :=
  l.filter fun x ↦ marker.all (· < path x)

theorem mem_after {marker : Option κ} :
    x ∈ after path marker l ↔ x ∈ l ∧ ∀ m ∈ marker, m < path x := by
  rw [after, List.mem_filter]
  cases marker <;> simp

@[simp] theorem after_none : after path none l = l := by
  simp [after]

theorem pairwise_after {R : ε → ε → Prop} {marker : Option κ} (h : l.Pairwise R) :
    (after path marker l).Pairwise R :=
  h.filter _

/-- A page that ends with `x` leaves what comes after `x`. -/
theorem after_of_append (hl : l.Pairwise fun a b ↦ path a < path b) (marker : Option κ)
    (h : after path marker l = a ++ x :: b) : after path (some (path x)) l = b := by
  have hx : ∀ m ∈ marker, m < path x := by
    have hmem : x ∈ after path marker l := by simp [h]
    exact (mem_after.1 hmem).2
  have htwice : after path (some (path x)) l = after path (some (path x)) (after path marker l) := by
    unfold after
    rw [List.filter_filter]
    refine List.filter_congr fun y _ ↦ ?_
    cases marker with
    | none => simp
    | some m =>
      have hm : m < path x := by simpa using hx
      by_cases hy : path x < path y
      · simp [hy, hm.trans hy]
      · simp [hy]
  have hsorted : (after path marker l).Pairwise fun a b ↦ path a < path b := pairwise_after hl
  rw [h, List.pairwise_append, List.pairwise_cons] at hsorted
  obtain ⟨-, ⟨hxb, -⟩, hax⟩ := hsorted
  have ha : after path (some (path x)) a = [] := by
    refine List.filter_eq_nil_iff.2 fun y hy ↦ ?_
    simpa using (hax y hy x (List.mem_cons_self ..)).le
  have hb : after path (some (path x)) b = b := by
    refine List.filter_eq_self.2 fun y hy ↦ ?_
    simpa using hxb y hy
  rw [htwice, h]
  unfold after at ha hb ⊢
  rw [List.filter_append, ha, List.filter_cons, hb]
  simp

end Pages

end Collapse
