import Mathlib.Data.List.Forall2

/-!
# Results of steps that can fail

What a composed computation has returned, in terms of its parts. A traversal has returned a list
exactly if each of its steps has returned the entry at the same place (`mapM_eq_ok_iff`).
-/

namespace Results

variable {α β ε : Type} {x : Except ε α} {e : ε} {b : β} {l : List α} {r : List β}

theorem map_eq_error_iff {f : α → β} : x.map f = .error e ↔ x = .error e := by
  cases x with
  | error e' =>
    rw [show Except.map f (.error e' : Except ε α) = .error e' from rfl, Except.error.injEq,
      Except.error.injEq]
  | ok a =>
    refine iff_of_false (fun h ↦ ?_) (fun h ↦ ?_)
    · cases h
    · cases h

theorem map_eq_ok_iff {f : α → β} : x.map f = .ok b ↔ ∃ a, x = .ok a ∧ f a = b := by
  cases x with
  | error e =>
    refine iff_of_false (fun h ↦ ?_) (fun h ↦ ?_)
    · cases h
    · obtain ⟨a, ha, -⟩ := h
      cases ha
  | ok a =>
    rw [show Except.map f (.ok a : Except ε α) = .ok (f a) from rfl]
    simp

theorem bind_eq_ok_iff {f : α → Except ε β} :
    (x >>= f) = .ok b ↔ ∃ a, x = .ok a ∧ f a = .ok b := by
  cases x with
  | error e =>
    refine iff_of_false (fun h ↦ ?_) (fun h ↦ ?_)
    · cases h
    · obtain ⟨a, ha, -⟩ := h
      cases ha
  | ok a =>
    show f a = .ok b ↔ _
    simp

/-- **A traversal has succeeded if each of its steps has.** -/
theorem mapM_eq_ok_iff {g : α → Except ε β} :
    l.mapM g = .ok r ↔ List.Forall₂ (fun a b ↦ g a = .ok b) l r := by
  induction l generalizing r with
  | nil =>
    rw [List.mapM_nil, List.forall₂_nil_left_iff]
    show Except.ok [] = Except.ok r ↔ _
    rw [Except.ok.injEq, eq_comm]
  | cons a l ih =>
    rw [List.mapM_cons, bind_eq_ok_iff, List.forall₂_cons_left_iff]
    refine exists_congr fun b ↦ ?_
    rw [bind_eq_ok_iff]
    constructor
    · rintro ⟨hb, bs, hbs, h⟩
      exact ⟨bs, hb, ih.1 hbs, (Except.ok.inj h).symm⟩
    · rintro ⟨bs, hb, hbs, rfl⟩
      exact ⟨hb, bs, ih.2 hbs, rfl⟩

theorem mapM_pure {g : α → Except ε β} {h : α → β} (hg : ∀ x ∈ l, g x = .ok (h x)) :
    l.mapM g = .ok (l.map h) := by
  rw [mapM_eq_ok_iff, List.forall₂_map_right_iff, List.forall₂_same]
  exact hg

/-- What a traversal has returned, when the results of its steps are known. -/
theorem eq_map_of_mapM_ok {g : α → Except ε β} {h : α → β} (hg : ∀ a b, g a = .ok b → h a = b)
    (hr : l.mapM g = .ok r) : r = l.map h := by
  rw [mapM_eq_ok_iff] at hr
  have hmap := hr.imp hg
  rw [← List.forall₂_map_left_iff (R := Eq), List.forall₂_eq_eq_eq] at hmap
  exact hmap.symm

theorem exists_of_mapM_ok {g : α → Except ε β} (h : l.mapM g = .ok r) (hb : b ∈ r) :
    ∃ a ∈ l, g a = .ok b := by
  rw [mapM_eq_ok_iff] at h
  induction h with
  | nil => exact absurd hb List.not_mem_nil
  | cons hab _ ih =>
    rcases List.mem_cons.1 hb with rfl | hb
    · exact ⟨_, List.mem_cons_self, hab⟩
    · obtain ⟨a, ha, hg⟩ := ih hb
      exact ⟨a, List.mem_cons_of_mem _ ha, hg⟩

end Results
