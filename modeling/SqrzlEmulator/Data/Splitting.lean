import SqrzlEmulator.Data.Collapse

/-!
# Splitting at a word

The pieces of a list between the occurrences of a word, found one after the other from the left
(`splitAt`), and the two halves around the first one (`splitOnce`).

**No piece has the word in it** (`not_occurs_of_mem`), and **what was joined with the word is split
into what it was joined from** (`splitAt_append`) if the word is in none of the parts and no
occurrence begins in one and ends in the separator. For the latter it is enough that each part ends
with something that is not in the word at all (`findSub_append_of_last`).
-/

namespace Splitting

open Collapse

/-- Bytes in the order of their numbers. -/
scoped instance linearOrderUInt8 : LinearOrder UInt8 where
  le_refl := UInt8.le_refl
  le_trans _ _ _ := UInt8.le_trans
  le_antisymm _ _ := UInt8.le_antisymm
  le_total := UInt8.le_total
  lt_iff_le_not_ge a b := by
    rw [UInt8.lt_iff_toNat_lt, UInt8.le_iff_toNat_le, UInt8.le_iff_toNat_le]
    omega
  toDecidableLE := inferInstance
  toDecidableEq := inferInstance
  toDecidableLT := inferInstance

variable {α : Type} [LinearOrder α] {word a b l : List α} {s : α}

/-! ### Occurrences -/

/-- The word is somewhere in the list. -/
def Occurs (word l : List α) : Prop := word <:+: l

instance [DecidableEq α] : Decidable (Occurs word l) :=
  inferInstanceAs (Decidable (word <:+: l))

theorem findSub_eq_none : findSub word l = none ↔ ¬ Occurs word l := by
  rw [findSub_eq_none_iff, Occurs, List.IsInfix]
  exact ⟨fun h ⟨u, v, heq⟩ ↦ h u v heq.symm, fun h u v heq ↦ h ⟨u, v, heq.symm⟩⟩

omit [LinearOrder α] in
/-- **An occurrence is on one side of whatever is not in the word.** -/
theorem occurs_append_cons (hs : s ∉ word) :
    Occurs word (a ++ s :: b) ↔ Occurs word a ∨ Occurs word b := by
  constructor
  · rintro ⟨u, v, h⟩
    rcases List.append_eq_append_iff.1 h with ⟨c, rfl, -⟩ | ⟨c, huw, hcv⟩
    · exact .inl ⟨u, c, rfl⟩
    · cases c with
      | nil => exact .inl ⟨u, [], by rw [huw]; simp⟩
      | cons x c =>
        obtain ⟨rfl, rfl⟩ := List.cons_eq_cons.1 hcv
        -- the occurrence ends behind `s`, and so it begins there
        rcases List.append_eq_append_iff.1 huw with ⟨d, -, hword⟩ | ⟨d, -, hsc⟩
        · exact absurd (hword ▸ List.mem_append_right d List.mem_cons_self) hs
        · cases d with
          | nil => exact absurd ((show s :: c = word from hsc) ▸ List.mem_cons_self) hs
          | cons y d =>
            obtain ⟨-, rfl⟩ := List.cons_eq_cons.1 hsc
            exact .inr ⟨d, v, rfl⟩
  · rintro (⟨u, v, rfl⟩ | ⟨u, v, rfl⟩)
    · exact ⟨u, v ++ s :: b, by simp⟩
    · exact ⟨a ++ s :: u, v, by simp⟩

/-- The first occurrence of the word is behind a part that ends with something else. -/
theorem findSub_append_of_last (ha : ¬ Occurs word a) (hlast : ∀ x ∈ a.getLast?, x ∉ word) :
    findSub word (a ++ word ++ b) = some a.length := by
  refine findSub_eq_some_iff.2 ⟨a, b, rfl, rfl, fun u v h ↦ ?_⟩
  rcases List.eq_nil_or_concat a with rfl | ⟨a', x, rfl⟩
  · exact Nat.zero_le _
  · have hx : x ∉ word := hlast x (by simp)
    by_contra hlt
    rw [List.concat_eq_append, List.length_append, List.length_singleton] at hlt
    have hocc : ¬ Occurs word a' := by
      rintro ⟨u', v', heq⟩
      exact ha ⟨u', v' ++ [x], by rw [← heq]; simp⟩
    have h' : (u ++ word) ++ v = a' ++ x :: (word ++ b) := by
      rw [← h]
      simp
    rcases List.append_eq_append_iff.1 h' with ⟨c, rfl, -⟩ | ⟨c, huw, hcv⟩
    · exact hocc ⟨u, c, rfl⟩
    · cases c with
      | nil => exact hocc ⟨u, [], by rw [huw]; simp⟩
      | cons y c =>
        obtain ⟨rfl, -⟩ := List.cons_eq_cons.1 hcv
        rcases List.append_eq_append_iff.1 huw with ⟨d, -, hword⟩ | ⟨d, rfl, hsc⟩
        · exact hx (hword ▸ List.mem_append_right d List.mem_cons_self)
        · cases d with
          | nil => exact hx ((show x :: c = word from hsc) ▸ List.mem_cons_self)
          | cons z d =>
            rw [List.length_append, List.length_cons] at hlt
            omega

/-- The first occurrence of a word whose first letter it has only once is behind a part without the
word. -/
theorem findSub_append_of_head (hs : s ∉ word) (ha : ¬ Occurs (s :: word) a) :
    findSub (s :: word) (a ++ (s :: word) ++ b) = some a.length := by
  refine findSub_eq_some_iff.2 ⟨a, b, rfl, rfl, fun u v h ↦ ?_⟩
  by_contra hlt
  rw [List.append_assoc, List.append_assoc] at h
  rcases List.append_eq_append_iff.1 h with ⟨e, rfl, -⟩ | ⟨e, rfl, h'⟩
  · rw [List.length_append] at hlt
    omega
  · rcases List.append_eq_append_iff.1 h' with ⟨d, rfl, -⟩ | ⟨d, hd, hv⟩
    · exact ha ⟨u, d, by rw [List.append_assoc]⟩
    · cases d with
      | nil => exact ha ⟨u, [], by rw [hd]; simp⟩
      | cons y d =>
        -- the earlier occurrence ends in the later one, which begins with `s`
        obtain ⟨rfl, -⟩ := List.cons_eq_cons.1 hv
        cases e with
        | nil =>
          rw [List.append_nil] at hlt
          omega
        | cons z e =>
          obtain ⟨-, hword⟩ := List.cons_eq_cons.1 hd
          exact hs (hword ▸ List.mem_append_right e List.mem_cons_self)

/-! ### Splitting -/

/-- The two halves around the first occurrence of the word. -/
def splitOnce (word l : List α) : Option (List α × List α) :=
  (findSub word l).map fun i ↦ (l.take i, l.drop (i + word.length))

/-- The pieces between the occurrences of the word. -/
def splitAt (word : List α) (hword : word ≠ []) (l : List α) : List (List α) :=
  match hfind : findSub word l with
  | none => [l]
  | some i => l.take i :: splitAt word hword (l.drop (i + word.length))
termination_by l.length
decreasing_by
  have hle := add_length_le_of_findSub hfind
  have hpos := List.length_pos_iff.2 hword
  rw [List.length_drop]
  omega

variable {hword : word ≠ []}

theorem splitAt_of_not_occurs (h : ¬ Occurs word l) : splitAt word hword l = [l] := by
  rw [splitAt]
  split
  · rfl
  · next i hfind =>
    rw [findSub_eq_none.2 h] at hfind
    cases hfind

theorem splitOnce_append (ha : ¬ Occurs word a) (hlast : ∀ x ∈ a.getLast?, x ∉ word) :
    splitOnce word (a ++ word ++ b) = some (a, b) := by
  rw [splitOnce, findSub_append_of_last ha hlast, Option.map_some, List.drop_left' (by simp),
    List.append_assoc, List.take_left]

/-- **What was joined is split again.** -/
theorem splitAt_append (ha : ¬ Occurs word a) (hlast : ∀ x ∈ a.getLast?, x ∉ word) :
    splitAt word hword (a ++ word ++ b) = a :: splitAt word hword b := by
  rw [splitAt]
  split
  · next hfind =>
    rw [findSub_append_of_last ha hlast] at hfind
    cases hfind
  · next i hfind =>
    rw [findSub_append_of_last ha hlast] at hfind
    obtain rfl := Option.some.inj hfind
    rw [List.drop_left' (by simp), List.append_assoc, List.take_left]

/-- **No piece has the word in it.** -/
theorem not_occurs_of_mem (h : a ∈ splitAt word hword l) : ¬ Occurs word a := by
  induction l using splitAt.induct word hword with
  | case1 l hfind =>
    rw [splitAt_of_not_occurs (findSub_eq_none.1 hfind)] at h
    rw [List.mem_singleton.1 h]
    exact findSub_eq_none.1 hfind
  | case2 l i hfind ih =>
    rw [splitAt] at h
    split at h
    · next hnone =>
      rw [hfind] at hnone
      cases hnone
    · next j hsome =>
      obtain rfl := Option.some.inj (hsome.symm.trans hfind)
      rcases List.mem_cons.1 h with rfl | h
      · rintro ⟨u, v, heq⟩
        -- an occurrence before the first one
        obtain ⟨u', v', -, -, hmin⟩ := findSub_eq_some_iff.1 hfind
        have hle := hmin u (v ++ l.drop j) (by
          calc l = l.take j ++ l.drop j := (List.take_append_drop j l).symm
            _ = u ++ word ++ (v ++ l.drop j) := by rw [← heq, List.append_assoc (u ++ word)])
        have hlength := congrArg List.length heq
        have hpos := List.length_pos_iff.2 hword
        simp only [List.length_append, List.length_take] at hlength
        omega
      · exact ih h

end Splitting
