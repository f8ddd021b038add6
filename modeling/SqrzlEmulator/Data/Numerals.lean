import SqrzlEmulator.Data.Texts
import Mathlib.Data.List.TakeWhile

/-!
# Numerals in texts

What the parsers of numbers accept, as a statement about the characters of a text: a numeral is a
text of at least one digit, and nothing else. The parser of the standard library also takes a sign
in front of it, so that `parseU64_eq_some_iff` is about texts without one.
-/

namespace Sqrzl

variable {c : Char} {s a b ds : Text} {n : ℕ}

/-- A text of digits, and its value. -/
def Numeral (ds : Text) (n : ℕ) : Prop :=
  ds ≠ [] ∧ ds.all Char.isDigit ∧ ds.foldl (fun n c ↦ 10 * n + (c.toNat - '0'.toNat)) 0 = n

theorem Numeral.ne_nil (h : Numeral ds n) : ds ≠ [] := h.1

/-- Only digits occur in a numeral. -/
theorem Numeral.notMem (h : Numeral ds n) (hc : c.isDigit = false) : c ∉ ds := by
  intro hmem
  have hdigit := List.all_eq_true.1 h.2.1 c hmem
  rw [hc] at hdigit
  cases hdigit

/-- **A number is read from its numerals**, in front of which there may be a plus sign. -/
theorem parseU64_eq_some_iff (hplus : '+' ∉ ds) :
    parseU64 (String.ofList ds) = some n ↔ Numeral ds n ∧ n < 2 ^ 64 := by
  have hdigits : parseU64 (String.ofList ds) =
      if ds.isEmpty || !ds.all Char.isDigit then none
      else if ds.foldl (fun n c ↦ 10 * n + (c.toNat - '0'.toNat)) 0 < 2 ^ 64 then
        some (ds.foldl (fun n c ↦ 10 * n + (c.toNat - '0'.toNat)) 0)
      else none := by
    unfold parseU64
    rw [String.toList_ofList]
    split
    · exact absurd List.mem_cons_self hplus
    · rfl
  rw [hdigits, Numeral]
  cases hempty : ds.isEmpty with
  | true => simp [List.isEmpty_iff.1 hempty]
  | false =>
    have hne : ds ≠ [] := fun h ↦ by simp [h] at hempty
    cases ds.all Char.isDigit with
    | false => simp
    | true =>
      generalize ds.foldl (fun n c ↦ 10 * n + (c.toNat - '0'.toNat)) 0 = m
      simp only [Bool.not_true, Bool.or_self, Bool.false_eq_true, if_false, ne_eq, hne,
        not_false_eq_true, true_and]
      by_cases hlt : m < 2 ^ 64
      · rw [if_pos hlt, Option.some.injEq]
        exact ⟨fun h ↦ ⟨h, h ▸ hlt⟩, fun h ↦ h.1⟩
      · rw [if_neg hlt]
        exact ⟨fun h ↦ (by cases h), fun h ↦ absurd (h.1 ▸ h.2) hlt⟩

theorem append_of_mem (h : c ∈ s) :
    s.takeWhile (· ≠ c) ++ c :: (s.dropWhile (· ≠ c)).drop 1 = s := by
  induction s with
  | nil => cases h
  | cons x s ih =>
    by_cases hx : x = c
    · subst hx
      simp
    · have hmem : c ∈ s := (List.mem_cons.1 h).resolve_left (Ne.symm hx)
      rw [List.takeWhile_cons_of_pos (by simpa using hx),
        List.dropWhile_cons_of_pos (by simpa using hx), List.cons_append, ih hmem]

/-- **A text is split at the first occurrence of a character.** -/
theorem splitOnce_eq_some_iff : splitOnce c s = some (a, b) ↔ c ∉ a ∧ s = a ++ c :: b := by
  unfold splitOnce
  constructor
  · intro h
    split at h
    · next hmem =>
      obtain ⟨rfl, rfl⟩ := Prod.mk.inj (Option.some.inj h)
      refine ⟨fun hc ↦ ?_, (append_of_mem hmem).symm⟩
      simpa using List.mem_takeWhile_imp hc
    · cases h
  · rintro ⟨ha, rfl⟩
    have hpos : ∀ x ∈ a, decide (x ≠ c) = true := fun x hx ↦
      decide_eq_true fun h ↦ ha (h ▸ hx)
    rw [if_pos (by simp), List.takeWhile_append_of_pos hpos, List.dropWhile_append_of_pos hpos,
      List.takeWhile_cons_of_neg (by simp), List.dropWhile_cons_of_neg (by simp)]
    simp

end Sqrzl
