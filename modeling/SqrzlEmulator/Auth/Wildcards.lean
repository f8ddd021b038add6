import SqrzlEmulator.Auth.Policy
import SqrzlEmulator.Data.Glob

/-!
# Wildcards in conditions

The matcher of `StringLike` and `ArnLike` (`models/policy.rs`). It walks along the pattern and the
value, remembers the last star, and on a mismatch lets that star take one more character.

## What it decides

The loop compares characters **before** it looks for a star, and so a `*` of the pattern that meets
a `*` in the value is taken for that character, and is not remembered. What it decides is therefore
not the language of the pattern but the smaller one of the splits that face
(`wildcardMatch_iff_facing`): no value is accepted that the pattern does not match, and a value is
missed exactly when some star of it would have to be part of a longer, or an empty, stretch in every
split. **A value without a star is never missed**, and `*` alone misses `*a`.
-/

namespace Sqrzl.Auth

section Loop

variable {after tried pattern rest : Text} {c v : Char}

/-- What the loop does where the star has to take one more character. -/
def retryFrom (after tried : Text) : Bool :=
  match tried with
  | [] => false
  | _ :: tried => wildcardFrom after tried after tried (length_le_length after)

theorem wildcardFrom_end (hle : pattern.length ≤ after.length) :
    wildcardFrom after tried pattern [] hle = pattern.all (· = '*') := by
  rw [wildcardFrom.eq_def]

theorem wildcardFrom_exhausted (hle : ([] : Text).length ≤ after.length) :
    wildcardFrom after tried [] (v :: rest) hle = retryFrom after tried := by
  rw [wildcardFrom.eq_def]
  rfl

theorem wildcardFrom_meets (h : Meets '?' c v) (hle : (c :: pattern).length ≤ after.length) :
    wildcardFrom after tried (c :: pattern) (v :: rest) hle =
      wildcardFrom after tried pattern rest (length_le_of_cons hle) := by
  rw [wildcardFrom.eq_def]
  exact if_pos (by simpa [Meets] using h)

theorem wildcardFrom_star (h : ¬ Meets '?' '*' v) (hle : ('*' :: pattern).length ≤ after.length) :
    wildcardFrom after tried ('*' :: pattern) (v :: rest) hle =
      wildcardFrom pattern (v :: rest) pattern (v :: rest) (length_le_length pattern) := by
  rw [wildcardFrom.eq_def]
  exact (if_neg (by simpa [Meets] using h)).trans (if_pos rfl)

theorem wildcardFrom_retry (h : ¬ Meets '?' c v) (hstar : c ≠ '*')
    (hle : (c :: pattern).length ≤ after.length) :
    wildcardFrom after tried (c :: pattern) (v :: rest) hle = retryFrom after tried := by
  rw [wildcardFrom.eq_def]
  exact (if_neg (by simpa [Meets] using h)).trans (if_neg hstar)

end Loop

theorem all_star_iff {pattern : Text} :
    pattern.all (· = '*') = true ↔ Facing '?' '*' pattern [] := by
  simp only [facing_nil_right, List.all_eq_true, decide_eq_true_eq]

theorem one_ne_many : '?' ≠ '*' := by decide

/-- A star stands for some stretch of what is left. -/
def Reaches (after tried : Text) : Prop := ∃ x, x <:+ tried ∧ Facing '?' '*' after x

/-- A start that fails can be left out. -/
theorem reaches_cons {after tried : Text} {t : Char} (h : ¬ Facing '?' '*' after (t :: tried)) :
    Reaches after (t :: tried) ↔ Reaches after tried := by
  constructor
  · rintro ⟨x, hx, hf⟩
    rcases List.suffix_cons_iff.1 hx with rfl | hx
    · exact absurd hf h
    · exact ⟨x, hx, hf⟩
  · rintro ⟨x, hx, hf⟩
    exact ⟨x, hx.trans (List.suffix_cons t tried), hf⟩

/-- The stretch of the pattern that has been matched can be gone through again. -/
theorem reaches_iff {seg w pattern value : Text} (hw : List.Forall₂ (Meets '?') seg w)
    (hvalue : value.head? ≠ some '*') :
    Reaches (seg ++ '*' :: pattern) (w ++ value) ↔ Reaches pattern value := by
  rw [Reaches, Reaches, ← facing_many hvalue one_ne_many]
  constructor
  · rintro ⟨x, hx, hf⟩
    obtain ⟨y, hy, hf⟩ := hf.of_skip one_ne_many hw hx
    exact hf.extend one_ne_many hy hvalue
  · intro hf
    exact ⟨w ++ value, List.suffix_rfl, (facing_append one_ne_many hw).2 hf⟩

theorem reaches_end_iff {seg w pattern : Text} (hw : List.Forall₂ (Meets '?') seg w) :
    Reaches (seg ++ pattern) w ↔ Facing '?' '*' pattern [] := by
  constructor
  · rintro ⟨x, hx, hf⟩
    obtain ⟨y, hy, hf⟩ := hf.of_skip one_ne_many hw (v := []) (by simpa using hx)
    rwa [List.suffix_nil.1 hy] at hf
  · intro hf
    refine ⟨w, List.suffix_rfl, ?_⟩
    rw [← facing_append one_ne_many hw] at hf
    simpa using hf

section Loop

variable {after tried : Text}

/-- **The loop between two stars.** The pattern has been matched letter by letter from where the
star was last tried, and shorter attempts are decided already. -/
theorem wildcardFrom_stretch
    (hretry : ∀ t tail, tried = t :: tail → (retryFrom after tried = true ↔ Reaches after tail))
    (hstar : ∀ pattern value : Text, pattern.length < after.length →
      (wildcardFrom pattern value pattern value (length_le_length pattern) = true ↔
        Reaches pattern value))
    (seg w pattern value : Text) (hle : pattern.length ≤ after.length)
    (hw : List.Forall₂ (Meets '?') seg w) (hafter : after = seg ++ pattern)
    (htried : tried = w ++ value) :
    wildcardFrom after tried pattern value hle = true ↔ Reaches after tried := by
  have retry : value ≠ [] → ¬ Facing '?' '*' pattern value →
      (retryFrom after tried = true ↔ Reaches after tried) := by
    intro hvalue hno
    obtain ⟨t, tail, hcons⟩ : ∃ t tail, tried = t :: tail :=
      List.exists_cons_of_ne_nil (by simp [htried, hvalue])
    rw [hretry t tail hcons, hcons, reaches_cons]
    rwa [← hcons, hafter, htried, facing_append one_ne_many hw]
  induction pattern generalizing seg w value with
  | nil =>
    cases value with
    | nil =>
      rw [wildcardFrom_end, all_star_iff, hafter, htried, List.append_nil w, reaches_end_iff hw]
    | cons v rest =>
      rw [wildcardFrom_exhausted]
      exact retry (List.cons_ne_nil v rest) (by simp [facing_nil_left])
  | cons c pattern ih =>
    cases value with
    | nil =>
      rw [wildcardFrom_end, all_star_iff, hafter, htried, List.append_nil w, reaches_end_iff hw]
    | cons v rest =>
      by_cases hmeets : Meets '?' c v
      · have hw' := List.rel_append hw (.cons hmeets .nil)
        rw [wildcardFrom_meets hmeets]
        refine ih (seg ++ [c]) (w ++ [v]) rest _ hw' (by simp [hafter]) (by simp [htried]) ?_
        intro hrest hno
        exact retry (List.cons_ne_nil v rest) (by rwa [facing_meets one_ne_many hmeets])
      · by_cases hc : c = '*'
        · subst hc
          have hhead : (v :: rest).head? ≠ some '*' := fun h ↦
            hmeets (.inr (Option.some.inj h).symm)
          rw [wildcardFrom_star hmeets, hafter, htried, reaches_iff hw hhead]
          exact hstar pattern (v :: rest) hle
        · rw [wildcardFrom_retry hmeets hc]
          exact retry (List.cons_ne_nil v rest) (not_facing_of_not_meets hc hmeets)

end Loop

/-- **The loop behind a star** decides whether the star can take any stretch. -/
theorem wildcardFrom_iff (after tried : Text) :
    wildcardFrom after tried after tried (length_le_length after) = true ↔
      Reaches after tried := by
  induction hn : after.length using Nat.strong_induction_on generalizing after tried with
  | h n ihn =>
    induction tried with
    | nil =>
      refine wildcardFrom_stretch (fun t tail h ↦ absurd h (by simp)) ?_ [] [] after [] _ .nil rfl rfl
      exact fun pattern value hlt ↦ ihn _ (hn ▸ hlt) pattern value rfl
    | cons t tail iht =>
      refine wildcardFrom_stretch ?_ ?_ [] [] after (t :: tail) _ .nil rfl rfl
      · intro t' tail' h
        obtain ⟨rfl, rfl⟩ := List.cons.inj h
        exact iht
      · exact fun pattern value hlt ↦ ihn _ (hn ▸ hlt) pattern value rfl

/-- **What the matcher decides**: whether the value has a split that faces. -/
theorem wildcardMatch_iff_facing (pattern value : Text) :
    wildcardMatch pattern value = true ↔ Facing '?' '*' pattern value := by
  fun_induction wildcardMatch pattern value with
  | case1 pattern => exact all_star_iff
  | case2 v rest => simp [facing_nil_left]
  | case3 c pattern v rest h ih =>
    rw [ih, facing_meets one_ne_many (by simpa [Meets] using h)]
  | case4 pattern v rest h =>
    have hhead : (v :: rest).head? ≠ some '*' := fun hv ↦ h (by simp [Option.some.inj hv])
    rw [wildcardFrom_iff, facing_many hhead one_ne_many]
    rfl
  | case5 c pattern v rest hmeets hstar =>
    have hno : ¬ Meets '?' c v := by simpa [Meets] using hmeets
    simp [not_facing_of_not_meets hstar hno]

/-- **When the matcher is a glob matcher**: whenever the value cannot be split along the pattern at
all, or can be split so that every star of the pattern that faces a star of the value stands for
exactly that star. -/
theorem wildcard_match_is_glob_iff (pattern value : Text) :
    (wildcardMatch pattern value = true ↔ Glob '?' '*' pattern value) ↔
      (Glob '?' '*' pattern value → Facing '?' '*' pattern value) := by
  rw [wildcardMatch_iff_facing]
  exact ⟨fun h ↦ h.2, fun h ↦ ⟨Facing.glob, h⟩⟩

/-- The pattern `*` stands for every value, and misses `*a`. -/
theorem star_misses_value : ¬ (wildcardMatch ['*'] ['*', 'a'] = true ↔
    Glob '?' '*' ['*'] ['*', 'a']) := by
  intro h
  exact absurd (h.2 (Glob.many ['*', 'a'] .nil)) (by decide)

end Sqrzl.Auth
