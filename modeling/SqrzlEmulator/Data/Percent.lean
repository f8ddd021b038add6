import Mathlib.Algebra.Ring.Nat
import Mathlib.Data.Char
import Mathlib.Data.List.Basic

/-!
# Percent-encoding and joined texts

A text is encoded byte by byte: a byte that is to be kept stands for itself, any other is written as
`%` and two hexadecimal digits. **The encoding is injective** whatever is kept, as long as `%` is
not (`percentEncode_injective`), and it uses no other characters than these (`mem_percentEncode`).

A list of texts that do not contain a separator is determined by their join (`join_injective`), and
so are the two parts of a text around the first separator (`append_cons_inj`).

`asciiDecode` decodes the escapes of ASCII characters, and can be applied to the parts between two
slashes one by one (`asciiDecode_slash`).
-/

-- What holds of all characters of a text is decided along the text, not for all characters.
attribute [instance (high)] List.decidableBAll

namespace Percent

/-! ### Texts and bytes -/

/-- The bytes of a text. -/
def utf8 (t : List Char) : List UInt8 := t.flatMap String.utf8EncodeChar

/-- A character is written as one byte at least. -/
theorem length_le_utf8 (t : List Char) : t.length ≤ (utf8 t).length := by
  induction t with
  | nil => exact Nat.le_refl 0
  | cons c t ih =>
    have hpos : 0 < (String.utf8EncodeChar c).length := by
      rw [String.length_utf8EncodeChar]
      exact Char.utf8Size_pos c
    rw [utf8, List.flatMap_cons, List.length_append, List.length_cons]
    rw [utf8] at ih
    omega

theorem utf8_injective : Function.Injective utf8 := by
  intro s t h
  have hbytes : s.utf8Encode = t.utf8Encode := congrArg List.toByteArray h
  have hdecoded := congrArg ByteArray.utf8Decode? hbytes
  rw [List.utf8Decode?_utf8Encode, List.utf8Decode?_utf8Encode] at hdecoded
  exact List.toArray_inj (Option.some.inj hdecoded)

/-! ### The encoding -/

/-- An upper-case hexadecimal digit. -/
def hexDigit (n : ℕ) : Char := if n < 10 then Char.ofNat (48 + n) else Char.ofNat (55 + n)

theorem hexDigit_inj : ∀ m < 16, ∀ n < 16, hexDigit m = hexDigit n → m = n := by decide

variable {keep : Char → Bool}

/-- A byte that is kept, or its two digits. -/
def percentByte (keep : Char → Bool) (b : UInt8) : List Char :=
  if keep (Char.ofNat b.toNat) then [Char.ofNat b.toNat]
  else ['%', hexDigit (b.toNat / 16), hexDigit (b.toNat % 16)]

/-- The text with an escape for each byte of a character that is not kept. -/
def percentEncode (keep : Char → Bool) (t : List Char) : List Char :=
  (utf8 t).flatMap (percentByte keep)

theorem toNat_ofNat : ∀ n < 256, (Char.ofNat n).toNat = n := by decide +kernel

theorem ofNat_toNat_inj {b b' : UInt8} (h : Char.ofNat b.toNat = Char.ofNat b'.toNat) : b = b' := by
  refine UInt8.toNat_inj.1 ?_
  rw [← toNat_ofNat _ b.toNat_lt, h, toNat_ofNat _ b'.toNat_lt]

/-- The first byte of a text can be read off. -/
theorem percentByte_append_inj (hkeep : keep '%' = false) {b b' : UInt8} {s s' : List Char}
    (h : percentByte keep b ++ s = percentByte keep b' ++ s') : b = b' ∧ s = s' := by
  have hne : ∀ {b : UInt8}, keep (Char.ofNat b.toNat) = true → Char.ofNat b.toNat ≠ '%' := by
    intro b hb heq
    rw [heq, hkeep] at hb
    cases hb
  unfold percentByte at h
  split at h <;> split at h
  · obtain ⟨hc, hs⟩ := List.cons_eq_cons.1 h
    exact ⟨ofNat_toNat_inj hc, hs⟩
  · next hb _ => exact absurd (List.cons_eq_cons.1 h).1 (hne hb)
  · next _ hb => exact absurd (List.cons_eq_cons.1 h).1.symm (hne hb)
  · simp only [List.cons_append, List.nil_append, List.cons.injEq, true_and] at h
    obtain ⟨hhigh, hlow, hs⟩ := h
    have hlt := b.toNat_lt
    have hlt' := b'.toNat_lt
    have hdiv := hexDigit_inj _ (by omega) _ (by omega) hhigh
    have hmod := hexDigit_inj _ (by omega) _ (by omega) hlow
    exact ⟨UInt8.toNat_inj.1 (by omega), hs⟩

theorem percentByte_ne_nil (b : UInt8) : percentByte keep b ≠ [] := by
  unfold percentByte
  split <;> simp

/-- **Percent-encoding is injective.** -/
theorem percentEncode_injective (hkeep : keep '%' = false) :
    Function.Injective (percentEncode keep) := by
  have hbytes : ∀ l l' : List UInt8,
      l.flatMap (percentByte keep) = l'.flatMap (percentByte keep) → l = l' := by
    intro l
    induction l with
    | nil =>
      rintro (- | ⟨b, l'⟩) h
      · rfl
      · rw [List.flatMap_nil, List.flatMap_cons] at h
        exact absurd (List.append_eq_nil_iff.1 h.symm).1 (percentByte_ne_nil b)
    | cons b l ih =>
      rintro (- | ⟨b', l'⟩) h
      · rw [List.flatMap_nil, List.flatMap_cons] at h
        exact absurd (List.append_eq_nil_iff.1 h).1 (percentByte_ne_nil b)
      · rw [List.flatMap_cons, List.flatMap_cons] at h
        obtain ⟨rfl, htail⟩ := percentByte_append_inj hkeep h
        rw [ih l' htail]
  exact fun s t h ↦ utf8_injective (hbytes _ _ h)

theorem hexDigit_mem : ∀ n < 16, hexDigit n ∈ "0123456789ABCDEF".toList := by decide

/-- Only what is kept, `%` and hexadecimal digits occur. -/
theorem mem_percentEncode {t : List Char} {c : Char} (h : c ∈ percentEncode keep t) :
    keep c = true ∨ c = '%' ∨ c ∈ "0123456789ABCDEF".toList := by
  obtain ⟨b, -, hb⟩ := List.mem_flatMap.1 h
  unfold percentByte at hb
  split at hb
  · next hk =>
    rw [List.mem_singleton.1 hb]
    exact .inl hk
  · have hlt := b.toNat_lt
    simp only [List.mem_cons, List.not_mem_nil, or_false] at hb
    rcases hb with rfl | rfl | rfl
    · exact .inr (.inl rfl)
    · exact .inr (.inr (hexDigit_mem _ (by omega)))
    · exact .inr (.inr (hexDigit_mem _ (by omega)))

/-! ### Joined texts -/

/-- Texts with a separator between them. -/
def join (sep : Char) (l : List (List Char)) : List Char := [sep].intercalate l

theorem join_injective {sep : Char} {l l' : List (List Char)} (hl : ∀ t ∈ l, sep ∉ t)
    (hl' : ∀ t ∈ l', sep ∉ t) (hne : l ≠ []) (hne' : l' ≠ []) (h : join sep l = join sep l') :
    l = l' := by
  rw [← List.splitOn_intercalate sep hl hne, ← List.splitOn_intercalate sep hl' hne']
  exact congrArg (List.splitOn sep) h

/-- A join within a join. -/
theorem join_join {sep : Char} {l l₁ l₂ : List (List Char)} (hne : l ≠ []) :
    join sep (l₁ ++ join sep l :: l₂) = join sep (l₁ ++ l ++ l₂) := by
  have hinner : ∀ l : List (List Char), l ≠ [] → join sep (join sep l :: l₂) = join sep (l ++ l₂) := by
    intro l hne
    induction l with
    | nil => exact absurd rfl hne
    | cons t l ih =>
      cases l with
      | nil => simp [join]
      | cons t' l =>
        have ih := ih (by simp)
        cases l₂ with
        | nil => simp [join]
        | cons u l₂ =>
          simp only [join, List.cons_append, List.intercalate_cons_cons, List.append_assoc] at ih ⊢
          rw [ih]
  induction l₁ with
  | nil => exact hinner l hne
  | cons t l₁ ih =>
    have hne' : l₁ ++ join sep l :: l₂ ≠ [] := by simp
    have hne'' : l₁ ++ l ++ l₂ ≠ [] := by simp [hne]
    have hcons : ∀ l' : List (List Char), l' ≠ [] → join sep (t :: l') = t ++ [sep] ++ join sep l' :=
      fun l' h ↦ by rw [join, join, List.intercalate_cons_of_ne_nil h]
    rw [List.cons_append, List.cons_append, List.cons_append, hcons _ hne', hcons _ hne'', ih]

/-- A map that tells the elements of two lists apart tells the lists apart. -/
theorem map_inj_on {α β : Type} {f : α → β} {l l' : List α}
    (hf : ∀ a ∈ l, ∀ b ∈ l', f a = f b → a = b) (h : l.map f = l'.map f) : l = l' := by
  induction l generalizing l' with
  | nil => exact (List.map_eq_nil_iff.1 h.symm).symm
  | cons a l ih =>
    cases l' with
    | nil => cases h
    | cons b l' =>
      obtain ⟨hhead, htail⟩ := List.cons_eq_cons.1 h
      rw [hf a (by simp) b (by simp) hhead,
        ih (fun x hx y hy ↦ hf x (by simp [hx]) y (by simp [hy])) htail]

theorem mem_join {sep c : Char} {l : List (List Char)} (h : c ∈ join sep l) :
    c = sep ∨ ∃ t ∈ l, c ∈ t := by
  induction l with
  | nil => simp [join] at h
  | cons t l ih =>
    cases l with
    | nil => exact .inr ⟨t, by simp, by simpa [join] using h⟩
    | cons t' l =>
      rw [join, List.intercalate_cons_cons] at h
      simp only [List.mem_append, List.mem_singleton] at h
      rcases h with (h | h) | h
      · exact .inr ⟨t, by simp, h⟩
      · exact .inl h
      · rcases ih h with h | ⟨u, hu, hc⟩
        · exact .inl h
        · exact .inr ⟨u, by simp [hu], hc⟩

/-- The parts of a split text do not contain what it is split at. -/
theorem not_of_mem_splitOnP {p : Char → Bool} {t word : List Char} (hword : word ∈ t.splitOnP p)
    {c : Char} (hc : c ∈ word) : p c = false := by
  induction t generalizing word with
  | nil =>
    rw [List.splitOnP_nil, List.mem_singleton] at hword
    rw [hword] at hc
    cases hc
  | cons x t ih =>
    rw [List.splitOnP_cons_eq_if_modifyHead] at hword
    split at hword
    · rcases List.mem_cons.1 hword with rfl | hword
      · cases hc
      · exact ih hword hc
    · next hx =>
      obtain ⟨head, rest, hsplit⟩ := List.exists_cons_of_ne_nil (List.splitOnP_ne_nil p t)
      rw [hsplit, List.modifyHead_cons] at hword
      rcases List.mem_cons.1 hword with rfl | hword
      · rcases List.mem_cons.1 hc with rfl | hc
        · simpa using hx
        · exact ih (by simp [hsplit]) hc
      · exact ih (by simp [hsplit, hword]) hc

/-- The part before the first separator. -/
theorem append_cons_inj {sep : Char} {s s' t t' : List Char} (hs : sep ∉ s) (hs' : sep ∉ s')
    (h : s ++ sep :: t = s' ++ sep :: t') : s = s' ∧ t = t' := by
  induction s generalizing s' with
  | nil =>
    cases s' with
    | nil => exact ⟨rfl, by simpa using h⟩
    | cons c s' => exact absurd (List.cons_eq_cons.1 h).1 fun heq ↦ hs' (by simp [heq])
  | cons c s ih =>
    cases s' with
    | nil => exact absurd (List.cons_eq_cons.1 h).1 fun heq ↦ hs (by simp [heq])
    | cons c' s' =>
      obtain ⟨rfl, htail⟩ := List.cons_eq_cons.1 h
      obtain ⟨rfl, rfl⟩ := ih (fun hm ↦ hs (by simp [hm])) (fun hm ↦ hs' (by simp [hm])) htail
      exact ⟨rfl, rfl⟩

/-! ### Decoding -/

/-- The value of a hexadecimal digit. -/
def hexValue (c : Char) : Option ℕ :=
  if c.isDigit then some (c.toNat - 48)
  else if 'a' ≤ c && c ≤ 'f' then some (c.toNat - 87)
  else if 'A' ≤ c && c ≤ 'F' then some (c.toNat - 55)
  else none

/-- A text with its escapes decoded, when they all are ASCII characters. What is no escape is
copied. -/
def asciiDecode : List Char → Option (List Char)
  | [] => some []
  | '%' :: a :: b :: t =>
    match hexValue a, hexValue b with
    | some m, some n =>
      if 16 * m + n < 128 then (asciiDecode t).map (Char.ofNat (16 * m + n) :: ·) else none
    | _, _ => (asciiDecode (a :: b :: t)).map ('%' :: ·)
  | c :: t => (asciiDecode t).map (c :: ·)

theorem asciiDecode_plain {t : List Char} (h : '%' ∉ t) : asciiDecode t = some t := by
  induction t with
  | nil => rfl
  | cons c t ih =>
    have hc : c ≠ '%' := fun heq ↦ h (by simp [heq])
    rw [asciiDecode, ih fun ht ↦ h (by simp [ht])]
    · rfl
    · rintro a b u rfl
      exact fun _ ↦ hc rfl

theorem asciiDecode_eq_nil {t : List Char} (h : asciiDecode t = some []) : t = [] := by
  fun_cases asciiDecode t with
  | _ => simp_all [asciiDecode]

/-- What is no escape is copied. -/
theorem asciiDecode_literal {c : Char} {t : List Char}
    (h : ∀ a b u m n, c = '%' → t = a :: b :: u → hexValue a = some m → hexValue b ≠ some n) :
    asciiDecode (c :: t) = (asciiDecode t).map (c :: ·) := by
  by_cases hescape : ∃ a b u, c = '%' ∧ t = a :: b :: u
  · obtain ⟨a, b, u, rfl, rfl⟩ := hescape
    rw [asciiDecode]
    split
    · next m n hm hn => exact absurd hn (h a b u m n rfl rfl hm)
    · rfl
  · rw [asciiDecode]
    rintro a b u rfl rfl
    exact hescape ⟨a, b, u, rfl, rfl⟩

theorem asciiDecode_slash (s t : List Char) : asciiDecode (s ++ '/' :: t) =
    (asciiDecode s).bind fun s' ↦ (asciiDecode t).map fun t' ↦ s' ++ '/' :: t' := by
  have hslash : ∀ n, hexValue '/' ≠ some n := nofun
  fun_induction asciiDecode s with
  | case1 => exact asciiDecode_literal fun a b u m n h ↦ absurd h (by decide)
  | case2 a b u m n hm hn hlt ih =>
    simp [asciiDecode, hm, hn, hlt, ih, Function.comp_def, Option.map_bind, Option.bind_map]
  | case3 a b u m n hm hn hlt => simp [asciiDecode, hm, hn, hlt]
  | case4 a b u hno ih =>
    rw [List.cons_append, asciiDecode_literal, ih]
    · simp [Function.comp_def, Option.map_bind, Option.bind_map]
    · rintro a' b' u' m n - ⟨⟩ hm hn
      exact hno m n hm hn
  | case5 c u hno ih =>
    rw [List.cons_append, asciiDecode_literal, ih]
    · simp [Function.comp_def, Option.map_bind, Option.bind_map]
    · -- an escape would go over the slash
      rintro a b v m n rfl hv hm hn
      rcases u with _ | ⟨d, _ | ⟨e, w⟩⟩
      · cases hv
        exact hslash m hm
      · cases hv
        exact hslash n hn
      · exact hno d e w rfl rfl

end Percent
