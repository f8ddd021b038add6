import SqrzlEmulator.Data.Percent

/-!
# Percent-decoding

The bytes of a text whose escapes are resolved (`unescape`), and the text that they encode, if they
are UTF-8 (`percentDecode`). What is not an escape stands for its own bytes.

**Whatever was encoded is decoded again** (`percentDecode_percentEncode`), for all texts and not only
for ASCII ones, as long as only ASCII characters are kept. A slash separates what is decoded
(`percentDecode_slash`): no character but the slash itself has its byte in UTF-8
(`eq_of_slash_mem`), so bytes can be cut at it (`utf8_eq_append_slash`).
-/

namespace Percent

variable {c : Char} {s t u : List Char} {keep : Char → Bool}

/-! ### Bytes of characters -/

theorem utf8_cons : utf8 (c :: t) = String.utf8EncodeChar c ++ utf8 t := rfl

theorem utf8_append : utf8 (s ++ t) = utf8 s ++ utf8 t := List.flatMap_append

/-- An ASCII character is a single byte. -/
theorem utf8EncodeChar_ascii (h : c.toNat < 128) :
    String.utf8EncodeChar c = [UInt8.ofNat c.toNat] := by
  rw [String.utf8EncodeChar]
  exact if_pos (Nat.le_of_lt_succ h)

theorem utf8EncodeChar_slash : String.utf8EncodeChar '/' = [47] := by decide

theorem utf8EncodeChar_ne_nil (c : Char) : String.utf8EncodeChar c ≠ [] := by
  intro h
  have hlength := String.length_utf8EncodeChar c
  rw [h] at hlength
  exact absurd hlength.symm (Nat.pos_iff_ne_zero.1 (Char.utf8Size_pos c))

theorem utf8_eq_nil (h : utf8 t = []) : t = [] := by
  cases t with
  | nil => rfl
  | cons c t => exact absurd (List.append_eq_nil_iff.1 h).1 (utf8EncodeChar_ne_nil c)

/-- **An ASCII byte belongs to an ASCII character**: the bytes of longer encodings have their
highest bit set. -/
theorem toNat_eq_of_mem {b : UInt8} (hb : b.toNat < 128) (h : b ∈ String.utf8EncodeChar c) :
    c.toNat = b.toNat := by
  have hof : ∀ n, n < 256 → b = UInt8.ofNat n → n = b.toNat := fun n hn heq ↦ by
    have := congrArg UInt8.toNat heq
    rw [UInt8.toNat_ofNat_of_lt' hn] at this
    exact this.symm
  simp only [String.utf8EncodeChar] at h
  split at h
  · next hle =>
    show c.val.toNat = b.toNat
    exact hof _ (by omega) (List.mem_singleton.1 h)
  · split at h
    · simp only [List.mem_cons, List.not_mem_nil, or_false] at h
      rcases h with h | h <;>
      · have := hof _ (by omega) h
        omega
    · split at h
      · simp only [List.mem_cons, List.not_mem_nil, or_false] at h
        rcases h with h | h | h <;>
        · have := hof _ (by omega) h
          omega
      · simp only [List.mem_cons, List.not_mem_nil, or_false] at h
        rcases h with h | h | h | h <;>
        · have := hof _ (by omega) h
          omega

/-- The byte of a slash belongs to a slash. -/
theorem eq_of_slash_mem (h : (47 : UInt8) ∈ String.utf8EncodeChar c) : c = '/' :=
  Char.ext (UInt32.toNat_inj.1 (toNat_eq_of_mem (by decide) h))

/-- Bytes are cut at a slash where the text is. -/
theorem utf8_eq_append_slash {a b : List UInt8} (h : utf8 u = a ++ 47 :: b) :
    ∃ s t, u = s ++ '/' :: t ∧ utf8 s = a ∧ utf8 t = b := by
  induction u generalizing a with
  | nil => simp [utf8] at h
  | cons c u ih =>
    rw [utf8_cons, List.append_eq_append_iff] at h
    rcases h with ⟨rest, rfl, hrest⟩ | ⟨rest, hc, hrest⟩
    · obtain ⟨s, t, rfl, rfl, rfl⟩ := ih hrest
      exact ⟨c :: s, t, rfl, rfl, rfl⟩
    · cases rest with
      | nil =>
        obtain ⟨s, t, rfl, hs, rfl⟩ := ih (a := []) hrest.symm
        refine ⟨c :: s, t, rfl, ?_, rfl⟩
        rw [utf8_cons, hs, hc, List.append_nil, List.append_nil]
      | cons x rest =>
        obtain ⟨rfl, hb⟩ := List.cons_eq_cons.1 hrest
        -- the byte is one of this character
        obtain rfl := eq_of_slash_mem (c := c) (by simp [hc])
        rw [utf8EncodeChar_slash] at hc
        have hlength := congrArg List.length hc
        simp only [List.length_append, List.length_cons, List.length_nil] at hlength
        obtain rfl := List.eq_nil_of_length_eq_zero (show a.length = 0 by omega)
        obtain rfl := List.eq_nil_of_length_eq_zero (show rest.length = 0 by omega)
        exact ⟨[], u, rfl, rfl, hb.symm⟩

/-- The text whose bytes these are: `String::from_utf8`. -/
def fromUtf8 (bytes : List UInt8) : Option (List Char) :=
  bytes.toByteArray.utf8Decode?.map Array.toList

theorem fromUtf8_eq_some_iff {bytes : List UInt8} : fromUtf8 bytes = some u ↔ bytes = utf8 u := by
  have hbytes : ∀ {l l' : List UInt8}, l.toByteArray = l'.toByteArray → l = l' := fun h ↦ by
    simpa using congrArg (fun bytes : ByteArray ↦ bytes.data.toList) h
  rw [fromUtf8, Option.map_eq_some_iff]
  constructor
  · rintro ⟨chars, hchars, rfl⟩
    have hget := @ByteArray.utf8Encode_get_utf8Decode? _ (Option.isSome_of_eq_some hchars)
    rw [Option.get_of_eq_some _ hchars] at hget
    exact hbytes hget.symm
  · intro h
    have hencode : bytes.toByteArray = u.utf8Encode := by
      rw [h]
      rfl
    refine ⟨u.toArray, ?_, rfl⟩
    rw [hencode, List.utf8Decode?_utf8Encode]

/-! ### Decoding -/

/-- The bytes of a text, escapes resolved. -/
def unescape : List Char → List UInt8
  | [] => []
  | '%' :: a :: b :: t =>
    match hexValue a, hexValue b with
    | some m, some n => UInt8.ofNat (16 * m + n) :: unescape t
    | _, _ => String.utf8EncodeChar '%' ++ unescape (a :: b :: t)
  | c :: t => String.utf8EncodeChar c ++ unescape t

/-- The text whose escapes these are. -/
def percentDecode (t : List Char) : Option (List Char) := fromUtf8 (unescape t)

theorem percentDecode_eq_some_iff : percentDecode t = some u ↔ unescape t = utf8 u :=
  fromUtf8_eq_some_iff

/-- What is no escape stands for its bytes. -/
theorem unescape_literal
    (h : ∀ a b u m n, c = '%' → t = a :: b :: u → hexValue a = some m → hexValue b ≠ some n) :
    unescape (c :: t) = String.utf8EncodeChar c ++ unescape t := by
  by_cases hescape : ∃ a b u, c = '%' ∧ t = a :: b :: u
  · obtain ⟨a, b, u, rfl, rfl⟩ := hescape
    rw [unescape]
    split
    · next m n hm hn => exact absurd hn (h a b u m n rfl rfl hm)
    · rfl
  · rw [unescape]
    rintro a b u rfl rfl
    exact hescape ⟨a, b, u, rfl, rfl⟩

theorem unescape_of_ne (hc : c ≠ '%') : unescape (c :: t) = String.utf8EncodeChar c ++ unescape t :=
  unescape_literal fun _ _ _ _ _ h ↦ absurd h hc

theorem unescape_plain (h : '%' ∉ t) : unescape t = utf8 t := by
  induction t with
  | nil => rfl
  | cons c t ih =>
    rw [unescape_of_ne fun heq ↦ h (by simp [heq]), ih fun ht ↦ h (by simp [ht])]
    rfl

theorem percentDecode_plain (h : '%' ∉ t) : percentDecode t = some t :=
  percentDecode_eq_some_iff.2 (unescape_plain h)

theorem percentDecode_eq_nil (h : percentDecode t = some []) : t = [] := by
  have hbytes : unescape t = [] := percentDecode_eq_some_iff.1 h
  clear h
  fun_cases unescape t with
  | case1 => rfl
  | case2 a b t m n hm hn =>
    rw [unescape, hm, hn] at hbytes
    exact absurd hbytes (List.cons_ne_nil _ _)
  | case3 a b t hno =>
    rw [unescape_literal fun a' b' t' m n _ heq hm hn ↦ by
      obtain ⟨rfl, rfl, rfl⟩ : a = a' ∧ b = b' ∧ t = t' := by simpa using heq
      exact hno m n hm hn] at hbytes
    exact absurd (List.append_eq_nil_iff.1 hbytes).1 (utf8EncodeChar_ne_nil _)
  | case4 c t hno =>
    rw [unescape_literal fun a b u m n hc ht ↦ absurd ht (hno a b u hc)] at hbytes
    exact absurd (List.append_eq_nil_iff.1 hbytes).1 (utf8EncodeChar_ne_nil _)

/-- No escape goes over a slash. -/
theorem unescape_slash (s t : List Char) :
    unescape (s ++ '/' :: t) = unescape s ++ 47 :: unescape t := by
  have hslash : ∀ n, hexValue '/' ≠ some n := fun n h ↦ by
    rw [show hexValue '/' = none from by decide] at h
    cases h
  fun_induction unescape s with
  | case1 =>
    rw [List.nil_append, unescape_of_ne (by decide), utf8EncodeChar_slash]
    rfl
  | case2 a b u m n hm hn ih =>
    simp only [List.cons_append, unescape, hm, hn, ih]
  | case3 a b u hno ih =>
    rw [List.cons_append, unescape_literal, ih, List.append_assoc]
    intro a' b' u' m n _ heq hm hn
    obtain ⟨rfl, rfl, -⟩ : a = a' ∧ b = b' ∧ _ := by simpa using heq
    exact hno m n hm hn
  | case4 c u hno ih =>
    rw [List.cons_append, unescape_literal, ih, List.append_assoc]
    -- an escape would go over the slash
    rintro a b v m n rfl hv hm hn
    rcases u with _ | ⟨d, _ | ⟨e, w⟩⟩
    · obtain ⟨rfl, -⟩ := List.cons_eq_cons.1 hv
      exact hslash m hm
    · obtain ⟨-, hv⟩ := List.cons_eq_cons.1 hv
      obtain ⟨rfl, -⟩ := List.cons_eq_cons.1 hv
      exact hslash n hn
    · exact hno d e w rfl rfl

theorem percentDecode_slash (s t : List Char) : percentDecode (s ++ '/' :: t) =
    (percentDecode s).bind fun s' ↦ (percentDecode t).map fun t' ↦ s' ++ '/' :: t' := by
  refine Option.ext fun u ↦ ?_
  rw [percentDecode_eq_some_iff, unescape_slash, Option.bind_eq_some_iff]
  constructor
  · intro h
    obtain ⟨s', t', rfl, hs, ht⟩ := utf8_eq_append_slash h.symm
    refine ⟨s', percentDecode_eq_some_iff.2 hs.symm, Option.map_eq_some_iff.2 ⟨t', ?_, rfl⟩⟩
    exact percentDecode_eq_some_iff.2 ht.symm
  · rintro ⟨s', hs, h⟩
    obtain ⟨t', ht, rfl⟩ := Option.map_eq_some_iff.1 h
    rw [percentDecode_eq_some_iff.1 hs, percentDecode_eq_some_iff.1 ht, utf8_append, utf8_cons,
      utf8EncodeChar_slash]
    rfl

/-! ### The round trip -/

theorem hexValue_hexDigit : ∀ n < 16, hexValue (hexDigit n) = some n := by decide

/-- An encoded byte is read as that byte. -/
theorem unescape_percentByte (hkeep : ∀ c, keep c = true → c ≠ '%' ∧ c.toNat < 128) (b : UInt8) :
    unescape (percentByte keep b ++ t) = b :: unescape t := by
  have hlt := b.toNat_lt
  rw [percentByte]
  split
  · next hkept =>
    obtain ⟨hne, hascii⟩ := hkeep _ hkept
    rw [List.singleton_append, unescape_of_ne hne, utf8EncodeChar_ascii hascii, toNat_ofNat _ hlt,
      UInt8.ofNat_toNat]
    rfl
  · show unescape ('%' :: hexDigit (b.toNat / 16) :: hexDigit (b.toNat % 16) :: t) = _
    rw [unescape, hexValue_hexDigit _ (by omega), hexValue_hexDigit _ (by omega)]
    show UInt8.ofNat (16 * (b.toNat / 16) + b.toNat % 16) :: unescape t = _
    rw [Nat.div_add_mod, UInt8.ofNat_toNat]

/-- What is kept is written as itself. -/
theorem percentEncode_of_kept (hkeep : ∀ c, keep c = true → c ≠ '%' ∧ c.toNat < 128)
    (h : ∀ c ∈ t, keep c = true) : percentEncode keep t = t := by
  induction t with
  | nil => rfl
  | cons c t ih =>
    have hkept := h c List.mem_cons_self
    have hascii := (hkeep c hkept).2
    have hbyte : Char.ofNat (UInt8.ofNat c.toNat).toNat = c := by
      rw [UInt8.toNat_ofNat_of_lt' (Nat.lt_trans hascii (by decide)), Char.ofNat_toNat]
    rw [percentEncode, utf8_cons, utf8EncodeChar_ascii hascii, List.singleton_append,
      List.flatMap_cons, percentByte, hbyte, if_pos hkept, List.singleton_append]
    exact congrArg (c :: ·) (ih fun d hd ↦ h d (List.mem_cons_of_mem c hd))

/-- **What was encoded is decoded again.** -/
theorem percentDecode_percentEncode (hkeep : ∀ c, keep c = true → c ≠ '%' ∧ c.toNat < 128)
    (t : List Char) : percentDecode (percentEncode keep t) = some t := by
  have hbytes : ∀ bytes : List UInt8, unescape (bytes.flatMap (percentByte keep)) = bytes := by
    intro bytes
    induction bytes with
    | nil => rfl
    | cons b bytes ih => rw [List.flatMap_cons, unescape_percentByte hkeep, ih]
  exact percentDecode_eq_some_iff.2 (hbytes (utf8 t))

end Percent
