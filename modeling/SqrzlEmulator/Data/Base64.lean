import Mathlib.Algebra.Ring.Nat
import Mathlib.Data.List.Nodup

/-!
# Base64 for URLs

The encoder of the alphabet for URLs, without padding: three bytes are written as four digits of six
bits, and what is left over at the end as two or three. **Bytes can be told from their text**
(`encode_injective`), which has no slash (`slash_notMem_encode`) and is not shorter than they are
(`length_le_encode`).

The decoder refuses padding, and bits that are left over and not zero. **It accepts exactly what the
encoder writes** (`decode_eq_some_iff`).

A digest is written with two hexadecimal digits for each byte (`hexEncode`).
-/

namespace Base64

/-- The digits of the alphabet. -/
def alphabet : List Char :=
  "ABCDEFGHIJKLMNOPQRSTUVWXYZabcdefghijklmnopqrstuvwxyz0123456789-_".toList

theorem length_alphabet : alphabet.length = 64 := by decide

theorem nodup_alphabet : alphabet.Nodup := by decide

/-- The digit of a number below 64. -/
def digit (n : ℕ) : Char := alphabet[n]?.getD 'A'

theorem digit_inj {n m : ℕ} (hn : n < 64) (hm : m < 64) (h : digit n = digit m) : n = m := by
  rw [digit, digit, List.getElem?_eq_getElem (length_alphabet ▸ hn),
    List.getElem?_eq_getElem (length_alphabet ▸ hm)] at h
  exact (List.Nodup.getElem_inj_iff nodup_alphabet).1 h

theorem digit_ne_slash (n : ℕ) : digit n ≠ '/' := by
  have hslash : '/' ∉ alphabet := by decide
  rw [digit]
  cases h : alphabet[n]? with
  | none => decide
  | some c =>
    rintro rfl
    exact hslash (List.mem_of_getElem? h)

/-- `URL_SAFE_NO_PAD.encode` -/
def encode : List UInt8 → List Char
  | a :: b :: c :: rest =>
    digit (a.toNat / 4) :: digit (a.toNat % 4 * 16 + b.toNat / 16) ::
      digit (b.toNat % 16 * 4 + c.toNat / 64) :: digit (c.toNat % 64) :: encode rest
  | [a, b] =>
    [digit (a.toNat / 4), digit (a.toNat % 4 * 16 + b.toNat / 16), digit (b.toNat % 16 * 4)]
  | [a] => [digit (a.toNat / 4), digit (a.toNat % 4 * 16)]
  | [] => []

example : encode [0x62] = "Yg".toList := by decide

theorem slash_notMem_encode (bytes : List UInt8) : '/' ∉ encode bytes := by
  induction bytes using encode.induct with
  | case1 a b c rest ih => simp [encode, ih, (digit_ne_slash _).symm]
  | case2 a b => simp [encode, (digit_ne_slash _).symm]
  | case3 a => simp [encode, (digit_ne_slash _).symm]
  | case4 => simp [encode]

theorem length_le_encode (bytes : List UInt8) : bytes.length ≤ (encode bytes).length := by
  induction bytes using encode.induct with
  | case1 a b c rest ih => simp only [encode, List.length_cons]; omega
  | case2 a b => simp [encode]
  | case3 a => simp [encode]
  | case4 => exact Nat.le_refl 0

/-- The first digits of a text give its first byte. -/
theorem byte_eq {a a' : UInt8} (low low' : ℕ) (hlow : low < 16) (hlow' : low' < 16)
    (hhigh : digit (a.toNat / 4) = digit (a'.toNat / 4))
    (hnext : digit (a.toNat % 4 * 16 + low) = digit (a'.toNat % 4 * 16 + low')) :
    a = a' ∧ low = low' := by
  have ha := a.toNat_lt
  have ha' := a'.toNat_lt
  have hquot := digit_inj (by omega) (by omega) hhigh
  have hrem := digit_inj (by omega) (by omega) hnext
  exact ⟨UInt8.toNat_inj.1 (by omega), by omega⟩

/-- **Bytes can be told from their text.** -/
theorem encode_injective : Function.Injective encode := by
  intro bytes
  induction bytes using encode.induct with
  | case1 a b c rest ih =>
    intro bytes' h
    rcases bytes' with _ | ⟨a', _ | ⟨b', _ | ⟨c', rest'⟩⟩⟩
    · simp [encode] at h
    · simp [encode] at h
    · simp [encode] at h
    · simp only [encode, List.cons.injEq] at h
      obtain ⟨hfirst, hsecond, hthird, hfourth, hrest⟩ := h
      have hb := b.toNat_lt
      have hb' := b'.toNat_lt
      have hc := c.toNat_lt
      have hc' := c'.toNat_lt
      obtain ⟨rfl, hhigh⟩ := byte_eq _ _ (by omega) (by omega) hfirst hsecond
      have hmiddle := digit_inj (by omega) (by omega) hthird
      have hlast := digit_inj (by omega) (by omega) hfourth
      obtain rfl : b = b' := UInt8.toNat_inj.1 (by omega)
      obtain rfl : c = c' := UInt8.toNat_inj.1 (by omega)
      rw [ih hrest]
  | case2 a b =>
    intro bytes' h
    rcases bytes' with _ | ⟨a', _ | ⟨b', _ | ⟨c', rest'⟩⟩⟩
    · simp [encode] at h
    · simp [encode] at h
    · simp only [encode, List.cons.injEq] at h
      obtain ⟨hfirst, hsecond, hthird, -⟩ := h
      have hb := b.toNat_lt
      have hb' := b'.toNat_lt
      obtain ⟨rfl, hhigh⟩ := byte_eq _ _ (by omega) (by omega) hfirst hsecond
      have hlast := digit_inj (by omega) (by omega) hthird
      obtain rfl : b = b' := UInt8.toNat_inj.1 (by omega)
      rfl
    · simp [encode] at h
  | case3 a =>
    intro bytes' h
    rcases bytes' with _ | ⟨a', _ | ⟨b', _ | ⟨c', rest'⟩⟩⟩
    · simp [encode] at h
    · simp only [encode, List.cons.injEq] at h
      obtain ⟨rfl, -⟩ := byte_eq 0 0 (by omega) (by omega) h.1 h.2.1
      rfl
    · simp [encode] at h
    · simp [encode] at h
  | case4 =>
    intro bytes' h
    rcases bytes' with _ | ⟨a', _ | ⟨b', _ | ⟨c', rest'⟩⟩⟩
    · rfl
    · simp [encode] at h
    · simp [encode] at h
    · simp [encode] at h

/-! ### The decoder -/

/-- The number of a digit. -/
def value (c : Char) : Option ℕ :=
  if alphabet.idxOf c < alphabet.length then some (alphabet.idxOf c) else none

theorem value_eq_some_iff {c : Char} {n : ℕ} : value c = some n ↔ n < 64 ∧ digit n = c := by
  rw [value]
  constructor
  · intro h
    split at h
    · next hlt =>
      obtain rfl := Option.some.inj h
      refine ⟨length_alphabet ▸ hlt, ?_⟩
      rw [digit, List.getElem?_eq_getElem hlt, Option.getD_some, List.getElem_idxOf]
    · cases h
  · rintro ⟨hn, rfl⟩
    have hlt : n < alphabet.length := length_alphabet ▸ hn
    have hdigit : digit n = alphabet[n] := by
      rw [digit, List.getElem?_eq_getElem hlt, Option.getD_some]
    rw [hdigit, nodup_alphabet.idxOf_getElem, if_pos hlt]

/-- `URL_SAFE_NO_PAD.decode` -/
def decode : List Char → Option (List UInt8)
  | p :: q :: r :: s :: rest =>
    match value p, value q, value r, value s with
    | some p, some q, some r, some s =>
      (decode rest).map fun bytes ↦ UInt8.ofNat (p * 4 + q / 16) ::
        UInt8.ofNat (q % 16 * 16 + r / 4) :: UInt8.ofNat (r % 4 * 64 + s) :: bytes
    | _, _, _, _ => none
  | [p, q, r] =>
    match value p, value q, value r with
    | some p, some q, some r =>
      if r % 4 = 0 then some [UInt8.ofNat (p * 4 + q / 16), UInt8.ofNat (q % 16 * 16 + r / 4)]
      else none
    | _, _, _ => none
  | [p, q] =>
    match value p, value q with
    | some p, some q => if q % 16 = 0 then some [UInt8.ofNat (p * 4 + q / 16)] else none
    | _, _ => none
  | [_] => none
  | [] => some []

/-- What was encoded is decoded. -/
theorem decode_encode (bytes : List UInt8) : decode (encode bytes) = some bytes := by
  have hvalue : ∀ n, n < 64 → value (digit n) = some n := fun n hn ↦
    value_eq_some_iff.2 ⟨hn, rfl⟩
  have hbyte : ∀ (a : UInt8) (n : ℕ), n = a.toNat → UInt8.ofNat n = a := fun a n h ↦ by
    rw [h, UInt8.ofNat_toNat]
  induction bytes using encode.induct with
  | case1 a b c rest ih =>
    have ha := a.toNat_lt
    have hb := b.toNat_lt
    have hc := c.toNat_lt
    rw [encode, decode, hvalue _ (by omega), hvalue _ (by omega), hvalue _ (by omega),
      hvalue _ (by omega), ih]
    simp only [Option.map_some]
    rw [hbyte a _ (by omega), hbyte b _ (by omega), hbyte c _ (by omega)]
  | case2 a b =>
    have ha := a.toNat_lt
    have hb := b.toNat_lt
    rw [encode, decode, hvalue _ (by omega), hvalue _ (by omega), hvalue _ (by omega)]
    simp only
    rw [if_pos (by omega), hbyte a _ (by omega), hbyte b _ (by omega)]
  | case3 a =>
    have ha := a.toNat_lt
    rw [encode, decode, hvalue _ (by omega), hvalue _ (by omega)]
    simp only
    rw [if_pos (by omega), hbyte a _ (by omega)]
  | case4 => rfl

/-- What is decoded was encoded. -/
theorem encode_of_decode {t : List Char} {bytes : List UInt8} (h : decode t = some bytes) :
    encode bytes = t := by
  have hbyte : ∀ n, n < 256 → (UInt8.ofNat n).toNat = n := fun n hn ↦
    UInt8.toNat_ofNat_of_lt' hn
  have hdigits : ∀ {n m : ℕ} {c : Char}, value c = some n → m = n → digit m = c := fun hc heq ↦
    heq ▸ (value_eq_some_iff.1 hc).2
  fun_induction decode t generalizing bytes with
  | case1 _ _ _ _ rest p q r s hs hr hq hp ih =>
    obtain ⟨tail, htail, rfl⟩ := Option.map_eq_some_iff.1 h
    have hp' := (value_eq_some_iff.1 hp).1
    have hq' := (value_eq_some_iff.1 hq).1
    have hr' := (value_eq_some_iff.1 hr).1
    have hs' := (value_eq_some_iff.1 hs).1
    rw [encode, hbyte _ (by omega), hbyte _ (by omega), hbyte _ (by omega), ih htail,
      hdigits hp (by omega), hdigits hq (by omega), hdigits hr (by omega), hdigits hs (by omega)]
  | case3 _ _ _ p q r hr hq hp hzero =>
    obtain rfl := Option.some.inj h
    have hp' := (value_eq_some_iff.1 hp).1
    have hq' := (value_eq_some_iff.1 hq).1
    have hr' := (value_eq_some_iff.1 hr).1
    rw [encode, hbyte _ (by omega), hbyte _ (by omega), hdigits hp (by omega),
      hdigits hq (by omega), hdigits hr (by omega)]
  | case6 _ _ p q hq hp hzero =>
    obtain rfl := Option.some.inj h
    have hp' := (value_eq_some_iff.1 hp).1
    have hq' := (value_eq_some_iff.1 hq).1
    rw [encode, hbyte _ (by omega), hdigits hp (by omega), hdigits hq (by omega)]
  | case10 =>
    obtain rfl := Option.some.inj h
    rfl
  | case2 | case4 | case5 | case7 | case8 | case9 => cases h

/-- **The decoder accepts exactly what the encoder writes.** -/
theorem decode_eq_some_iff {t : List Char} {bytes : List UInt8} :
    decode t = some bytes ↔ encode bytes = t :=
  ⟨encode_of_decode, fun h ↦ h ▸ decode_encode bytes⟩

/-! ### Hexadecimal digits -/

/-- Two digits for each byte. -/
def hexEncode (bytes : List UInt8) : List Char :=
  bytes.flatMap fun b ↦ [Nat.digitChar (b.toNat / 16), Nat.digitChar (b.toNat % 16)]

theorem nul_notMem_hexEncode (bytes : List UInt8) : '\x00' ∉ hexEncode bytes := by
  have hdigit : ∀ n < 16, Nat.digitChar n ≠ '\x00' := by decide
  intro h
  obtain ⟨b, -, hb⟩ := List.mem_flatMap.1 h
  have hlt := b.toNat_lt
  simp only [List.mem_cons, List.not_mem_nil, or_false] at hb
  rcases hb with hb | hb
  · exact hdigit _ (by omega) hb.symm
  · exact hdigit _ (by omega) hb.symm

end Base64
