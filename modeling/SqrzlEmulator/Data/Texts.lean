import SqrzlEmulator.Storage.Model

/-!
# Texts of requests

The string functions of the standard library that the front doors apply to headers and query
parameters, on the characters that these can hold.
-/

namespace Sqrzl

/-- `str::trim` -/
def trim (s : String) : String :=
  String.ofList (((s.toList.dropWhile Char.isWhitespace).reverse.dropWhile Char.isWhitespace).reverse)

/-- `str::trim_matches('"')` -/
def trimQuotes (text : String) : String :=
  String.ofList (((text.toList.dropWhile (· = '"')).reverse.dropWhile (· = '"')).reverse)

/-- `str::starts_with` -/
def startsWith (start s : String) : Bool := start.toList.isPrefixOf s.toList

/-- `str::split(',')` -/
def splitCommas (s : String) : List String := (s.toList.splitOn ',').map String.ofList

/-- `str::split_once` -/
def splitOnce (c : Char) (s : Text) : Option (Text × Text) :=
  if c ∈ s then some (s.takeWhile (· ≠ c), (s.dropWhile (· ≠ c)).drop 1) else none

/-- `str::eq_ignore_ascii_case` -/
def eqIgnoreCase (a b : String) : Bool := a.toList.map Char.toLower = b.toList.map Char.toLower

/-- `str::parse::<u64>` -/
def parseU64 (text : String) : Option ℕ :=
  let digits := match text.toList with
    | '+' :: rest => rest
    | cs => cs
  if digits.isEmpty || !digits.all Char.isDigit then
    none
  else
    let n := digits.foldl (fun n c ↦ 10 * n + (c.toNat - '0'.toNat)) 0
    if n < 2 ^ 64 then some n else none

/-- `str::parse::<u32>` -/
def parseU32 (text : String) : Option ℕ := (parseU64 text).filter (· < 2 ^ 32)

/-! ### Decimals -/

/-- The value of the digits of a number. -/
theorem foldl_toDigits (n : ℕ) :
    (Nat.toDigits 10 n).foldl (fun n c ↦ 10 * n + (c.toNat - '0'.toNat)) 0 = n := by
  induction n using Nat.strongRecOn with
  | _ n ih =>
    rw [Nat.toDigits_eq_if (by decide)]
    split
    · next h =>
      rw [List.foldl_cons, List.foldl_nil]
      exact (Nat.zero_add _).trans (Nat.toNat_digitChar_sub_48_of_lt_ten h)
    · next h =>
      rw [List.foldl_append, List.foldl_cons, List.foldl_nil, ih (n / 10) (by omega)]
      have hdigit : (n % 10).digitChar.toNat - '0'.toNat = n % 10 :=
        Nat.toNat_digitChar_sub_48_of_lt_ten (by omega)
      rw [hdigit]
      omega

theorem toDigits_ne_nil (n : ℕ) : Nat.toDigits 10 n ≠ [] :=
  List.ne_nil_of_length_pos Nat.length_toDigits_pos

theorem all_isDigit_toDigits (n : ℕ) : (Nat.toDigits 10 n).all Char.isDigit = true :=
  List.all_eq_true.2 fun _ hc ↦ Nat.isDigit_of_mem_toDigits (by decide) (by decide) hc

theorem toList_toString (n : ℕ) : (toString n).toList = Nat.toDigits 10 n := by
  show n.repr.toList = _
  rw [Nat.repr_eq_ofList_toDigits, String.toList_ofList]

/-- **A decimal is read as the number it was written from.** -/
theorem parseU64_toString {n : ℕ} (h : n < 2 ^ 64) : parseU64 (toString n) = some n := by
  unfold parseU64
  rw [toList_toString]
  have hhead : (match Nat.toDigits 10 n with
      | '+' :: rest => rest
      | cs => cs) = Nat.toDigits 10 n := by
    split
    · next rest hrest =>
      have hdigit := all_isDigit_toDigits n
      rw [hrest] at hdigit
      cases hdigit
    · rfl
  dsimp only
  rw [hhead, foldl_toDigits, all_isDigit_toDigits, if_pos h]
  cases hempty : (Nat.toDigits 10 n).isEmpty with
  | true => exact absurd (List.isEmpty_iff.1 hempty) (toDigits_ne_nil n)
  | false => rfl

end Sqrzl
