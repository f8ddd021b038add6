import Mathlib.Algebra.BigOperators.Group.List.Basic
import Mathlib.Algebra.Order.BigOperators.Group.List
import Mathlib.Algebra.Order.Ring.Nat

/-!
# Lengths of JSON texts

JSON texts without white space, as lists of characters, and how many bytes they have. A string is
written between quotation marks, with its control characters, quotation marks and backslashes escaped.
**A text has at least as many bytes as each of its parts** (`size_le_list`, `size_le_object`), and
the length of a list or of an object is a sum over its parts (`size_list`, `size_object`).
-/

namespace JsonText

/-! ### Texts -/

/-- The hexadecimal digit of a number below sixteen. -/
def hexDigit (n : ℕ) : Char := if n < 10 then Char.ofNat (48 + n) else Char.ofNat (87 + n)

/-- How a character of a string is written. -/
def escapeChar (c : Char) : List Char :=
  if c = '"' then ['\\', '"']
  else if c = '\\' then ['\\', '\\']
  else if c.toNat = 8 then ['\\', 'b']
  else if c.toNat = 9 then ['\\', 't']
  else if c.toNat = 10 then ['\\', 'n']
  else if c.toNat = 12 then ['\\', 'f']
  else if c.toNat = 13 then ['\\', 'r']
  else if c.toNat < 32 then ['\\', 'u', '0', '0', hexDigit (c.toNat / 16), hexDigit (c.toNat % 16)]
  else [c]

/-- A string in its quotes. -/
def string (s : String) : List Char := '"' :: (s.toList.flatMap escapeChar ++ ['"'])

/-- A number in decimal digits. -/
def number (n : ℕ) : List Char := Nat.toDigits 10 n

/-- A truth value. -/
def bool (b : Bool) : List Char := if b then "true".toList else "false".toList

/-- The null value. -/
def null : List Char := "null".toList

/-- A value that may be missing. -/
def optional {α : Type} (text : α → List Char) : Option α → List Char
  | some a => text a
  | none => null

/-- Items with commas between them. -/
def commas (items : List (List Char)) : List Char := (items.intersperse [',']).flatten

/-- An array of values. -/
def list (items : List (List Char)) : List Char := '[' :: (commas items ++ [']'])

/-- A field of an object. -/
def field (f : String × List Char) : List Char := string f.1 ++ ':' :: f.2

/-- An object, its fields in order. -/
def object (fields : List (String × List Char)) : List Char :=
  '\x7b' :: (commas (fields.map field) ++ ['\x7d'])

/-! ### Bytes -/

/-- The bytes of a text in UTF-8. -/
def size (t : List Char) : ℕ := (t.map Char.utf8Size).sum

@[simp] theorem size_nil : size [] = 0 := rfl

@[simp] theorem size_cons (c : Char) (t : List Char) : size (c :: t) = c.utf8Size + size t := by
  rw [size, List.map_cons, List.sum_cons]
  rfl

@[simp] theorem size_append (t t' : List Char) : size (t ++ t') = size t + size t' := by
  rw [size, List.map_append, List.sum_append]
  rfl

theorem length_le_size (t : List Char) : t.length ≤ size t := by
  induction t with
  | nil => exact le_refl 0
  | cons c t ih =>
    have hpos := c.utf8Size_pos
    rw [List.length_cons, size_cons]
    omega

/-- Commas stand between the items. -/
theorem size_commas (items : List (List Char)) :
    size (commas items) = (items.map size).sum + (items.length - 1) := by
  have hcomma : (',' : Char).utf8Size = 1 := by decide
  induction items with
  | nil => rfl
  | cons item items ih =>
    cases items with
    | nil =>
      rw [commas, List.intersperse_singleton]
      simp
    | cons next items =>
      have hstep : commas (item :: next :: items) = item ++ ',' :: commas (next :: items) := by
        rw [commas, commas, List.intersperse_cons_cons, List.flatten_cons, List.flatten_cons]
        rfl
      rw [hstep, size_append, size_cons, ih, hcomma, List.map_cons (a := item), List.sum_cons]
      simp only [List.length_cons]
      omega

theorem size_list (items : List (List Char)) :
    size (list items) = 2 + (items.map size).sum + (items.length - 1) := by
  have hleft : ('[' : Char).utf8Size = 1 := by decide
  have hright : (']' : Char).utf8Size = 1 := by decide
  rw [list, size_cons, size_append, size_commas, size_cons, size_nil, hleft, hright]
  omega

theorem size_field (f : String × List Char) : size (field f) = size (string f.1) + 1 + size f.2 := by
  have hcolon : (':' : Char).utf8Size = 1 := by decide
  rw [field, size_append, size_cons, hcolon]
  omega

theorem size_object (fields : List (String × List Char)) : size (object fields) =
    2 + (fields.map fun f ↦ size (field f)).sum + (fields.length - 1) := by
  have hleft : ('\x7b' : Char).utf8Size = 1 := by decide
  have hright : ('\x7d' : Char).utf8Size = 1 := by decide
  rw [object, size_cons, size_append, size_commas, size_cons, size_nil, hleft, hright,
    List.map_map, List.length_map]
  show 1 + ((fields.map fun f ↦ size (field f)).sum + (fields.length - 1) + (1 + 0)) = _
  omega

theorem size_le_list {item : List Char} {items : List (List Char)} (h : item ∈ items) :
    size item ≤ size (list items) := by
  have hle := List.single_le_sum (fun x _ ↦ Nat.zero_le x) _ (List.mem_map_of_mem (f := size) h)
  rw [size_list]
  omega

theorem size_le_object {f : String × List Char} {fields : List (String × List Char)}
    (h : f ∈ fields) : size f.2 ≤ size (object fields) := by
  have hle := List.single_le_sum (fun x _ ↦ Nat.zero_le x) _
    (List.mem_map_of_mem (f := fun f ↦ size (field f)) h)
  rw [size_object]
  rw [size_field] at hle
  omega

/-- Another value for a field changes the length by that of the value. -/
theorem size_object_replace (before behind : List (String × List Char)) (name : String)
    (x y : List Char) : size (object (before ++ (name, x) :: behind)) + size y =
      size (object (before ++ (name, y) :: behind)) + size x := by
  rw [size_object, size_object]
  simp only [List.map_append, List.map_cons, List.sum_append, List.sum_cons, List.length_append,
    List.length_cons, size_field]
  omega

theorem length_number_pos (n : ℕ) : 0 < (number n).length := Nat.length_toDigits_pos

theorem size_string (s : String) :
    size (string s) = 2 + (s.toList.map fun c ↦ size (escapeChar c)).sum := by
  have hquote : ('"' : Char).utf8Size = 1 := by decide
  have hbody : ∀ l : List Char, size (l.flatMap escapeChar) =
      (l.map fun c ↦ size (escapeChar c)).sum := by
    intro l
    induction l with
    | nil => rfl
    | cons c l ih => rw [List.flatMap_cons, size_append, ih, List.map_cons, List.sum_cons]
  rw [string, size_cons, size_append, hbody, size_cons, size_nil, hquote]
  omega

/-- A string whose characters are among those of another one is written in no more bytes. -/
theorem size_string_le {s t : String} (h : s.toList.Sublist t.toList) :
    size (string s) ≤ size (string t) := by
  rw [size_string, size_string]
  have hle := List.Sublist.sum_le_sum (h.map fun c ↦ size (escapeChar c)) fun x _ ↦ Nat.zero_le x
  omega

end JsonText
