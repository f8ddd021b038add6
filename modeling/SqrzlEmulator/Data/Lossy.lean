import SqrzlEmulator.Data.Percent

/-!
# Lossy decoding

The text of bytes that need not be UTF-8: what is no character is replaced, the longest start of
one by a single `U+FFFD`. The decoder takes one byte at a time. It knows how many bytes of the
character are owed, and which bytes may come next.
-/

namespace Lossy

/-- Where a decoder stands in a character: the bytes still owed, the least and the greatest next
one, and the bits so far. -/
structure State where
  owed : ℕ := 0
  low : ℕ := 0x80
  high : ℕ := 0xBF
  bits : ℕ := 0
  deriving DecidableEq

/-- U+FFFD, which stands for bytes that are no text. -/
def replacement : Char := Char.ofNat 0xFFFD

/-- The first byte of a character of more than one byte. -/
def lead (b : ℕ) : Option State :=
  if 0xC2 ≤ b ∧ b ≤ 0xDF then some { owed := 1, bits := b - 0xC0 }
  else if b = 0xE0 then some { owed := 2, low := 0xA0 }
  else if b = 0xED then some { owed := 2, high := 0x9F, bits := 0xD }
  else if 0xE1 ≤ b ∧ b ≤ 0xEF then some { owed := 2, bits := b - 0xE0 }
  else if b = 0xF0 then some { owed := 3, low := 0x90 }
  else if b = 0xF4 then some { owed := 3, high := 0x8F, bits := 4 }
  else if 0xF1 ≤ b ∧ b ≤ 0xF3 then some { owed := 3, bits := b - 0xF0 }
  else none

/-- A byte between two characters. -/
def start (b : ℕ) : List Char × State :=
  if b < 0x80 then ([Char.ofNat b], {}) else
    match lead b with
    | some s => ([], s)
    | none => ([replacement], {})

/-- One byte. A byte that cannot go on with the character starts another one. -/
def push (s : State) (b : ℕ) : List Char × State :=
  if s.owed = 0 then start b
  else if s.low ≤ b ∧ b ≤ s.high then
    if s.owed = 1 then ([Char.ofNat (s.bits * 0x40 + (b - 0x80))], {})
    else ([], { owed := s.owed - 1, bits := s.bits * 0x40 + (b - 0x80) })
  else (replacement :: (start b).1, (start b).2)

/-- The text that is left to decode. -/
def decodeFrom (s : State) : List UInt8 → List Char
  | [] => if s.owed = 0 then [] else [replacement]
  | b :: bytes => (push s b.toNat).1 ++ decodeFrom (push s b.toNat).2 bytes

/-- `String::from_utf8_lossy` -/
def decode (bytes : List UInt8) : List Char := decodeFrom {} bytes

end Lossy
