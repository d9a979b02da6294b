import BodyCache.LittleEndian

/-!
# Hexadecimal text

Two lower-case digits per byte, high half first.

## Main statements

* `Hex.length_digits`: a byte string of `n` bytes has `2 * n` digits.
-/

namespace BodyCache.Hex

/-- The lower-case digit of a number below sixteen. -/
def digit (n : Nat) : Char :=
  if n < 10 then Char.ofNat (48 + n) else Char.ofNat (87 + n)

/-- The digits of a byte string, byte by byte. -/
def digits (bytes : Bytes) : List Char :=
  bytes.flatMap fun b => [digit (b.toNat / 16), digit (b.toNat % 16)]

/-- The value of a digit in either case. -/
def value? (c : Char) : Option Nat :=
  if '0' ≤ c ∧ c ≤ '9' then some (c.toNat - 48)
  else if 'a' ≤ c ∧ c ≤ 'f' then some (c.toNat - 87)
  else if 'A' ≤ c ∧ c ≤ 'F' then some (c.toNat - 55)
  else none

/-- The number that a list of digits denotes, most significant first. -/
def number? (digits : List Char) : Option Nat :=
  digits.foldlM (fun n c => (value? c).map (16 * n + ·)) 0

/-- The text of a byte string. -/
def encode (bytes : Bytes) : String := String.ofList (digits bytes)

/-- The sixteen digits of a 64-bit word, most significant first. -/
def ofWord (word : UInt64) : String :=
  encode (LittleEndian.encode 8 word.toNat).reverse

/-- There are two digits for each byte. -/
@[simp] theorem length_digits (bytes : Bytes) : (digits bytes).length = 2 * bytes.length := by
  induction bytes with
  | nil => rfl
  | cons b bs ih =>
    rw [digits, List.flatMap_cons, List.length_append]
    rw [digits] at ih
    simp only [List.length_cons, List.length_nil, ih]
    omega

end BodyCache.Hex
