/-!
# Little-endian numbers

A number below `256 ^ width` written as `width` bytes, least significant byte first. Both
directions work on `Nat`; fixed-width words go through `toNat`.

## Main statements

* `LittleEndian.length_encode`: a number of width `w` takes exactly `w` bytes.
* `LittleEndian.encode_decode`: every byte string is the writing of the number it denotes.
-/

namespace BodyCache

/-- Byte strings are lists: every format below is defined by recursion on them. -/
abbrev Bytes := List UInt8

namespace LittleEndian

/-- The `width` low bytes of a number, least significant first. -/
def encode : (width : Nat) → Nat → Bytes
  | 0, _ => []
  | width + 1, n => UInt8.ofNat n :: encode width (n / 256)

/-- The number that a byte string denotes, least significant byte first. -/
def decode : Bytes → Nat
  | [] => 0
  | b :: bs => b.toNat + 256 * decode bs

/-! ### Laws -/

/-- A number of width `w` takes exactly `w` bytes. -/
@[simp] theorem length_encode (width n : Nat) : (encode width n).length = width := by
  induction width generalizing n with
  | zero => rfl
  | succ width ih => simp [encode, ih]

/-- Every byte string is the writing of the number it denotes. -/
theorem encode_decode (bs : Bytes) : encode bs.length (decode bs) = bs := by
  induction bs with
  | nil => rfl
  | cons b bs ih =>
    have hb : b.toNat < 256 := b.toNat_lt
    have hq : (b.toNat + 256 * decode bs) / 256 = decode bs := by omega
    have hr : UInt8.ofNat (b.toNat + 256 * decode bs) = b := by
      apply UInt8.toNat_inj.mp
      rw [UInt8.toNat_ofNat']
      omega
    rw [List.length_cons, decode, encode, hq, hr, ih]

end LittleEndian

end BodyCache
