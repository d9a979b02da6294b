import BodyCache.Text

/-!
# Binary codecs

A codec writes a value as bytes and reads a value from the front of a byte string, leaving the
rest. Codecs of compound values are put together from those of their parts, in order.

Numbers are written in as few bytes as possible: below 251 in one byte, otherwise as a byte 251,
252 or 253 followed by two, four or eight bytes, least significant first. Reading accepts longer
forms of a number as well, up to the width of the number that is asked for.

The reader of a text makes room for all the bytes that the text announces, before it looks whether
they are there. Bytes that are there fit into memory, like the byte string they are a part of. When
they are not, the reader fails and says how much room it made; whether a machine could have made it
is for the caller to judge.

## Main statements

* `Varint.encode`, `Varint.decode`: the numbers of the format.
* `Codec.pair`, `Codec.iso`, `Codec.option`, `Codec.list`: how codecs are combined.
-/

namespace BodyCache

/-- Why bytes could not be read. -/
inductive DecodeError where
  /-- The input ended too early, after room was made for so many bytes. -/
  | unexpectedEnd (room : Nat)
  /-- A number is marked as wider than it may be, or with a mark that has no meaning. -/
  | invalidInteger
  /-- A truth value is neither zero nor one. -/
  | invalidBoolean
  /-- The mark of an optional value is neither zero nor one. -/
  | unexpectedVariant
  /-- The number of an alternative does not exist. -/
  | unknownVariant
  /-- The bytes of a text are not valid. -/
  | invalidText
  /-- A text announces more bytes than can be addressed. -/
  | capacityOverflow
  deriving DecidableEq, Repr

namespace DecodeError

/-- The word that stands for an error in messages. -/
def word : DecodeError → String
  | unexpectedEnd _ => "UnexpectedEnd"
  | invalidInteger => "InvalidIntegerType"
  | invalidBoolean => "InvalidBooleanValue"
  | unexpectedVariant => "UnexpectedVariant"
  | unknownVariant => "OtherString"
  | invalidText => "Utf8"
  | capacityOverflow => "capacity overflow"

/-- The room that was made for bytes that are not there. -/
def room : DecodeError → Nat
  | unexpectedEnd n => n
  | _ => 0

end DecodeError

/-- Reads a value from the front of a byte string. -/
abbrev Decoder := StateT Bytes (Except DecodeError)

namespace Decoder

/-- Reads one byte. -/
def byte : Decoder UInt8 := fun
  | [] => .error (.unexpectedEnd 0)
  | b :: rest => .ok (b, rest)

/-- Reads the given number of bytes, into room that was made for them or into room that is always
there. -/
def take (count : Nat) (room : Nat := 0) : Decoder Bytes := fun bytes =>
  if count ≤ bytes.length then .ok (bytes.take count, bytes.drop count)
  else .error (.unexpectedEnd room)

/-- Reads as many values as asked for. -/
def times {α : Type} (item : Decoder α) : Nat → Decoder (List α)
  | 0 => return []
  | count + 1 => do
    let first ← item
    let rest ← times item count
    return first :: rest

/-- Fails. -/
def fail {α : Type} (e : DecodeError) : Decoder α := fun _ => .error e

end Decoder

/-- A writer of values and a reader for what it writes. -/
structure Codec (α : Type) where
  encode : α → Bytes
  decode : Decoder α

/-! ### Numbers -/

namespace Varint

/-- The shortest form of a number of at most 64 bits. -/
def encode (n : Nat) : Bytes :=
  if n < 251 then [UInt8.ofNat n]
  else if n < UInt16.size then 251 :: LittleEndian.encode 2 n
  else if n < UInt32.size then 252 :: LittleEndian.encode 4 n
  else 253 :: LittleEndian.encode 8 n

/-- The number of bytes that follow a mark, if the mark has a meaning. -/
def payloadWidth? (mark : UInt8) : Option Nat :=
  if mark = 251 then some 2 else if mark = 252 then some 4 else if mark = 253 then some 8 else none

/-- Reads a number in any form that is at most `width` bytes wide. -/
def decode (width : Nat) : Decoder Nat := do
  let first ← Decoder.byte
  if first < 251 then return first.toNat
  match payloadWidth? first with
  | some w =>
    if w ≤ width then return LittleEndian.decode (← Decoder.take w)
    else Decoder.fail .invalidInteger
  | none => Decoder.fail .invalidInteger

end Varint

namespace Codec

variable {α β : Type}

/-! ### Combination -/

/-- One value after the other. -/
def pair (first : Codec α) (second : Codec β) : Codec (α × β) where
  encode v := first.encode v.1 ++ second.encode v.2
  decode := do
    let a ← first.decode
    let b ← second.decode
    return (a, b)

/-- The same bytes, with the values seen as another type. -/
def iso (c : Codec α) (pack : α → β) (unpack : β → α) : Codec β where
  encode v := c.encode (unpack v)
  decode := pack <$> c.decode

/-! ### Plain values -/

/-- A number of at most 16 bits. -/
def word16 : Codec UInt16 where
  encode w := Varint.encode w.toNat
  decode := UInt16.ofNat <$> Varint.decode 2

/-- A number of at most 32 bits. -/
def word32 : Codec UInt32 where
  encode w := Varint.encode w.toNat
  decode := UInt32.ofNat <$> Varint.decode 4

/-- The number of items or bytes that follow. -/
def size : Codec Nat where
  encode := Varint.encode
  decode := Varint.decode 8

/-- Signed numbers alternate with their opposites: 0, -1, 1, -2, 2 and so on. -/
def zigzag : Int → Nat
  | .ofNat n => 2 * n
  | .negSucc n => 2 * n + 1

/-- The signed number at a position of the alternating order. -/
def unzigzag (n : Nat) : Int := if n % 2 = 0 then .ofNat (n / 2) else .negSucc (n / 2)

/-- A signed number of 64 bits. -/
def int64 : Codec Int64 where
  encode v := Varint.encode (zigzag v.toInt)
  decode := (fun n => Int64.ofInt (unzigzag n)) <$> Varint.decode 8

/-- A truth value: zero or one. -/
def bool : Codec Bool where
  encode v := [if v then 1 else 0]
  decode := do
    let b ← Decoder.byte
    if b = 0 then return false
    else if b = 1 then return true
    else Decoder.fail .invalidBoolean

/-- The number of bytes that no text can have: half the number of 64-bit words. -/
def addressLimit : Nat := UInt64.size / 2

/-- A text: the number of its bytes, then the bytes. -/
def text : Codec String where
  encode s := size.encode (Utf8.encode s).length ++ Utf8.encode s
  decode := do
    let count ← size.decode
    if addressLimit ≤ count then Decoder.fail .capacityOverflow
    else
      match Utf8.decode? (← Decoder.take count count) with
      | some s => return s
      | none => Decoder.fail .invalidText

/-- One of finitely many values, written as its position. -/
def oneOf [DecidableEq α] (values : List α) : Codec α where
  encode v := Varint.encode (values.idxOf v)
  decode := do
    match values[← Varint.decode 4]? with
    | some v => return v
    | none => Decoder.fail .unknownVariant

/-! ### Compound values -/

/-- An optional value: a mark, then the value if there is one. -/
def option (c : Codec α) : Codec (Option α) where
  encode
    | none => [0]
    | some v => 1 :: c.encode v
  decode := do
    let mark ← Decoder.byte
    if mark = 0 then return none
    else if mark = 1 then return some (← c.decode)
    else Decoder.fail .unexpectedVariant

/-- A list: the number of its items, then the items. -/
def list (c : Codec α) : Codec (List α) where
  encode vs := size.encode vs.length ++ vs.flatMap c.encode
  decode := do Decoder.times c.decode (← size.decode)

end Codec

end BodyCache
