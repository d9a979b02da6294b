import BodyCache.LittleEndian

/-!
# XXH3

The 64-bit and the 128-bit hash of a byte string, with the default secret and seed zero. The hashes
read their input as little-endian words, combine each word with a word of a fixed secret and
condense the result with multiplications and shifts. All arithmetic wraps at the width of the word.

The length of the input selects the form. Inputs of up to 240 bytes are hashed without a running
state: each length class reads a fixed pattern of overlapping words that covers the whole input. A
longer input is cut into stripes of 64 bytes, sixteen to a block. Eight running words absorb stripe
after stripe and are scrambled at the end of each full block; the last 64 bytes of the input are
absorbed once more at the end.
-/

namespace BodyCache.Xxh3

/-! ### Constants -/

def prime32a : UInt64 := 0x9E3779B1
def prime32b : UInt64 := 0x85EBCA77
def prime32c : UInt64 := 0xC2B2AE3D
def prime64a : UInt64 := 0x9E3779B185EBCA87
def prime64b : UInt64 := 0xC2B2AE3D27D4EB4F
def prime64c : UInt64 := 0x165667B19E3779F9
def prime64d : UInt64 := 0x85EBCA77C2B2AE63
def prime64e : UInt64 := 0x27D4EB2F165667C5
def mixPrimeA : UInt64 := 0x165667919E3779F9
def mixPrimeB : UInt64 := 0x9FB21C651E98DF25

/-- The default secret: 192 bytes without structure. -/
def secret : Array UInt8 := #[
  0xb8, 0xfe, 0x6c, 0x39, 0x23, 0xa4, 0x4b, 0xbe, 0x7c, 0x01, 0x81, 0x2c, 0xf7, 0x21, 0xad, 0x1c,
  0xde, 0xd4, 0x6d, 0xe9, 0x83, 0x90, 0x97, 0xdb, 0x72, 0x40, 0xa4, 0xa4, 0xb7, 0xb3, 0x67, 0x1f,
  0xcb, 0x79, 0xe6, 0x4e, 0xcc, 0xc0, 0xe5, 0x78, 0x82, 0x5a, 0xd0, 0x7d, 0xcc, 0xff, 0x72, 0x21,
  0xb8, 0x08, 0x46, 0x74, 0xf7, 0x43, 0x24, 0x8e, 0xe0, 0x35, 0x90, 0xe6, 0x81, 0x3a, 0x26, 0x4c,
  0x3c, 0x28, 0x52, 0xbb, 0x91, 0xc3, 0x00, 0xcb, 0x88, 0xd0, 0x65, 0x8b, 0x1b, 0x53, 0x2e, 0xa3,
  0x71, 0x64, 0x48, 0x97, 0xa2, 0x0d, 0xf9, 0x4e, 0x38, 0x19, 0xef, 0x46, 0xa9, 0xde, 0xac, 0xd8,
  0xa8, 0xfa, 0x76, 0x3f, 0xe3, 0x9c, 0x34, 0x3f, 0xf9, 0xdc, 0xbb, 0xc7, 0xc7, 0x0b, 0x4f, 0x1d,
  0x8a, 0x51, 0xe0, 0x4b, 0xcd, 0xb4, 0x59, 0x31, 0xc8, 0x9f, 0x7e, 0xc9, 0xd9, 0x78, 0x73, 0x64,
  0xea, 0xc5, 0xac, 0x83, 0x34, 0xd3, 0xeb, 0xc3, 0xc5, 0x81, 0xa0, 0xff, 0xfa, 0x13, 0x63, 0xeb,
  0x17, 0x0d, 0xdd, 0x51, 0xb7, 0xf0, 0xda, 0x49, 0xd3, 0x16, 0x55, 0x26, 0x29, 0xd4, 0x68, 0x9e,
  0x2b, 0x16, 0xbe, 0x58, 0x7d, 0x47, 0xa1, 0xfc, 0x8f, 0xf8, 0xb8, 0xd1, 0x7a, 0xd0, 0x31, 0xce,
  0x45, 0xcb, 0x3a, 0x8f, 0x95, 0x16, 0x04, 0x28, 0xaf, 0xd7, 0xfb, 0xca, 0xbb, 0x4b, 0x40, 0x7e]

example : secret.size = 192 := rfl

/-! ### Words -/

/-- The byte at an index as a word. -/
def byteAt (bytes : Array UInt8) (i : Nat) : UInt64 := (bytes.getD i 0).toUInt64

/-- The 32-bit little-endian word at an index, in the low half of the result. -/
def half (bytes : Array UInt8) (i : Nat) : UInt64 :=
  byteAt bytes i ||| (byteAt bytes (i + 1) <<< 8) ||| (byteAt bytes (i + 2) <<< 16) |||
    (byteAt bytes (i + 3) <<< 24)

/-- The 64-bit little-endian word at an index. -/
def word (bytes : Array UInt8) (i : Nat) : UInt64 :=
  half bytes i ||| (half bytes (i + 4) <<< 32)

/-- A word with its eight bytes in the opposite order. -/
def swapWord (x : UInt64) : UInt64 :=
  UInt64.ofNat (LittleEndian.decode (LittleEndian.encode 8 x.toNat).reverse)

/-- The low half of a word with its four bytes in the opposite order. -/
def swapHalf (x : UInt64) : UInt64 :=
  UInt64.ofNat (LittleEndian.decode (LittleEndian.encode 4 x.toNat).reverse)

/-- A word rotated to the left. -/
def rotate (x : UInt64) (amount : UInt64) : UInt64 :=
  (x <<< amount) ||| (x >>> (64 - amount))

/-- The low half of a word rotated to the left within 32 bits. -/
def rotateHalf (x : UInt64) (amount : UInt64) : UInt64 :=
  ((x <<< amount) ||| (x >>> (32 - amount))) &&& 0xFFFFFFFF

/-- The low and the high word of the 128-bit product. -/
def product (x y : UInt64) : UInt64 × UInt64 :=
  let p := x.toNat * y.toNat
  (UInt64.ofNat p, UInt64.ofNat (p / UInt64.size))

/-- The 128-bit product folded into one word. -/
def foldedProduct (x y : UInt64) : UInt64 :=
  let p := product x y
  p.1 ^^^ p.2

/-! ### Final scrambles -/

/-- A word combined with itself, shifted to the right. -/
def xorShift (x : UInt64) (amount : UInt64) : UInt64 := x ^^^ (x >>> amount)

/-- The scramble that ends the forms for long and middle-sized inputs. -/
def avalanche (h : UInt64) : UInt64 :=
  xorShift (xorShift h 37 * mixPrimeA) 32

/-- The scramble that ends the forms for the shortest inputs. -/
def strongAvalanche (h : UInt64) : UInt64 :=
  xorShift (xorShift (xorShift h 33 * prime64b) 29 * prime64c) 32

/-- Sixteen bytes of the input at `i` mixed with sixteen bytes of the secret at `s`. -/
def mixPair (bytes : Array UInt8) (i s : Nat) : UInt64 :=
  foldedProduct (word bytes i ^^^ word secret s) (word bytes (i + 8) ^^^ word secret (s + 8))

/-! ### The shortest inputs -/

/-- The first, the middle and the last byte of one to three bytes, with the length, in 32 bits. -/
def tinyWord (bytes : Array UInt8) : UInt64 :=
  let size := bytes.size
  (byteAt bytes 0 <<< 16) ||| (byteAt bytes (size / 2) <<< 24) ||| byteAt bytes (size - 1) |||
    (UInt64.ofNat size <<< 8)

/-! ### At most 240 bytes, hashed to 64 bits -/

namespace Short64

/-- One to three bytes. -/
def tiny (bytes : Array UInt8) : UInt64 :=
  strongAvalanche (tinyWord bytes ^^^ (half secret 0 ^^^ half secret 4))

/-- Four to eight bytes. -/
def small (bytes : Array UInt8) : UInt64 :=
  let first := half bytes 0
  let last := half bytes (bytes.size - 4)
  let keyed := (last + (first <<< 32)) ^^^ (word secret 8 ^^^ word secret 16)
  let h := (keyed ^^^ rotate keyed 49 ^^^ rotate keyed 24) * mixPrimeB
  let h := (h ^^^ ((h >>> 35) + UInt64.ofNat bytes.size)) * mixPrimeB
  xorShift h 28

/-- Nine to sixteen bytes. -/
def medium (bytes : Array UInt8) : UInt64 :=
  let low := word bytes 0 ^^^ (word secret 24 ^^^ word secret 32)
  let high := word bytes (bytes.size - 8) ^^^ (word secret 40 ^^^ word secret 48)
  avalanche (UInt64.ofNat bytes.size + swapWord low + high + foldedProduct low high)

/-- Seventeen to 128 bytes: pairs from both ends towards the middle. -/
def large (bytes : Array UInt8) : UInt64 :=
  let size := bytes.size
  let rounds := (size - 1) / 32
  avalanche <| (List.range (rounds + 1)).foldl
    (fun acc i => acc + mixPair bytes (16 * i) (32 * i) +
      mixPair bytes (size - 16 * (i + 1)) (32 * i + 16))
    (UInt64.ofNat size * prime64a)

/-- From 129 to 240 bytes: eight pairs, a scramble, then the remaining pairs and the last one. -/
def huge (bytes : Array UInt8) : UInt64 :=
  let size := bytes.size
  let start := (List.range 8).foldl (fun acc i => acc + mixPair bytes (16 * i) (16 * i))
    (UInt64.ofNat size * prime64a)
  let rest := (List.range (size / 16 - 8)).foldl
    (fun acc i => acc + mixPair bytes (16 * (i + 8)) (16 * i + 3)) (avalanche start)
  avalanche (rest + mixPair bytes (size - 16) 119)

end Short64

/-! ### At most 240 bytes, hashed to 128 bits -/

namespace Short128

/-- One to three bytes. -/
def tiny (bytes : Array UInt8) : UInt64 × UInt64 :=
  let low := tinyWord bytes
  let high := rotateHalf (swapHalf low) 13
  (strongAvalanche (low ^^^ (half secret 0 ^^^ half secret 4)),
    strongAvalanche (high ^^^ (half secret 8 ^^^ half secret 12)))

/-- Four to eight bytes. -/
def small (bytes : Array UInt8) : UInt64 × UInt64 :=
  let joined := half bytes 0 + (half bytes (bytes.size - 4) <<< 32)
  let keyed := joined ^^^ (word secret 16 ^^^ word secret 24)
  let m := product keyed (prime64a + (UInt64.ofNat bytes.size <<< 2))
  let high := m.2 + (m.1 <<< 1)
  let low := m.1 ^^^ (high >>> 3)
  (xorShift (xorShift low 35 * mixPrimeB) 28, avalanche high)

/-- Nine to sixteen bytes. -/
def medium (bytes : Array UInt8) : UInt64 × UInt64 :=
  let first := word bytes 0
  let last := word bytes (bytes.size - 8)
  let m := product (first ^^^ last ^^^ (word secret 32 ^^^ word secret 40)) prime64a
  let low := m.1 + ((UInt64.ofNat bytes.size - 1) <<< 54)
  let last := last ^^^ (word secret 48 ^^^ word secret 56)
  let high := m.2 + (last + (last &&& 0xFFFFFFFF) * (prime32b - 1))
  let h := product (low ^^^ swapWord high) prime64b
  (avalanche h.1, avalanche (h.2 + high * prime64b))

/-- Two blocks of sixteen bytes mixed crosswise into a pair of words. -/
def mixPairs (bytes : Array UInt8) (acc : UInt64 × UInt64) (i j s : Nat) : UInt64 × UInt64 :=
  ((acc.1 + mixPair bytes i s) ^^^ (word bytes j + word bytes (j + 8)),
    (acc.2 + mixPair bytes j (s + 16)) ^^^ (word bytes i + word bytes (i + 8)))

/-- The pair of words condensed with the length. -/
def finish (size : Nat) (acc : UInt64 × UInt64) : UInt64 × UInt64 :=
  (avalanche (acc.1 + acc.2),
    0 - avalanche (acc.1 * prime64a + acc.2 * prime64d + UInt64.ofNat size * prime64b))

/-- Seventeen to 128 bytes: from the middle to both ends. -/
def large (bytes : Array UInt8) : UInt64 × UInt64 :=
  let size := bytes.size
  let rounds := (size - 1) / 32
  finish size <| (List.range (rounds + 1)).reverse.foldl
    (fun acc i => mixPairs bytes acc (16 * i) (size - 16 * (i + 1)) (32 * i))
    (UInt64.ofNat size * prime64a, 0)

/-- From 129 to 240 bytes: four blocks, a scramble, the remaining blocks and the last one. -/
def huge (bytes : Array UInt8) : UInt64 × UInt64 :=
  let size := bytes.size
  let start := (List.range 4).foldl
    (fun acc i => mixPairs bytes acc (32 * i) (32 * i + 16) (32 * i))
    (UInt64.ofNat size * prime64a, 0)
  let rest := (List.range (size / 32 - 4)).foldl
    (fun acc i => mixPairs bytes acc (32 * (i + 4)) (32 * (i + 4) + 16) (32 * i + 3))
    (avalanche start.1, avalanche start.2)
  finish size (mixPairs bytes rest (size - 16) (size - 32) 103)

end Short128

/-! ### More than 240 bytes -/

namespace Long

/-- The number of bytes in a stripe. -/
def stripeSize : Nat := 64

/-- The number of stripes in a block. -/
def blockStripes : Nat := 16

/-- The number of bytes in a block. -/
def blockSize : Nat := stripeSize * blockStripes

/-- The running words before the first stripe. -/
def start : Array UInt64 :=
  #[prime32c, prime64a, prime64b, prime64c, prime64d, prime32b, prime64e, prime32a]

/-- One stripe at `i` absorbed with the secret at `s`: each word adds the product of its keyed
halves to its own lane and its plain value to the neighbouring lane. -/
def absorb (bytes : Array UInt8) (acc : Array UInt64) (i s : Nat) : Array UInt64 :=
  Array.ofFn fun lane : Fin 8 =>
    let keyed := word bytes (i + 8 * lane.val) ^^^ word secret (s + 8 * lane.val)
    let neighbour := if lane.val % 2 = 0 then lane.val + 1 else lane.val - 1
    let lowHalf : UInt64 := keyed &&& 0xFFFFFFFF
    acc.getD lane.val 0 + word bytes (i + 8 * neighbour) + lowHalf * (keyed >>> 32)

/-- The scramble at the end of a block. -/
def scramble (acc : Array UInt64) : Array UInt64 :=
  Array.ofFn fun lane : Fin 8 =>
    (xorShift (acc.getD lane.val 0) 47 ^^^ word secret (128 + 8 * lane.val)) * prime32a

/-- The first `count` stripes of the block at `i`. -/
def absorbBlock (bytes : Array UInt8) (acc : Array UInt64) (i count : Nat) : Array UInt64 :=
  (List.range count).foldl
    (fun acc n => absorb bytes acc (i + stripeSize * n) (8 * n)) acc

/-- The running words after the whole input. -/
def state (bytes : Array UInt8) : Array UInt64 :=
  let size := bytes.size
  let blocks := (size - 1) / blockSize
  let full := (List.range blocks).foldl
    (fun acc b => scramble (absorbBlock bytes acc (blockSize * b) blockStripes)) start
  let stripes := (size - 1 - blockSize * blocks) / stripeSize
  let partly := absorbBlock bytes full (blockSize * blocks) stripes
  absorb bytes partly (size - stripeSize) 121

/-- The running words condensed pairwise with the secret at `s`. -/
def merge (acc : Array UInt64) (s : Nat) (seed : UInt64) : UInt64 :=
  avalanche <| (List.range 4).foldl
    (fun h i => h + foldedProduct (acc.getD (2 * i) 0 ^^^ word secret (s + 16 * i))
      (acc.getD (2 * i + 1) 0 ^^^ word secret (s + 16 * i + 8))) seed

/-- The low word, which is also the 64-bit hash. -/
def low (bytes : Array UInt8) (acc : Array UInt64) : UInt64 :=
  merge acc 11 (UInt64.ofNat bytes.size * prime64a)

/-- The high word. -/
def high (bytes : Array UInt8) (acc : Array UInt64) : UInt64 :=
  merge acc 117 (~~~(UInt64.ofNat bytes.size * prime64b))

end Long

/-! ### The hashes -/

/-- The 64-bit hash. -/
def hash64 (input : Bytes) : UInt64 :=
  let bytes := input.toArray
  if bytes.size = 0 then strongAvalanche (word secret 56 ^^^ word secret 64)
  else if bytes.size ≤ 3 then Short64.tiny bytes
  else if bytes.size ≤ 8 then Short64.small bytes
  else if bytes.size ≤ 16 then Short64.medium bytes
  else if bytes.size ≤ 128 then Short64.large bytes
  else if bytes.size ≤ 240 then Short64.huge bytes
  else Long.low bytes (Long.state bytes)

/-- The low and the high word of the 128-bit hash. -/
def hash128 (input : Bytes) : UInt64 × UInt64 :=
  let bytes := input.toArray
  if bytes.size = 0 then
    (strongAvalanche (word secret 64 ^^^ word secret 72),
      strongAvalanche (word secret 80 ^^^ word secret 88))
  else if bytes.size ≤ 3 then Short128.tiny bytes
  else if bytes.size ≤ 8 then Short128.small bytes
  else if bytes.size ≤ 16 then Short128.medium bytes
  else if bytes.size ≤ 128 then Short128.large bytes
  else if bytes.size ≤ 240 then Short128.huge bytes
  else
    let acc := Long.state bytes
    (Long.low bytes acc, Long.high bytes acc)

end BodyCache.Xxh3
