import BodyCache.Hex
import BodyCache.Xxh3

/-!
# Content fingerprints

A fingerprint identifies the content of a file: sixteen bytes, the 128-bit XXH3 hash with its
least significant byte first. Two files count as equal when their fingerprints are.

## Main statements

* `Fingerprint.ofBytes?_bytes`: the bytes of a fingerprint give the fingerprint back.
* `Fingerprint.ofBytes?_eq_some_iff`: exactly the byte strings of length sixteen are fingerprints.
-/

namespace BodyCache

/-- Sixteen bytes that stand for a file's content. -/
structure Fingerprint where
  bytes : Bytes
  length_bytes : bytes.length = 16

namespace Fingerprint

/-- The bytes determine a fingerprint. -/
@[ext] theorem ext {a b : Fingerprint} (h : a.bytes = b.bytes) : a = b := by
  cases a; cases b; cases h; rfl

instance : DecidableEq Fingerprint := fun a b =>
  if h : a.bytes = b.bytes then .isTrue (ext h) else .isFalse fun e => h (e ▸ rfl)

/-- Reads a fingerprint from its bytes; any other number of bytes is refused. -/
def ofBytes? (bytes : Bytes) : Option Fingerprint :=
  if h : bytes.length = 16 then some ⟨bytes, h⟩ else none

/-- The fingerprint of a content. -/
def ofContent (content : Bytes) : Fingerprint where
  bytes :=
    let h := Xxh3.hash128 content
    LittleEndian.encode 8 h.1.toNat ++ LittleEndian.encode 8 h.2.toNat
  length_bytes := by simp

/-- The text form: thirty-two digits, in the order of the bytes. -/
def text (f : Fingerprint) : String := Hex.encode f.bytes

/-- A short form for messages to developers. -/
def summary (f : Fingerprint) : String :=
  "ContentHash(" ++ String.ofList ((Hex.digits f.bytes).take 8) ++ "..)"

/-- The bytes of a fingerprint give the fingerprint back. -/
@[simp] theorem ofBytes?_bytes (f : Fingerprint) : ofBytes? f.bytes = some f := by
  rw [ofBytes?, dif_pos f.length_bytes]

/-- A byte string is read as a fingerprint exactly when it is the bytes of one. -/
theorem ofBytes?_eq_some_iff {bytes : Bytes} {f : Fingerprint} :
    ofBytes? bytes = some f ↔ f.bytes = bytes := by
  constructor
  · intro h
    rw [ofBytes?] at h
    split at h
    · exact (Option.some.inj h) ▸ rfl
    · cases h
  · rintro rfl
    exact ofBytes?_bytes f

end Fingerprint

end BodyCache
