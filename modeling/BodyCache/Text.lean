import BodyCache.LittleEndian

/-!
# Text

What several formats need to know about texts: how a text is cut at a marker, which characters are
white space, and what the UTF-8 form of a text is. Reading this form refuses every byte string that
is not the form of some text: truncated and overlong sequences, surrogates, and numbers beyond the
last code point.

## Main statements

* `Text.append_of_cut?`: the two halves of a cut and the marker between them give the text back.
* `Utf8.decode?_eq_some_iff`: exactly the bytes that writing a text produces are read, as that
  text.
-/

namespace BodyCache

namespace Text

/-! ### Cutting -/

/-- The text before and after the first occurrence of a marker. -/
def cut? (marker : List Char) : List Char → Option (List Char × List Char)
  | [] => if marker = [] then some ([], []) else none
  | c :: rest =>
    if marker.isPrefixOf (c :: rest) then some ([], (c :: rest).drop marker.length)
    else (cut? marker rest).map fun halves => (c :: halves.1, halves.2)

/-- The two halves of a cut and the marker between them give the text back. -/
theorem append_of_cut? {marker text before after : List Char}
    (h : cut? marker text = some (before, after)) : before ++ marker ++ after = text := by
  induction text generalizing before with
  | nil =>
    rw [cut?] at h
    split at h
    · next hm =>
      cases h
      simp [hm]
    · cases h
  | cons c rest ih =>
    rw [cut?] at h
    split at h
    · next hm =>
      cases h
      obtain ⟨t, ht⟩ := List.isPrefixOf_iff_prefix.mp hm
      rw [← ht]
      simp
    · obtain ⟨⟨b, a⟩, hb, he⟩ := Option.map_eq_some_iff.mp h
      cases he
      rw [← ih hb]
      rfl

/-! ### White space -/

/-- Whether a character is white space: whether it has the Unicode property White_Space. -/
def isBlank (c : Char) : Bool :=
  (9 ≤ c.toNat && c.toNat ≤ 13) || c.toNat = 0x20 || c.toNat = 0x85 || c.toNat = 0xA0 ||
    c.toNat = 0x1680 || (0x2000 ≤ c.toNat && c.toNat ≤ 0x200A) || c.toNat = 0x2028 ||
    c.toNat = 0x2029 || c.toNat = 0x202F || c.toNat = 0x205F || c.toNat = 0x3000

/-- Whether a text consists of white space only. -/
def isAllBlank (s : String) : Bool := s.toList.all isBlank

end Text

/-! ### Text as bytes -/

namespace Utf8

/-- The bytes of a text. -/
def encode (s : String) : Bytes := s.toByteArray.data.toList

/-- The text that has the given bytes, if there is one. -/
def decode? (bytes : Bytes) : Option String := String.fromUTF8? ⟨bytes.toArray⟩

/-- What is written for a text is read as that text. -/
@[simp] theorem decode?_encode (s : String) : decode? (encode s) = some s := by
  have h : (⟨s.toByteArray.data.toList.toArray⟩ : ByteArray) = s.toByteArray := rfl
  rw [decode?, encode, h, String.fromUTF8?, dif_pos s.isValidUTF8]
  rfl

/-- What is read was written for the text that reading gives. -/
theorem encode_of_decode? {bytes : Bytes} {s : String} (h : decode? bytes = some s) :
    encode s = bytes := by
  rw [decode?, String.fromUTF8?] at h
  split at h
  · cases h
    rfl
  · cases h

/-- Reading accepts exactly what writing produces. -/
theorem decode?_eq_some_iff {bytes : Bytes} {s : String} :
    decode? bytes = some s ↔ encode s = bytes :=
  ⟨encode_of_decode?, fun h => h ▸ decode?_encode s⟩

end Utf8

end BodyCache
