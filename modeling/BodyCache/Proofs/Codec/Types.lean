import BodyCache.Codec.Types
import BodyCache.Proofs.Codec.Lawful

/-!
# The Codecs of Types and Prototypes Are Lawful

A type contains types, directly and in lists, so its reader descends into itself. The depth that
the reader is given is the number of bytes at hand. Every level of a type takes at least one byte,
which is why the depth always suffices.

## Main results

* `TypeRef.reads_decodeWithin`: a type is read back within a depth of as many levels as it takes
  bytes.
* `TypeRef.lawful_codec`, `Prototype.lawful_codec`: the codecs are lawful.
-/

namespace BodyCache

/-- The codec of primitives is lawful. -/
theorem Primitive.lawful_codec : Primitive.codec.Lawful := by
  refine Codec.lawful_oneOf ?_ (by decide)
  intro p
  cases p <;> decide

/-- The codec of class references is lawful. -/
theorem ClassRef.lawful_codec : ClassRef.codec.Lawful := Codec.lawful_text.iso fun _ => rfl

namespace TypeRef

/-! ### The bytes of a type -/

/-- The bytes of a type begin with the number of its form. -/
theorem encode_ne_nil (t : TypeRef) : t.encode ≠ [] := by
  intro h
  cases t <;>
    rw [encode] at h <;> exact Varint.encode_ne_nil _ (List.append_eq_nil_iff.mp h).1

/-- There are no more types in a list than bytes. -/
theorem length_le_encodeAll (ts : List TypeRef) : ts.length ≤ (encodeAll ts).length := by
  induction ts with
  | nil => exact Nat.le_refl 0
  | cons t ts ih =>
      have ht := List.length_pos_iff.mpr t.encode_ne_nil
      rw [encodeAll, List.length_cons, List.length_append]
      omega

/-! ### Reading a type -/

mutual

/-- **A type is read back** within a depth of as many levels as it takes bytes. -/
theorem reads_decodeWithin (t : TypeRef) (depth : Nat) (hdepth : t.encode.length ≤ depth)
    (hlen : t.encode.length < Codec.addressLimit) : (decodeWithin depth).Reads t.encode t := by
  obtain ⟨depth, rfl⟩ : ∃ d, depth = d + 1 := by
    have h := List.length_pos_iff.mpr t.encode_ne_nil
    exact ⟨depth - 1, by omega⟩
  cases t with
  | primitive p =>
      refine (Varint.reads_of_lt (by decide)).bind ?_
      exact (Primitive.lawful_codec.reads p (Codec.length_lt_of_append hlen)).bind_pure
        TypeRef.primitive
  | named c =>
      refine (Varint.reads_of_lt (by decide)).bind ?_
      exact (ClassRef.lawful_codec.reads c (Codec.length_lt_of_append hlen)).bind_pure TypeRef.named
  | array element =>
      rw [encode, List.length_append, Varint.length_encode_of_lt (by decide)] at hlen hdepth
      refine (Varint.reads_of_lt (by decide)).bind ?_
      exact (reads_decodeWithin element depth (by omega) (by omega)).bind_pure TypeRef.array
  | byRef element =>
      rw [encode, List.length_append, Varint.length_encode_of_lt (by decide)] at hlen hdepth
      refine (Varint.reads_of_lt (by decide)).bind ?_
      exact (reads_decodeWithin element depth (by omega) (by omega)).bind_pure TypeRef.byRef
  | generic element arguments =>
      rw [encode, List.length_append, List.length_append, List.length_append,
        Varint.length_encode_of_lt (by decide)] at hlen hdepth
      have hcount := length_le_encodeAll arguments
      refine (Varint.reads_of_lt (by decide)).bind ?_
      refine (reads_decodeWithin element depth (by omega) (by omega)).bind ?_
      refine (Codec.reads_size (by omega)).bind ?_
      exact (reads_times_decodeWithin arguments depth (by omega) (by omega)).bind_pure
        (TypeRef.generic element)
  | modified element modifier required =>
      rw [encode, List.length_append, List.length_append, List.length_append,
        Varint.length_encode_of_lt (by decide)] at hlen hdepth
      refine (Varint.reads_of_lt (by decide)).bind ?_
      refine (reads_decodeWithin element depth (by omega) (by omega)).bind ?_
      refine (ClassRef.lawful_codec.reads modifier (by omega)).bind ?_
      exact (Codec.lawful_bool.reads required (by omega)).bind_pure
        (TypeRef.modified element modifier)

/-- Types that follow one another are read back within a depth of as many levels as they take
bytes. -/
theorem reads_times_decodeWithin (ts : List TypeRef) (depth : Nat)
    (hdepth : (encodeAll ts).length ≤ depth) (hlen : (encodeAll ts).length < Codec.addressLimit) :
    ((decodeWithin depth).times ts.length).Reads (encodeAll ts) ts := by
  cases ts with
  | nil => exact Decoder.Reads.pure []
  | cons t ts =>
      rw [encodeAll, List.length_append] at hlen hdepth
      refine (reads_decodeWithin t depth (by omega) (by omega)).bind ?_
      exact (reads_times_decodeWithin ts depth (by omega) (by omega)).bind_pure (t :: ·)

end

/-- What is taken for a type at every level that it has bytes for is taken for it by the codec, which
reads at as many levels as there are bytes. -/
theorem reads_codec {w : Bytes} {t : TypeRef}
    (h : ∀ depth, w.length ≤ depth → (decodeWithin depth).Reads w t) : codec.decode.Reads w t := by
  intro rest
  refine h _ ?_ rest
  rw [List.length_append]
  exact Nat.le_add_right _ _

/-- The codec of types is lawful. -/
theorem lawful_codec : codec.Lawful where
  reads t hlen := reads_codec fun depth hdepth => reads_decodeWithin t depth hdepth hlen
  ne_nil := encode_ne_nil

end TypeRef

/-- The codec of prototypes is lawful. -/
theorem Prototype.lawful_codec : Prototype.codec.Lawful :=
  (TypeRef.lawful_codec.pair TypeRef.lawful_codec.list).iso Prototype.ofTypes_types

end BodyCache
