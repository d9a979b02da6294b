import BodyCache.Codec
import BodyCache.Prototype

/-!
# Types and prototypes as bytes

A type is written as the number of its form followed by its parts; the parts of a type are types
themselves. Reading a type descends as deep as the bytes say. Every level takes at least one byte,
so the number of bytes bounds the depth.

A prototype is written as its types only. The signature and its hash are computed when it is read.
-/

namespace BodyCache

namespace Primitive

/-- The codec of primitives. -/
def codec : Codec Primitive := .oneOf all

end Primitive

namespace ClassRef

/-- The codec of class references. -/
def codec : Codec ClassRef := Codec.text.iso ClassRef.mk ClassRef.descriptor

end ClassRef

namespace TypeRef

mutual

/-- The bytes of a type. -/
def encode : TypeRef → Bytes
  | .primitive p => Varint.encode 0 ++ Primitive.codec.encode p
  | .named c => Varint.encode 1 ++ ClassRef.codec.encode c
  | .array element => Varint.encode 2 ++ element.encode
  | .byRef element => Varint.encode 3 ++ element.encode
  | .generic element arguments =>
    Varint.encode 4 ++ (element.encode ++
      (Codec.size.encode arguments.length ++ encodeAll arguments))
  | .modified element modifier required =>
    Varint.encode 5 ++ (element.encode ++
      (ClassRef.codec.encode modifier ++ Codec.bool.encode required))

/-- The bytes of a list of types, one after the other. -/
def encodeAll : List TypeRef → Bytes
  | [] => []
  | t :: ts => t.encode ++ encodeAll ts

end

/-- Reads a type that is nested at most `depth` levels deep. -/
def decodeWithin : (depth : Nat) → Decoder TypeRef
  | 0 => Decoder.fail (.unexpectedEnd 0)
  | depth + 1 => do
    match ← Varint.decode 4 with
    | 0 => return .primitive (← Primitive.codec.decode)
    | 1 => return .named (← ClassRef.codec.decode)
    | 2 => return .array (← decodeWithin depth)
    | 3 => return .byRef (← decodeWithin depth)
    | 4 =>
      let element ← decodeWithin depth
      let arguments ← Decoder.times (decodeWithin depth) (← Codec.size.decode)
      return .generic element arguments
    | 5 =>
      let element ← decodeWithin depth
      let modifier ← ClassRef.codec.decode
      return .modified element modifier (← Codec.bool.decode)
    | _ => Decoder.fail .unknownVariant

/-- The codec of types. -/
def codec : Codec TypeRef where
  encode := encode
  decode := fun bytes => decodeWithin bytes.length bytes

end TypeRef

namespace Prototype

/-- The codec of prototypes. -/
def codec : Codec Prototype :=
  (TypeRef.codec.pair (.list TypeRef.codec)).iso (fun v => ofTypes v.1 v.2)
    fun p => (p.returnType, p.parameters)

end Prototype

end BodyCache
