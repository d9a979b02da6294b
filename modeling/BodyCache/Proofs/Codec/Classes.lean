import BodyCache.Codec.Classes
import BodyCache.Proofs.Codec.Types

/-!
# The Codecs of Bodies, Classes and Containers Are Lawful

Records are put together from pairs, so their codecs are lawful because those of their fields are.
The codec of operands is a choice, and is taken case by case.

## Main results

* `Operand.lawful_codec`, `MethodBody.lawful_codec`, `ClassDef.lawful_codec`: the codecs of the
  parts are lawful.
* `Container.lawful_codec`: the codec of containers is lawful.
-/

namespace BodyCache

open Codec

/-! ### Bodies -/

/-- The codec of method references is lawful. -/
theorem MethodRef.lawful_codec : MethodRef.codec.Lawful :=
  (TypeRef.lawful_codec.pair (lawful_text.pair Prototype.lawful_codec)).iso fun _ => rfl

/-- The codec of field references is lawful. -/
theorem FieldRef.lawful_codec : FieldRef.codec.Lawful :=
  (ClassRef.lawful_codec.pair (lawful_text.pair TypeRef.lawful_codec)).iso fun _ => rfl

/-- The codec of operations is lawful. -/
theorem Opcode.lawful_codec : Opcode.codec.Lawful := by
  refine lawful_oneOf ?_ (by decide)
  intro op
  cases op <;> decide

/-- The codec of operands is lawful. -/
theorem Operand.lawful_codec : Operand.codec.Lawful where
  reads o hlen := by
    cases o with
    | none => exact (Varint.reads_of_lt (n := 0) (by decide)).bind_of_eq rfl
    | literal v =>
        refine (Varint.reads_of_lt (by decide)).bind ?_
        exact (lawful_int64.reads v (length_lt_of_append hlen)).bind_pure Operand.literal
    | text s =>
        refine (Varint.reads_of_lt (by decide)).bind ?_
        exact (lawful_text.reads s (length_lt_of_append hlen)).bind_pure Operand.text
    | type t =>
        refine (Varint.reads_of_lt (by decide)).bind ?_
        exact (TypeRef.lawful_codec.reads t (length_lt_of_append hlen)).bind_pure Operand.type
    | method m =>
        refine (Varint.reads_of_lt (by decide)).bind ?_
        exact (MethodRef.lawful_codec.reads m (length_lt_of_append hlen)).bind_pure Operand.method
    | field f =>
        refine (Varint.reads_of_lt (by decide)).bind ?_
        exact (FieldRef.lawful_codec.reads f (length_lt_of_append hlen)).bind_pure Operand.field
    | target i =>
        refine (Varint.reads_of_lt (by decide)).bind ?_
        exact (lawful_word32.reads i (length_lt_of_append hlen)).bind_pure Operand.target
  ne_nil o := by
    cases o with
    | none => exact Varint.encode_ne_nil 0
    | literal | text | type | method | field | target =>
        intro h
        exact Varint.encode_ne_nil _ (List.append_eq_nil_iff.mp h).1

/-- The codec of instructions is lawful. -/
theorem Instruction.lawful_codec : Instruction.codec.Lawful :=
  (Opcode.lawful_codec.pair (lawful_word16.list.pair Operand.lawful_codec)).iso fun _ => rfl

/-- The codec of catch clauses is lawful. -/
theorem CatchClause.lawful_codec : CatchClause.codec.Lawful :=
  (TypeRef.lawful_codec.pair lawful_word32).iso fun _ => rfl

/-- The codec of the handlers of a range is lawful. -/
theorem ExceptionTable.lawful_codec : ExceptionTable.codec.Lawful :=
  (lawful_word32.pair (lawful_word32.pair
    (CatchClause.lawful_codec.list.pair lawful_word32.option))).iso fun _ => rfl

/-- The codec of bodies is lawful. -/
theorem MethodBody.lawful_codec : MethodBody.codec.Lawful :=
  (lawful_word16.pair (lawful_word16.pair (lawful_word16.pair
    (Instruction.lawful_codec.list.pair ExceptionTable.lawful_codec.list)))).iso fun _ => rfl

/-! ### Classes -/

/-- The codec of emitted fields is lawful. -/
theorem FieldDef.lawful_codec : FieldDef.codec.Lawful :=
  (lawful_text.pair (TypeRef.lawful_codec.pair lawful_word32)).iso fun _ => rfl

/-- The codec of emitted methods is lawful. -/
theorem MethodDef.lawful_codec : MethodDef.codec.Lawful :=
  (lawful_text.pair (Prototype.lawful_codec.pair
    (lawful_word32.pair MethodBody.lawful_codec.option))).iso fun _ => rfl

/-- The codec of emitted classes is lawful. -/
theorem ClassDef.lawful_codec : ClassDef.codec.Lawful :=
  (ClassRef.lawful_codec.pair (ClassRef.lawful_codec.option.pair (ClassRef.lawful_codec.list.pair
    (lawful_word32.pair (lawful_text.option.pair
      (FieldDef.lawful_codec.list.pair MethodDef.lawful_codec.list)))))).iso fun _ => rfl

/-- **The codec of containers is lawful.** -/
theorem Container.lawful_codec : Container.codec.Lawful :=
  ClassDef.lawful_codec.list.iso fun _ => rfl

end BodyCache
