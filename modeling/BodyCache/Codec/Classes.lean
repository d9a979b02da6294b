import BodyCache.Codec.Types
import BodyCache.Container

/-!
# Bodies, classes and containers as bytes

Every record is written as its fields in order, and every choice as the number of the alternative
followed by its content.
-/

namespace BodyCache

namespace MethodRef

/-- The codec of method references. -/
def codec : Codec MethodRef :=
  (TypeRef.codec.pair (Codec.text.pair Prototype.codec)).iso (fun v => ⟨v.1, v.2.1, v.2.2⟩)
    fun m => (m.owner, m.name, m.prototype)

end MethodRef

namespace FieldRef

/-- The codec of field references. -/
def codec : Codec FieldRef :=
  (ClassRef.codec.pair (Codec.text.pair TypeRef.codec)).iso (fun v => ⟨v.1, v.2.1, v.2.2⟩)
    fun f => (f.owner, f.name, f.type)

end FieldRef

namespace Opcode

/-- The codec of operations. -/
def codec : Codec Opcode := .oneOf all

end Opcode

namespace Operand

/-- The codec of operands. -/
def codec : Codec Operand where
  encode
    | .none => Varint.encode 0
    | .literal v => Varint.encode 1 ++ Codec.int64.encode v
    | .text s => Varint.encode 2 ++ Codec.text.encode s
    | .type t => Varint.encode 3 ++ TypeRef.codec.encode t
    | .method m => Varint.encode 4 ++ MethodRef.codec.encode m
    | .field f => Varint.encode 5 ++ FieldRef.codec.encode f
    | .target i => Varint.encode 6 ++ Codec.word32.encode i
  decode := do
    match ← Varint.decode 4 with
    | 0 => return .none
    | 1 => return .literal (← Codec.int64.decode)
    | 2 => return .text (← Codec.text.decode)
    | 3 => return .type (← TypeRef.codec.decode)
    | 4 => return .method (← MethodRef.codec.decode)
    | 5 => return .field (← FieldRef.codec.decode)
    | 6 => return .target (← Codec.word32.decode)
    | _ => Decoder.fail .unknownVariant

end Operand

namespace Instruction

/-- The codec of instructions. -/
def codec : Codec Instruction :=
  (Opcode.codec.pair ((Codec.list .word16).pair Operand.codec)).iso
    (fun v => ⟨v.1, v.2.1, v.2.2⟩) fun i => (i.opcode, i.registers, i.operand)

end Instruction

namespace CatchClause

/-- The codec of catch clauses. -/
def codec : Codec CatchClause :=
  (TypeRef.codec.pair .word32).iso (fun v => ⟨v.1, v.2⟩) fun c => (c.exceptionType, c.handler)

end CatchClause

namespace ExceptionTable

/-- The codec of the handlers of one range. -/
def codec : Codec ExceptionTable :=
  (Codec.word32.pair (Codec.word32.pair
      ((Codec.list CatchClause.codec).pair (.option .word32)))).iso
    (fun v => ⟨v.1, v.2.1, v.2.2.1, v.2.2.2⟩)
    fun e => (e.tryStart, e.tryEnd, e.catches, e.catchAll)

end ExceptionTable

namespace MethodBody

/-- The codec of bodies. -/
def codec : Codec MethodBody :=
  (Codec.word16.pair (Codec.word16.pair (Codec.word16.pair
      ((Codec.list Instruction.codec).pair (.list ExceptionTable.codec))))).iso
    (fun v => ⟨v.1, v.2.1, v.2.2.1, v.2.2.2.1, v.2.2.2.2⟩)
    fun b => (b.registersSize, b.incomingArgs, b.outgoingArgs, b.instructions, b.exceptions)

end MethodBody

namespace FieldDef

/-- The codec of emitted fields. -/
def codec : Codec FieldDef :=
  (Codec.text.pair (TypeRef.codec.pair .word32)).iso (fun v => ⟨v.1, v.2.1, v.2.2⟩)
    fun f => (f.name, f.type, f.accessFlags)

end FieldDef

namespace MethodDef

/-- The codec of emitted methods. -/
def codec : Codec MethodDef :=
  (Codec.text.pair (Prototype.codec.pair (Codec.word32.pair (.option MethodBody.codec)))).iso
    (fun v => ⟨v.1, v.2.1, v.2.2.1, v.2.2.2⟩)
    fun m => (m.name, m.prototype, m.accessFlags, m.body)

end MethodDef

namespace ClassDef

/-- The codec of emitted classes. -/
def codec : Codec ClassDef :=
  (ClassRef.codec.pair ((Codec.option ClassRef.codec).pair ((Codec.list ClassRef.codec).pair
      (Codec.word32.pair ((Codec.option .text).pair
        ((Codec.list FieldDef.codec).pair (.list MethodDef.codec))))))).iso
    (fun v => ⟨v.1, v.2.1, v.2.2.1, v.2.2.2.1, v.2.2.2.2.1, v.2.2.2.2.2.1, v.2.2.2.2.2.2⟩)
    fun c => (c.target, c.superclass, c.interfaces, c.accessFlags, c.sourceFile, c.fields,
      c.methods)

end ClassDef

namespace Container

/-- The codec of containers. -/
def codec : Codec Container := (Codec.list ClassDef.codec).iso Container.mk Container.classes

end Container

end BodyCache
