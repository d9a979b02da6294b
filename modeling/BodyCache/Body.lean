import BodyCache.Reference

/-!
# Method bodies

A body is a stream of instructions and a table of exception handlers. Branch targets and handler
addresses are indices into the stream, so a body is a plain value without inner pointers.
-/

namespace BodyCache

/-- The operations of the machine. -/
inductive Opcode where
  | nop | move | moveResult | moveException | returnVoid | return | const | constString | constClass
  | checkCast | instanceOf | newInstance | newArray | arrayLength | throw | goto
  | ifEq | ifNe | ifLt | ifGe | aget | aput | iget | iput | sget | sput
  | invokeVirtual | invokeSuper | invokeDirect | invokeStatic | invokeInterface
  | add | sub | mul
  deriving DecidableEq, Repr

namespace Opcode

/-- The operations in the order of their numbers in container files. -/
def all : List Opcode :=
  [nop, move, moveResult, moveException, returnVoid, .return, const, constString, constClass,
    checkCast, instanceOf, newInstance, newArray, arrayLength, throw, goto,
    ifEq, ifNe, ifLt, ifGe, aget, aput, iget, iput, sget, sput,
    invokeVirtual, invokeSuper, invokeDirect, invokeStatic, invokeInterface, add, sub, mul]

end Opcode

/-- What an instruction carries besides its registers. -/
inductive Operand where
  | none
  | literal (value : Int64)
  | text (value : String)
  | type (target : TypeRef)
  | method (target : MethodRef)
  | field (target : FieldRef)
  | target (index : UInt32)
  deriving DecidableEq

/-- One instruction. -/
structure Instruction where
  opcode : Opcode
  registers : List UInt16
  operand : Operand
  deriving DecidableEq

/-- One catch clause: the exceptions it takes and the index of its handler. -/
structure CatchClause where
  exceptionType : TypeRef
  handler : UInt32
  deriving DecidableEq

/-- The handlers of one guarded range of instructions. -/
structure ExceptionTable where
  tryStart : UInt32
  tryEnd : UInt32
  catches : List CatchClause
  catchAll : Option UInt32
  deriving DecidableEq

/-- A method body. -/
structure MethodBody where
  registersSize : UInt16
  incomingArgs : UInt16 := 0
  outgoingArgs : UInt16 := 0
  instructions : List Instruction
  exceptions : List ExceptionTable := []
  deriving DecidableEq

namespace MethodBody

/-- All catch clauses, range by range. -/
def catches (body : MethodBody) : List CatchClause := body.exceptions.flatMap (·.catches)

/-- The body with every catch clause changed in place. -/
def mapCatches (f : CatchClause → CatchClause) (body : MethodBody) : MethodBody :=
  { body with
    exceptions := body.exceptions.map fun range => { range with catches := range.catches.map f } }

end MethodBody

end BodyCache
