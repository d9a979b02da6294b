import BodyCache.Body
import BodyCache.Retarget.Question

/-!
# Body Templates

A template is a method body before names are chosen: its classes and methods are given by their
stable identities. A compilation, known by its symbols, *emits* a template by putting the names
of its own classes and methods in their places. Emission fails when the compilation lacks one of
them. Two compilations of one template differ in nothing but these names, so emission under the
current symbols is what a fresh compilation of the template produces.

Methods come in three kinds. A member has a scope id and is named as a whole by the symbols. A
method of a delegate adapter has no scope id; it follows its adapter and keeps its name. A method
of a type that is no class, such as an array, follows that type and keeps its name.

## Main definitions

* `TypeTemplate`, `MethodTemplate`, `FieldTemplate`, `BodyTemplate`: the templates.
* `BodyTemplate.emit`: the body that a compilation makes of a template.
-/

namespace BodyCache

/-- A type whose classes are given by their identities. -/
inductive TypeTemplate where
  | primitive (kind : Primitive)
  | named (identity : ClassIdentity)
  | array (element : TypeTemplate)
  | byRef (element : TypeTemplate)
  | generic (element : TypeTemplate) (arguments : List TypeTemplate)
  | modified (element : TypeTemplate) (modifier : ClassIdentity) (required : Bool)

namespace TypeTemplate

/-- Whether the type is a class and nothing else. -/
def isClass : TypeTemplate → Bool
  | .named _ => true
  | _ => false

mutual

/-- The type under the names of a compilation. -/
def emit (s : Symbols) : TypeTemplate → Option TypeRef
  | .primitive p => return .primitive p
  | .named identity => return .named (← s.classFor identity)
  | .array element => return .array (← element.emit s)
  | .byRef element => return .byRef (← element.emit s)
  | .generic element arguments => do
    let element ← element.emit s
    let arguments ← emitAll s arguments
    return .generic element arguments
  | .modified element modifier required => do
    let element ← element.emit s
    let modifier ← s.classFor modifier
    return .modified element modifier required

/-- The types under the names of a compilation. -/
def emitAll (s : Symbols) : List TypeTemplate → Option (List TypeRef)
  | [] => return []
  | t :: ts => do
    let t ← t.emit s
    let ts ← emitAll s ts
    return t :: ts

end

end TypeTemplate

/-- A prototype whose classes are given by their identities. -/
structure PrototypeTemplate where
  returnType : TypeTemplate
  parameters : List TypeTemplate := []

namespace PrototypeTemplate

/-- The prototype under the names of a compilation. -/
def emit (s : Symbols) (p : PrototypeTemplate) : Option Prototype := do
  let returnType ← p.returnType.emit s
  let parameters ← p.parameters.mapM (TypeTemplate.emit s)
  return .ofTypes returnType parameters

end PrototypeTemplate

/-- A method given by its identity, or by the identity of what it belongs to. -/
inductive MethodTemplate where
  /-- A method with a scope id, compiled or imported. -/
  | member (id : ScopeId)
  /-- A method of a delegate adapter. -/
  | ofAdapter (key : DelegateKey) (name : String) (prototype : PrototypeTemplate)
  /-- A method of a type that is no class. -/
  | ofType (owner : TypeTemplate) (name : String) (prototype : PrototypeTemplate)
      (compound : owner.isClass = false := by rfl)

namespace MethodTemplate

/-- The method under the names of a compilation. -/
def emit (s : Symbols) : MethodTemplate → Option MethodRef
  | .member id => s.methodFor id
  | .ofAdapter key name prototype => do
    let owner ← s.classFor (.adapter key)
    let prototype ← prototype.emit s
    return ⟨.named owner, name, prototype⟩
  | .ofType owner name prototype _ => do
    let owner ← owner.emit s
    let prototype ← prototype.emit s
    return ⟨owner, name, prototype⟩

end MethodTemplate

/-- A field of a class that is given by its identity. -/
structure FieldTemplate where
  owner : ClassIdentity
  name : String
  type : TypeTemplate

namespace FieldTemplate

/-- The field under the names of a compilation. -/
def emit (s : Symbols) (f : FieldTemplate) : Option FieldRef := do
  let owner ← s.classFor f.owner
  let type ← f.type.emit s
  return ⟨owner, f.name, type⟩

end FieldTemplate

/-- What the template of an instruction carries besides its registers. -/
inductive OperandTemplate where
  | none
  | literal (value : Int64)
  | text (value : String)
  | type (target : TypeTemplate)
  | method (target : MethodTemplate)
  | field (target : FieldTemplate)
  | target (index : UInt32)

namespace OperandTemplate

/-- The operand under the names of a compilation. -/
def emit (s : Symbols) : OperandTemplate → Option Operand
  | .none => return .none
  | .literal n => return .literal n
  | .text t => return .text t
  | .type t => return .type (← t.emit s)
  | .method m => return .method (← m.emit s)
  | .field f => return .field (← f.emit s)
  | .target i => return .target i

end OperandTemplate

/-- The template of an instruction. -/
structure InstructionTemplate where
  opcode : Opcode
  registers : List UInt16 := []
  operand : OperandTemplate := .none

/-- The template of a catch clause. -/
structure CatchTemplate where
  exceptionType : TypeTemplate
  handler : UInt32

/-- The template of the handlers of one guarded range. -/
structure ExceptionTemplate where
  tryStart : UInt32
  tryEnd : UInt32
  catches : List CatchTemplate
  catchAll : Option UInt32 := none

/-- The template of a method body. -/
structure BodyTemplate where
  registersSize : UInt16
  incomingArgs : UInt16 := 0
  outgoingArgs : UInt16 := 0
  instructions : List InstructionTemplate
  exceptions : List ExceptionTemplate := []

namespace InstructionTemplate

/-- The instruction under the names of a compilation. -/
def emit (s : Symbols) (i : InstructionTemplate) : Option Instruction := do
  let operand ← i.operand.emit s
  return ⟨i.opcode, i.registers, operand⟩

end InstructionTemplate

namespace CatchTemplate

/-- The clause under the names of a compilation. -/
def emit (s : Symbols) (c : CatchTemplate) : Option CatchClause := do
  let exceptionType ← c.exceptionType.emit s
  return ⟨exceptionType, c.handler⟩

end CatchTemplate

namespace ExceptionTemplate

/-- The handlers under the names of a compilation. -/
def emit (s : Symbols) (e : ExceptionTemplate) : Option ExceptionTable := do
  let catches ← e.catches.mapM (CatchTemplate.emit s)
  return ⟨e.tryStart, e.tryEnd, catches, e.catchAll⟩

end ExceptionTemplate

namespace BodyTemplate

/-- **The body that a compilation makes of a template**: the fresh compilation of its method. -/
def emit (s : Symbols) (t : BodyTemplate) : Option MethodBody := do
  let instructions ← t.instructions.mapM (InstructionTemplate.emit s)
  let exceptions ← t.exceptions.mapM (ExceptionTemplate.emit s)
  return ⟨t.registersSize, t.incomingArgs, t.outgoingArgs, instructions, exceptions⟩

end BodyTemplate

end BodyCache
