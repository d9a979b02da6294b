import BodyCache.Body

/-!
# Visiting the references of a body

A type is rebuilt from its parts: the element first, then the arguments from left to right or the
modifier. A body is rebuilt from its instructions and its catch clauses, in order; everything that
is not a reference is copied.

## Main statements

* `TypeRef.mapClassesM`, `MethodBody.mapRefsM`: the visits, in any monad.
-/

namespace BodyCache

variable {m : Type → Type} [Monad m]

namespace TypeRef

mutual

/-- Replaces every class in a type. -/
def mapClassesM (f : ClassRef → m ClassRef) : TypeRef → m TypeRef
  | .primitive p => return .primitive p
  | .named c => return .named (← f c)
  | .array element => return .array (← element.mapClassesM f)
  | .byRef element => return .byRef (← element.mapClassesM f)
  | .generic element arguments => do
    let element ← element.mapClassesM f
    let arguments ← mapAllClassesM f arguments
    return .generic element arguments
  | .modified element modifier required => do
    let element ← element.mapClassesM f
    let modifier ← f modifier
    return .modified element modifier required

/-- Replaces every class in a list of types, from left to right. -/
def mapAllClassesM (f : ClassRef → m ClassRef) : List TypeRef → m (List TypeRef)
  | [] => return []
  | t :: ts => do
    let t ← t.mapClassesM f
    let ts ← mapAllClassesM f ts
    return t :: ts

end

end TypeRef

/-- What to do with each kind of reference. -/
structure RefVisitor (m : Type → Type) where
  type : TypeRef → m TypeRef
  method : MethodRef → m MethodRef
  field : FieldRef → m FieldRef

namespace Prototype

/-- Replaces the return type, then the parameter types. -/
def mapTypesM (f : TypeRef → m TypeRef) (p : Prototype) : m Prototype := do
  let returnType ← f p.returnType
  let parameters ← p.parameters.mapM f
  return ofTypes returnType parameters

end Prototype

namespace Operand

/-- Replaces the reference of an operand. -/
def mapRefsM (v : RefVisitor m) : Operand → m Operand
  | .type t => return .type (← v.type t)
  | .method r => return .method (← v.method r)
  | .field r => return .field (← v.field r)
  | .none => return .none
  | .literal n => return .literal n
  | .text s => return .text s
  | .target i => return .target i

end Operand

namespace Instruction

/-- Replaces the reference of an instruction. -/
def mapRefsM (v : RefVisitor m) (i : Instruction) : m Instruction := do
  return { i with operand := ← i.operand.mapRefsM v }

end Instruction

namespace CatchClause

/-- Replaces the exception type of a clause. -/
def mapRefsM (v : RefVisitor m) (c : CatchClause) : m CatchClause := do
  return { c with exceptionType := ← v.type c.exceptionType }

end CatchClause

namespace ExceptionTable

/-- Replaces the exception types of the handlers of a range. -/
def mapRefsM (v : RefVisitor m) (e : ExceptionTable) : m ExceptionTable := do
  return { e with catches := ← e.catches.mapM (CatchClause.mapRefsM v) }

end ExceptionTable

namespace MethodBody

/-- Replaces every reference of a body: instructions first, then catch clauses. -/
def mapRefsM (v : RefVisitor m) (b : MethodBody) : m MethodBody := do
  let instructions ← b.instructions.mapM (Instruction.mapRefsM v)
  let exceptions ← b.exceptions.mapM (ExceptionTable.mapRefsM v)
  return { b with instructions, exceptions }

end MethodBody

end BodyCache
