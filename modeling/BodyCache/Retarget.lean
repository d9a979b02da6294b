import BodyCache.Retarget.Question
import BodyCache.Retarget.Traversal

/-!
# Retargeting

Retargeting carries the references of a cached body over to the current compilation. Each
reference is looked up in the map of the previous compilation, and the identity found there in the
symbols of the current one. This module says what the result is, reference by reference, without
any memory of earlier references.

* A class is replaced by the answer to its question.
* A method of a class is replaced as a whole by the method with its scope id, except that the
  methods of delegate adapters keep their name and follow their adapter.
* A method of any other type, such as an array, keeps its name; its types are carried over.
* A field keeps its name; its owner and its type are carried over. The fields of the generated
  class cannot be carried over.
* A body is carried over if all its references are, and fails with the first one that is not.

## Main statements

* `Bridge.carryType`, `Bridge.carryMethod`, `Bridge.carryField`, `Bridge.carryBody`.
-/

namespace BodyCache

/-- A previous compilation, known by its map, and the current one, known by its symbols. -/
structure Bridge where
  previous : SymbolMap.Index
  current : Symbols

namespace Bridge

variable (b : Bridge)

/-- The answer to a question about a class. -/
def answer (q : ClassQuestion) : Except ResolveError ClassRef :=
  match b.current.classFor q.identity with
  | some c => .ok c
  | none => .error q.otherwise

/-- A class, carried over. -/
def carryClass (c : ClassRef) : Except ResolveError ClassRef := do
  b.answer (← b.previous.classQuestion c)

/-- A type, carried over. -/
def carryType (t : TypeRef) : Except ResolveError TypeRef := t.mapClassesM b.carryClass

/-- A prototype, carried over. -/
def carryPrototype (p : Prototype) : Except ResolveError Prototype := p.mapTypesM b.carryType

/-- A method of a class, carried over. -/
def carryClassMethod (owner : ClassRef) (r : MethodRef) : Except ResolveError MethodRef := do
  match ← b.previous.methodPlan owner r with
  | .member id otherwise =>
    match b.current.methodFor id with
    | some target => return target
    | none => throw otherwise
  | .adapter question =>
    let adapter ← b.answer question
    return { r with owner := .named adapter, prototype := ← b.carryPrototype r.prototype }

/-- A method, carried over. -/
def carryMethod (r : MethodRef) : Except ResolveError MethodRef :=
  match r.ownerClass? with
  | some owner => b.carryClassMethod owner r
  | none => do
    let owner ← b.carryType r.owner
    return { r with owner, prototype := ← b.carryPrototype r.prototype }

/-- A field, carried over. -/
def carryField (r : FieldRef) : Except ResolveError FieldRef :=
  if b.previous.generatedClass? = some r.owner.descriptor then throw (.generatedField r.text)
  else do
    let owner ← b.carryClass r.owner
    return { r with owner, type := ← b.carryType r.type }

/-- What to do with each kind of reference. -/
def visitor : RefVisitor (Except ResolveError) := ⟨b.carryType, b.carryMethod, b.carryField⟩

/-- A body, carried over. -/
def carryBody (x : MethodBody) : Except ResolveError MethodBody := x.mapRefsM b.visitor

end Bridge

end BodyCache
