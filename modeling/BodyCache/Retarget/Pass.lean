import BodyCache.Retarget
import BodyCache.Table

/-!
# Retargeting with memory

A pass carries over the references of a body and remembers the classes and the compound types it
has carried over, so that a class that occurs many times is asked for once. It also keeps a log of
the questions it put to the symbols. What a pass remembers and logs survives a failure.

Primitives need no memory, and the classes are remembered by themselves, so only compound types are
kept in the table of types. Adapters that are met as owners of methods are not remembered.

## Main statements

* `Pass.carryBody`: a body, carried over by a pass.
-/

namespace BodyCache

/-- What a pass remembers. -/
structure PassState where
  classes : Table ClassRef ClassRef := .empty
  types : Table TypeRef TypeRef := .empty
  queries : List Query := []

/-- A computation that may fail and keeps its memory when it does. -/
abbrev PassM := ExceptT ResolveError (StateM PassState)

namespace Pass

variable (b : Bridge)

/-- Adds a question to the log. -/
def log (q : Query) : PassM Unit := modify fun s => { s with queries := s.queries ++ [q] }

/-- An answer that needs no question, or a failure. -/
def ofExcept {α : Type} : Except ResolveError α → PassM α
  | .ok a => return a
  | .error e => throw e

/-- Puts a question about a class to the symbols. -/
def ask (q : ClassQuestion) : PassM ClassRef := do
  log (.type q.identity)
  ofExcept (b.answer q)

/-- A class, carried over once. -/
def carryClass (c : ClassRef) : PassM ClassRef := do
  match (← get).classes.find? c with
  | some done => return done
  | none =>
    let result ← ask b (← ofExcept (b.previous.classQuestion c))
    modify fun s => { s with classes := s.classes.insert c result }
    return result

/-- The result for a compound type, taken from memory or computed and remembered. -/
def remembered (t : TypeRef) (compute : PassM TypeRef) : PassM TypeRef := do
  match (← get).types.find? t with
  | some done => return done
  | none =>
    let result ← compute
    modify fun s => { s with types := s.types.insert t result }
    return result

mutual

/-- A type, carried over. -/
def carryType : TypeRef → PassM TypeRef
  | .primitive p => return .primitive p
  | .named c => return .named (← carryClass b c)
  | .array element => remembered (.array element) do return .array (← carryType element)
  | .byRef element => remembered (.byRef element) do return .byRef (← carryType element)
  | .generic element arguments => remembered (.generic element arguments) do
    let element ← carryType element
    let arguments ← carryTypes arguments
    return .generic element arguments
  | .modified element modifier required => remembered (.modified element modifier required) do
    let element ← carryType element
    let modifier ← carryClass b modifier
    return .modified element modifier required

/-- Types, carried over from left to right. -/
def carryTypes : List TypeRef → PassM (List TypeRef)
  | [] => return []
  | t :: ts => do
    let t ← carryType t
    let ts ← carryTypes ts
    return t :: ts

end

/-- A prototype, carried over. -/
def carryPrototype (p : Prototype) : PassM Prototype := p.mapTypesM (carryType b)

/-- A method of a class, carried over. -/
def carryClassMethod (owner : ClassRef) (r : MethodRef) : PassM MethodRef := do
  match ← ofExcept (b.previous.methodPlan owner r) with
  | .member id otherwise =>
    log (.method id)
    match b.current.methodFor id with
    | some target => return target
    | none => throw otherwise
  | .adapter question =>
    let adapter ← ask b question
    return { r with owner := .named adapter, prototype := ← carryPrototype b r.prototype }

/-- A method, carried over. -/
def carryMethod (r : MethodRef) : PassM MethodRef :=
  match r.ownerClass? with
  | some owner => carryClassMethod b owner r
  | none => do
    let owner ← carryType b r.owner
    return { r with owner, prototype := ← carryPrototype b r.prototype }

/-- A field, carried over. -/
def carryField (r : FieldRef) : PassM FieldRef :=
  if b.previous.generatedClass? = some r.owner.descriptor then throw (.generatedField r.text)
  else do
    let owner ← carryClass b r.owner
    return { r with owner, type := ← carryType b r.type }

/-- What to do with each kind of reference. -/
def visitor : RefVisitor PassM := ⟨carryType b, carryMethod b, carryField b⟩

/-- A body, carried over. -/
def carryBody (x : MethodBody) : PassM MethodBody := x.mapRefsM (visitor b)

/-- Runs a computation from the given memory. -/
def run {α : Type} (s : PassState) (x : PassM α) : Except ResolveError α × PassState :=
  (ExceptT.run x).run s

end Pass

end BodyCache
