import BodyCache.Reference
import BodyCache.Scope.Delegate
import BodyCache.SymbolMap.Index

/-!
# From emitted names to identities

A cached body names classes and methods as the previous compilation emitted them. The map of that
compilation tells which identity stands behind a name, and so which question to put to the symbols
of the current compilation. What the map does not know is taken to be imported: the identity of an
imported class is in its descriptor, and a method of it is identified by name and signature.

The symbols know classes and methods by their stable identities. A class is either declared in
source, or imported, and then has a type scope, or it is a delegate adapter. The questions that are
put to the symbols are values of their own, so that a log of them can be kept. A reference may have
no counterpart in the current compilation. That stops no compilation: the method is compiled from
source instead.

## Main statements

* `SymbolMap.Index.classQuestion`: the question behind a class.
* `SymbolMap.Index.methodPlan`: the question behind a method of a class.
-/

namespace BodyCache

/-! ### The symbols of the current compilation -/

/-- The stable identity of a class. -/
inductive ClassIdentity where
  | declared (scope : TypeScope)
  | adapter (key : DelegateKey)
  deriving DecidableEq, Repr

/-- A question to the symbols. -/
inductive Query where
  | type (identity : ClassIdentity)
  | method (id : ScopeId)
  deriving DecidableEq, Repr

/-- The symbols of a compilation: what its classes and methods are called now. -/
structure Symbols where
  classFor : ClassIdentity → Option ClassRef
  methodFor : ScopeId → Option MethodRef

/-! ### Failures -/

/-- Why a reference cannot be carried over. -/
inductive ResolveError where
  /-- No type has the scope id. -/
  | unresolvedType (descriptor scope : String)
  /-- No method has the scope id. -/
  | unresolvedMethod (method scope : String)
  /-- The method has no stable identity. -/
  | missingScope (method : String)
  /-- The fields of the generated class are not recorded. -/
  | generatedField (field : String)
  /-- There is no such delegate adapter. -/
  | unresolvedDelegate (descriptor scope : String)
  /-- The recorded identity of a delegate adapter cannot be read. -/
  | malformedDelegateKey (descriptor : String)
  deriving DecidableEq, Repr

namespace ResolveError

/-- The message about a failure. -/
def message : ResolveError → String
  | unresolvedType descriptor scope =>
    "unable to resolve type " ++ descriptor ++ " (scope " ++ scope ++ ")"
  | unresolvedMethod method scope =>
    "unable to resolve method " ++ method ++ " by its scope id (" ++ scope ++ ")"
  | missingScope method => "unable to resolve method without scope: " ++ method
  | generatedField field => "unable to resolve fields in the generated class: " ++ field
  | unresolvedDelegate descriptor scope =>
    "unable to materialize delegate adapter " ++ descriptor ++ " (scope " ++ scope ++ ")"
  | malformedDelegateKey descriptor => "malformed delegate scope id on " ++ descriptor

end ResolveError

/-! ### Questions -/

/-- The identity of a class to ask for, and what to report when there is no answer. -/
structure ClassQuestion where
  identity : ClassIdentity
  otherwise : ResolveError
  deriving DecidableEq

/-- How a method of a class is carried over. -/
inductive MethodPlan where
  /-- As a whole, by its scope id. -/
  | member (id : ScopeId) (otherwise : ResolveError)
  /-- As the method of the same name on another adapter, with its types carried over. -/
  | adapter (question : ClassQuestion)
  deriving DecidableEq

namespace SymbolMap.Index

/-- The question behind a delegate adapter. -/
def adapterQuestion (entry : TypeEntry) (c : ClassRef) : Except ResolveError ClassQuestion :=
  match entry.delegateKey? with
  | some key =>
    .ok ⟨.adapter key, .unresolvedDelegate c.descriptor (entry.position.getD "")⟩
  | none => .error (.malformedDelegateKey c.descriptor)

/-- The type scope of a class: that of its entry or, without one, that of an imported class. -/
def scopeOf (entry : Option TypeEntry) (c : ClassRef) : Except ResolveError TypeScope :=
  match entry with
  | some e => .ok e.typeScope
  | none =>
    match TypeScope.ofDescriptor? c.descriptor with
    | some s => .ok s
    | none => .error (.unresolvedType c.descriptor "")

/-- The question behind a class that is not a delegate adapter. -/
def declaredQuestion (entry : Option TypeEntry) (c : ClassRef) :
    Except ResolveError ClassQuestion :=
  match scopeOf entry c with
  | .ok s => .ok ⟨.declared s, .unresolvedType c.descriptor s.id⟩
  | .error e => .error e

/-- The entry of a class, if it is a delegate adapter. -/
def adapterOf? (i : Index) (c : ClassRef) : Option TypeEntry :=
  (i.typeByDescriptor? c.descriptor).filter TypeEntry.isDelegate

/-- The question behind a class. -/
def classQuestion (i : Index) (c : ClassRef) : Except ResolveError ClassQuestion :=
  match i.adapterOf? c with
  | some entry => adapterQuestion entry c
  | none => declaredQuestion (i.typeByDescriptor? c.descriptor) c

/-- The plan for a method with a known member scope. -/
def memberPlan (entry : Option TypeEntry) (owner : ClassRef) (m : MethodRef) (scope : String) :
    Except ResolveError MethodPlan :=
  if scope = noScope then .error (.missingScope m.text)
  else
    match scopeOf entry owner with
    | .ok s => .ok (.member ⟨s, scope⟩ (.unresolvedMethod m.text scope))
    | .error e => .error e

/-- The plan for a method of a class. -/
def methodPlan (i : Index) (owner : ClassRef) (m : MethodRef) : Except ResolveError MethodPlan :=
  match i.methodByEmitted? owner.descriptor m.name m.prototype.signature with
  | some r => memberPlan (some r.declaring) owner m r.method.scopeId
  | none =>
    match i.adapterOf? owner with
    | some entry => (adapterQuestion entry owner).map .adapter
    | none =>
      memberPlan (i.typeByDescriptor? owner.descriptor) owner m
        (m.name ++ m.prototype.signature)

end SymbolMap.Index

end BodyCache
