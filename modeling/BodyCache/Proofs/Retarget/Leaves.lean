import BodyCache.Proofs.Retarget.References

/-!
# Retargeting Leaf by Leaf

The leaves of a type are the classes in it (`TypeRef.classes`): the classes that it is built from,
those in generic arguments, and its modifiers. This module says what retargeting does in terms of
leaves alone. Every leaf is resolved by itself. If all of them can be, they are put into the places
of the leaves, and wrappers, flags and primitives stay; otherwise the first leaf that cannot be
resolved is reported. The order is that of reading: the element, then the arguments from left to
right or the modifier.

Nothing is carried through this description, neither a memory nor a recursion that may stop half
way. `Bridge.resolveType`, `Bridge.resolveMethod`, `Bridge.resolveField` and `Bridge.resolveBody`
are the results, and they are proved to be those of the bridge (`BodyCache.Retarget`).

## Main results

* `TypeRef.mapClasses`: a type with other leaves.
* `TypeRef.mapClassesM_eq`: what a visit of the classes of a type gives.
* `Bridge.visitor_eq_resolver`, `Bridge.carryBody_eq_resolveBody`: retargeting is resolving leaves.
-/

namespace BodyCache

/-! ### Leaves -/

namespace TypeRef

mutual

/-- A type with every class in it replaced and everything else kept. -/
def mapClasses (f : ClassRef → ClassRef) : TypeRef → TypeRef
  | .primitive p => .primitive p
  | .named c => .named (f c)
  | .array element => .array (element.mapClasses f)
  | .byRef element => .byRef (element.mapClasses f)
  | .generic element arguments => .generic (element.mapClasses f) (mapAllClasses f arguments)
  | .modified element modifier required => .modified (element.mapClasses f) (f modifier) required

/-- A list of types with every class in it replaced. -/
def mapAllClasses (f : ClassRef → ClassRef) : List TypeRef → List TypeRef
  | [] => []
  | t :: ts => t.mapClasses f :: mapAllClasses f ts

end

section

variable {ε : Type} (f : ClassRef → Except ε ClassRef)

mutual

/-- **What a visit of the classes of a type gives**: the type with its classes replaced, unless one
of them fails, and then the failure of the first one. -/
theorem mapClassesM_eq : (t : TypeRef) →
    t.mapClassesM f = unlessFailing f t.classes (t.mapClasses fun c => resultOr c (f c))
  | .primitive p => rfl
  | .named c => bind_pure_eq_unlessFailing rfl c TypeRef.named
  | .array element => by
      rw [mapClassesM, mapClassesM_eq element]
      exact unlessFailing_bind_pure TypeRef.array
  | .byRef element => by
      rw [mapClassesM, mapClassesM_eq element]
      exact unlessFailing_bind_pure TypeRef.byRef
  | .generic element arguments => by
      rw [mapClassesM, mapClassesM_eq element, mapAllClassesM_eq arguments]
      simp only [unlessFailing_bind_pure]
      exact unlessFailing_bind
  | .modified element modifier required => by
      have hmodifier (e : TypeRef) :
          (f modifier >>= fun m => pure (TypeRef.modified e m required)) =
            unlessFailing f [modifier] (.modified e (resultOr modifier (f modifier)) required) :=
        bind_pure_eq_unlessFailing rfl modifier fun m => TypeRef.modified e m required
      rw [mapClassesM, mapClassesM_eq element]
      simp only [hmodifier]
      exact unlessFailing_bind

/-- What a visit of the classes of a list of types gives. -/
theorem mapAllClassesM_eq : (ts : List TypeRef) →
    mapAllClassesM f ts =
      unlessFailing f (allClasses ts) (mapAllClasses (fun c => resultOr c (f c)) ts)
  | [] => rfl
  | t :: ts => by
      rw [mapAllClassesM, mapClassesM_eq t, mapAllClassesM_eq ts]
      simp only [unlessFailing_bind_pure]
      exact unlessFailing_bind

end

end

end TypeRef

namespace Prototype

/-- The classes in a prototype: those of the return type, then those of the parameters. -/
def classes (p : Prototype) : List ClassRef :=
  p.returnType.classes ++ p.parameters.flatMap TypeRef.classes

/-- A prototype with every class in it replaced. -/
def mapClasses (f : ClassRef → ClassRef) (p : Prototype) : Prototype :=
  .ofTypes (p.returnType.mapClasses f) (p.parameters.map (TypeRef.mapClasses f))

end Prototype

/-! ### Resolving -/

namespace Bridge

variable (b : Bridge)

/-- What a class is called now, as far as it can be carried over. -/
def renamed (c : ClassRef) : ClassRef := resultOr c (b.carryClass c)

/-- A type, resolved leaf by leaf. -/
def resolveType (t : TypeRef) : Except ResolveError TypeRef :=
  unlessFailing b.carryClass t.classes (t.mapClasses b.renamed)

/-- A method, resolved. A method of a class is looked up as a whole, except that a method of a
delegate adapter follows its adapter; the types in it, and those of a method of any other type, are
resolved leaf by leaf. -/
def resolveMethod (r : MethodRef) : Except ResolveError MethodRef :=
  match r.ownerClass? with
  | none =>
    unlessFailing b.carryClass (r.owner.classes ++ r.prototype.classes)
      ⟨r.owner.mapClasses b.renamed, r.name, r.prototype.mapClasses b.renamed⟩
  | some owner =>
    match b.previous.methodPlan owner r with
    | .error e => .error e
    | .ok (.member id otherwise) =>
      match b.current.methodFor id with
      | some target => .ok target
      | none => .error otherwise
    | .ok (.adapter question) =>
      match b.answer question with
      | .error e => .error e
      | .ok adapter =>
        unlessFailing b.carryClass r.prototype.classes
          ⟨.named adapter, r.name, r.prototype.mapClasses b.renamed⟩

/-- A field, resolved leaf by leaf, unless the generated class owns it. -/
def resolveField (r : FieldRef) : Except ResolveError FieldRef :=
  if b.previous.generatedClass? = some r.owner.descriptor then .error (.generatedField r.text)
  else
    unlessFailing b.carryClass (r.owner :: r.type.classes)
      ⟨b.renamed r.owner, r.name, r.type.mapClasses b.renamed⟩

/-- How each kind of reference is resolved. -/
def resolver : RefVisitor (Except ResolveError) := ⟨b.resolveType, b.resolveMethod, b.resolveField⟩

/-- A body, resolved reference by reference. -/
def resolveBody (x : MethodBody) : Except ResolveError MethodBody :=
  unlessFailing b.resolver.reference x.references (x.rename b.resolver.results)

/-! ### Retargeting is resolving -/

/-- A type is carried over by resolving its leaves. -/
theorem carryType_eq_resolveType : b.carryType = b.resolveType :=
  funext (TypeRef.mapClassesM_eq b.carryClass)

/-- A prototype is carried over by resolving its leaves. -/
theorem carryPrototype_eq (p : Prototype) :
    b.carryPrototype p = unlessFailing b.carryClass p.classes (p.mapClasses b.renamed) := by
  have htype (t : TypeRef) :
      b.carryType t = unlessFailing b.carryClass t.classes (t.mapClasses b.renamed) :=
    congrFun b.carryType_eq_resolveType t
  rw [carryPrototype, Prototype.mapTypesM, htype, mapM_eq_unlessFailing htype]
  simp only [unlessFailing_bind_pure]
  exact unlessFailing_bind

/-- A method is carried over by resolving it. -/
theorem carryMethod_eq_resolveMethod : b.carryMethod = b.resolveMethod := by
  funext r
  rw [carryMethod, resolveMethod]
  cases r.ownerClass? with
  | none =>
      simp only [carryType_eq_resolveType, resolveType, carryPrototype_eq, unlessFailing_bind_pure]
      exact unlessFailing_bind
  | some owner =>
      simp only [carryClassMethod]
      cases b.previous.methodPlan owner r with
      | error e => rfl
      | ok plan =>
          cases plan with
          | member id otherwise =>
              simp only [ok_bind]
              cases b.current.methodFor id <;> rfl
          | adapter question =>
              simp only [ok_bind, carryPrototype_eq, unlessFailing_bind_pure]
              cases b.answer question <;> rfl

/-- A field is carried over by resolving it. -/
theorem carryField_eq_resolveField : b.carryField = b.resolveField := by
  funext r
  rw [carryField, resolveField]
  split
  · rfl
  · simp only [carryType_eq_resolveType, resolveType, unlessFailing_bind_pure]
    -- The owner is a leaf like those of the type, and the first one.
    have howner : b.carryClass r.owner =
        unlessFailing b.carryClass [r.owner] (b.renamed r.owner) := eq_unlessFailing rfl r.owner
    rw [howner]
    exact unlessFailing_bind

/-- **Retargeting is resolving**, for each kind of reference. -/
theorem visitor_eq_resolver : b.visitor = b.resolver := by
  rw [visitor, resolver, carryType_eq_resolveType, carryMethod_eq_resolveMethod,
    carryField_eq_resolveField]

/-- **Retargeting a body is resolving it**. -/
theorem carryBody_eq_resolveBody : b.carryBody = b.resolveBody := by
  funext x
  rw [carryBody, MethodBody.mapRefsM_eq, visitor_eq_resolver, resolveBody]

end Bridge

end BodyCache
