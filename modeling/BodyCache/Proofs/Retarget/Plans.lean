import BodyCache.Proofs.Retarget.Memory

/-!
# Plans for Methods of Classes

What a pass does with a method of a class is planned from the map alone
(`SymbolMap.Index.methodPlan`), before the symbols are asked. A method with a record is looked up by
the scope id recorded. A method without one, of a class without an entry, is taken to be imported:
its type scope is read off the descriptor of the class, and its name and signature are its member
scope. Either way there is no plan when the member scope is the word for no scope.

A plan for a member puts exactly one question, and a method without a plan is refused without any.
Memory is neither read nor changed in either case, so the result is the same at every point of a
pass.

## Main results

* `SymbolMap.Index.methodPlan_of_record`, `SymbolMap.Index.methodPlan_of_absent`: what is planned.
* `Pass.run_carryMethod_of_member`, `Pass.run_carryMethod_of_refused`: what is done.
-/

namespace BodyCache

namespace SymbolMap.Index

variable {i : SymbolMap.Index} {owner : ClassRef} {r : MethodRef} {q : Record}

/-- **What is planned for a method with a record**: it is refused if its scope is the word for no
scope, and is otherwise looked up as a whole by its scope id. -/
theorem methodPlan_of_record
    (h : i.methodByEmitted? owner.descriptor r.name r.prototype.signature = some q) :
    i.methodPlan owner r =
      if q.method.scopeId = noScope then .error (.missingScope r.text)
      else .ok (.member q.scopeId (.unresolvedMethod r.text q.method.scopeId)) := by
  rw [methodPlan, h]
  simp only [memberPlan]
  rfl

/-- **What is planned for an imported method**: it is refused if its name and signature happen to be
the word for no scope, or if no type scope can be read off the descriptor of its class, and is
otherwise looked up as a whole by this type scope and by its name and signature. -/
theorem methodPlan_of_absent
    (hrecord : i.methodByEmitted? owner.descriptor r.name r.prototype.signature = none)
    (hentry : i.typeByDescriptor? owner.descriptor = none) :
    i.methodPlan owner r =
      if r.name ++ r.prototype.signature = noScope then .error (.missingScope r.text)
      else
        match TypeScope.ofDescriptor? owner.descriptor with
        | some s => .ok (.member ⟨s, r.name ++ r.prototype.signature⟩
            (.unresolvedMethod r.text (r.name ++ r.prototype.signature)))
        | none => .error (.unresolvedType owner.descriptor "") := by
  simp only [methodPlan, hrecord, adapterOf?, hentry, Option.filter_none, memberPlan, scopeOf]
  cases TypeScope.ofDescriptor? owner.descriptor <;> rfl

end SymbolMap.Index

namespace Pass

variable {b : Bridge} {owner : ClassRef} {r : MethodRef}

/-- What a pass does with a method of a class is decided by its plan. -/
theorem carryMethod_of_owner (howner : r.owner = .named owner) :
    carryMethod b r = carryClassMethod b owner r := by
  have hclass : r.ownerClass? = some owner := by
    rw [MethodRef.ownerClass?, howner]
    rfl
  rw [carryMethod, hclass]

/-- A method without a plan is refused: nothing is asked or remembered. -/
theorem run_carryMethod_of_refused {e : ResolveError} (howner : r.owner = .named owner)
    (hplan : b.previous.methodPlan owner r = .error e) (s : PassState) :
    run s (carryMethod b r) = (.error e, s) := by
  rw [carryMethod_of_owner howner, carryClassMethod, hplan]
  rfl

/-- A member is asked for by its scope id, and that is all. -/
theorem run_carryMethod_of_member {id : ScopeId} {otherwise : ResolveError}
    (howner : r.owner = .named owner)
    (hplan : b.previous.methodPlan owner r = .ok (.member id otherwise)) (s : PassState) :
    run s (carryMethod b r) =
      (match b.current.methodFor id with
        | some target => .ok target
        | none => .error otherwise,
      { s with queries := s.queries ++ [.method id] }) := by
  rw [carryMethod_of_owner howner, carryClassMethod, hplan, ofExcept, pure_bind]
  simp only [log, run_modify_bind]
  cases b.current.methodFor id <;> rfl

end Pass

end BodyCache
