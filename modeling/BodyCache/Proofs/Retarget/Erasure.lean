import BodyCache.Proofs.Prototype.Signature
import BodyCache.Proofs.Retarget.Calls
import BodyCache.Proofs.Retarget.Provenance

/-!
# Retargeting Respects Erasure

Descriptors and signatures forget generic arguments and modifiers. Members are found by them, so
what is found must not hang on the forgotten parts: two references that looked the same in the
previous compilation have to look the same after retargeting. This is so although the two are
carried over along different ways. They have different parts, a pass may remember one of them and
not the other, and one may belong to a class where the other belongs to a generic form of it.

From equal descriptors the types can be read back up to erasure
(`BodyCache.Proofs.Prototype.Signature`), a reference that is carried over is the same reference
with other classes in it (`BodyCache.Proofs.Retarget.Leaves`), and putting in other classes commutes
with erasure. A method of a class is an exception, since it is looked up as a whole; but the methods
of an adapter follow their adapter.

## Main results

* `TypeRef.erased_mapClasses`, `Prototype.SameErasure.mapClasses`: replacing classes commutes with
  erasure.
* `Bridge.eq_of_carryMethod_of_follows`: what a method becomes that follows its owner.
* `Pass.descriptor_eq_of_carry`: references that look the same go on looking the same.
-/

namespace BodyCache

/-! ### Replacing classes and erasure -/

/-- Replacing classes commutes with erasure. -/
theorem TypeRef.erased_mapClasses (f : ClassRef → ClassRef) (t : TypeRef) :
    (t.mapClasses f).erased = t.erased.mapClasses f := by
  induction t using TypeRef.rec (motive_2 := fun _ => True) with
  | primitive p => rfl
  | named c => rfl
  | array e ih => exact congrArg TypeRef.array ih
  | byRef e ih => exact congrArg TypeRef.byRef ih
  | generic e arguments ih _ => exact ih
  | modified e modifier required ih => exact ih
  | nil | cons => trivial

/-- Types that are the same after erasure have the same descriptor once their classes are
replaced. -/
theorem TypeRef.descriptor_mapClasses_congr (f : ClassRef → ClassRef) {t u : TypeRef}
    (h : t.erased = u.erased) : (t.mapClasses f).descriptor = (u.mapClasses f).descriptor := by
  rw [← descriptor_erased, erased_mapClasses, h, ← erased_mapClasses, descriptor_erased]

/-- Prototypes with the same erasure keep having it when their classes are replaced. -/
theorem Prototype.SameErasure.mapClasses (f : ClassRef → ClassRef) {p q : Prototype}
    (h : p.SameErasure q) : (p.mapClasses f).SameErasure (q.mapClasses f) := by
  have hmap (ts : List TypeRef) : (ts.map (TypeRef.mapClasses f)).map TypeRef.erased =
      (ts.map TypeRef.erased).map (TypeRef.mapClasses f) := by
    rw [List.map_map, List.map_map]
    exact List.map_congr_left fun t _ => t.erased_mapClasses f
  obtain ⟨hparameters, hreturn⟩ := sameErasure_iff.mp h
  refine sameErasure_iff.mpr ⟨?_, ?_⟩
  · rw [Prototype.mapClasses, Prototype.mapClasses, parameters_ofTypes, parameters_ofTypes, hmap,
      hmap, hparameters]
  · rw [Prototype.mapClasses, Prototype.mapClasses, returnType_ofTypes, returnType_ofTypes,
      TypeRef.erased_mapClasses, TypeRef.erased_mapClasses, hreturn]

/-- Delimited types with the same descriptor are the same after erasure. -/
theorem TypeRef.erased_eq_of_descriptor_eq {t u : TypeRef} (ht : t.Delimited) (hu : u.Delimited)
    (h : t.descriptor = u.descriptor) : t.erased = u.erased :=
  (descriptor_append_inj (x := []) (y := []) ht hu (by rw [h])).1

/-! ### Methods that follow their owner -/

/-- A reference to a method is delimited when its owner and its prototype are. -/
structure MethodRef.Delimited (r : MethodRef) : Prop where
  owner : r.owner.Delimited
  prototype : r.prototype.Delimited

/-- A method follows its owner when this is not a class, or when it is a delegate adapter and the
map has no record of the method. -/
def SymbolMap.Index.Follows (i : SymbolMap.Index) (r : MethodRef) : Prop :=
  ∀ owner, r.owner = .named owner →
    i.methodByEmitted? owner.descriptor r.name r.prototype.signature = none ∧
      (i.adapterOf? owner).isSome

/-- A method that follows a class puts the same question as the class. -/
theorem SymbolMap.Index.methodPlan_of_follows {i : SymbolMap.Index} {r : MethodRef}
    {owner : ClassRef} (h : i.Follows r) (howner : r.owner = .named owner) :
    i.methodPlan owner r = (i.classQuestion owner).map .adapter := by
  obtain ⟨hrecord, hadapter⟩ := h owner howner
  obtain ⟨entry, hentry⟩ := Option.isSome_iff_exists.mp hadapter
  simp only [methodPlan, hrecord, classQuestion, hentry]

namespace Bridge

variable {b : Bridge}

/-- A type that is carried over has its classes replaced. -/
theorem eq_of_carryType {t t' : TypeRef} (h : b.carryType t = .ok t') :
    t' = t.mapClasses b.renamed := by
  rw [carryType_eq_resolveType, resolveType] at h
  exact (unlessFailing_eq_ok_iff.mp h).2.symm

/-- A method that follows a class is carried over like a method of any other type: first the owner,
then the prototype. -/
theorem carryMethod_of_follows {r : MethodRef} (h : b.previous.Follows r) :
    b.carryMethod r = do
      let owner ← b.carryType r.owner
      return { r with owner, prototype := ← b.carryPrototype r.prototype } := by
  rw [carryMethod, MethodRef.ownerClass?]
  cases howner : r.owner with
  | named owner =>
      have hplan := SymbolMap.Index.methodPlan_of_follows h howner
      have htype : b.carryType (.named owner) =
          ((b.previous.classQuestion owner >>= b.answer) >>= fun c => pure (.named c)) := rfl
      simp only [TypeRef.asClass?, carryClassMethod, hplan, htype]
      cases b.previous.classQuestion owner with
      | error e => rfl
      | ok question =>
          simp only [ok_bind]
          cases hanswer : b.answer question <;> simp only [Except.map, ok_bind, hanswer] <;> rfl
  | primitive | array | byRef | generic | modified => rfl

/-- **A method that follows its owner has its classes replaced**, that of its owner included. -/
theorem eq_of_carryMethod_of_follows {r r' : MethodRef} (hfollows : b.previous.Follows r)
    (h : b.carryMethod r = .ok r') :
    r' = ⟨r.owner.mapClasses b.renamed, r.name, r.prototype.mapClasses b.renamed⟩ := by
  rw [carryMethod_of_follows hfollows, carryType_eq_resolveType] at h
  simp only [resolveType, carryPrototype_eq, unlessFailing_bind_pure, unlessFailing_bind] at h
  exact (unlessFailing_eq_ok_iff.mp h).2.symm

end Bridge

/-! ### Two passes -/

namespace Pass

/-- **Retargeting respects erasure.** Let two references be carried over, each after any calls.

* If they are delimited types with the same descriptor, the results have the same descriptor.
* If they are delimited methods that follow their owners, with the same descriptor of the owner, the
  same name and the same signature, then the results have all three in common again. -/
theorem descriptor_eq_of_carry (b : Bridge) (calls calls' : List PassCall) :
    (∀ t u t' u', t.Delimited → u.Delimited → t.descriptor = u.descriptor →
      (run (replay b calls) (carryType b t)).1 = .ok t' →
      (run (replay b calls') (carryType b u)).1 = .ok u' → t'.descriptor = u'.descriptor) ∧
    ∀ q r q' r', q.Delimited → r.Delimited → b.previous.Follows q → b.previous.Follows r →
      q.owner.descriptor = r.owner.descriptor → q.name = r.name →
      q.prototype.signature = r.prototype.signature →
      (run (replay b calls) (carryMethod b q)).1 = .ok q' →
      (run (replay b calls') (carryMethod b r)).1 = .ok r' →
        q'.owner.descriptor = r'.owner.descriptor ∧ q'.name = r'.name ∧
          q'.prototype.signature = r'.prototype.signature := by
  have hs : (replay b calls).Faithful b := faithful_replay b calls
  have hs' : (replay b calls').Faithful b := faithful_replay b calls'
  constructor
  · intro t u t' u' ht hu hdescriptor hcarry hcarry'
    rw [(computes_carryType t _ hs).1] at hcarry
    rw [(computes_carryType u _ hs').1] at hcarry'
    rw [Bridge.eq_of_carryType hcarry, Bridge.eq_of_carryType hcarry']
    exact TypeRef.descriptor_mapClasses_congr b.renamed
      (TypeRef.erased_eq_of_descriptor_eq ht hu hdescriptor)
  · intro q r q' r' hq hr hfollows hfollows' howner hname hsignature hcarry hcarry'
    rw [(computes_carryMethod q _ hs).1] at hcarry
    rw [(computes_carryMethod r _ hs').1] at hcarry'
    rw [Bridge.eq_of_carryMethod_of_follows hfollows hcarry,
      Bridge.eq_of_carryMethod_of_follows hfollows' hcarry']
    have herasure : q.prototype.SameErasure r.prototype :=
      Prototype.sameErasure_of_signature_eq hq.prototype hr.prototype hsignature
    refine ⟨?_, hname, (herasure.mapClasses b.renamed).signature_eq⟩
    exact TypeRef.descriptor_mapClasses_congr b.renamed
      (TypeRef.erased_eq_of_descriptor_eq hq.owner hr.owner howner)

end Pass

/-! ### Two forms of an adapter -/

namespace Moving

/-- Classes in package `x` are delimited. -/
theorem delimited_inPackage_x {name : String} (h : ';' ∉ name.toList) :
    (inPackage "x" name).Delimited := by
  refine ⟨"com/x/".toList ++ name.toList, ?_, ?_⟩
  · rw [List.mem_append, not_or]
    exact ⟨by decide, h⟩
  · simp [inPackage, String.toList_append]

/-- The array of `Foo` in a package. -/
def plainArray (package : String) : TypeRef := .array (.named (inPackage package "Foo"))

/-- The array of `Foo` in a package with a modifier on `Foo`. -/
def modifiedArray (package : String) : TypeRef :=
  .array (.modified (.named (inPackage package "Foo")) ⟨"Ljava/lang/String;"⟩ true)

/-- The arrays in package `x` are delimited, the modifier being erased. -/
theorem delimited_arrays : (plainArray "x").Delimited ∧ (modifiedArray "x").Delimited :=
  ⟨List.forall_mem_singleton.mpr (delimited_inPackage_x (by decide)),
    List.forall_mem_singleton.mpr (delimited_inPackage_x (by decide))⟩

/-- The method of the adapter, called on a generic form of it, in a package. -/
def invokeGeneric (package : String) : MethodRef :=
  { invoke package with owner := .generic (.named (inPackage package "Action")) [.primitive .int] }

/-- The methods in package `x` are delimited. -/
theorem delimited_invoke : (invokeGeneric "x").Delimited ∧ (invoke "x").Delimited := by
  have howner : (TypeRef.named (inPackage "x" "Action")).Delimited :=
    List.forall_mem_singleton.mpr (delimited_inPackage_x (by decide))
  have hprototype : (invoke "x").prototype.Delimited := by
    refine ⟨List.forall_mem_nil _, List.forall_mem_singleton.mpr ?_⟩
    exact List.forall_mem_singleton.mpr (delimited_inPackage_x (by decide))
  exact ⟨⟨howner, hprototype⟩, ⟨howner, hprototype⟩⟩

/-- Both methods follow their owner, one of which is not a class and the other an adapter. -/
theorem follows_invoke :
    map.index.Follows (invokeGeneric "x") ∧ map.index.Follows (invoke "x") := by
  refine ⟨nofun, ?_⟩
  rintro _ ⟨⟩
  have hnone : map.index.methodByEmitted? "Lcom/x/Action;" "invoke" "(Lcom/x/Foo;)V" = none := by
    decide
  exact ⟨hnone, rfl⟩

/-- The method on the generic form is carried over. -/
theorem carryMethod_invokeGeneric :
    bridge.carryMethod (invokeGeneric "x") = .ok (invokeGeneric "y") := by
  have howner : bridge.carryType (invokeGeneric "x").owner = .ok (invokeGeneric "y").owner := rfl
  have hreturn : bridge.carryType (invoke "x").prototype.returnType = .ok (.primitive .void) := rfl
  have hparameters : (invoke "x").prototype.parameters.mapM bridge.carryType =
      .ok [.named (inPackage "y" "Foo")] := rfl
  have hprototype : bridge.carryPrototype (invokeGeneric "x").prototype =
      .ok (invokeGeneric "y").prototype := by
    rw [Bridge.carryPrototype, Prototype.mapTypesM]
    simp only [invokeGeneric, hreturn, hparameters, ok_bind]
    rfl
  have hfollows : bridge.previous.Follows (invokeGeneric "x") := follows_invoke.1
  rw [Bridge.carryMethod_of_follows hfollows, howner, ok_bind, hprototype, ok_bind]
  rfl

end Moving

open Moving in
/-- The two arrays look the same, and so do the two methods. They still do in package `y`, where one
of each two is carried over after the other. -/
theorem Pass.descriptor_eq_of_carry_moving :
    ((plainArray "x").Delimited ∧ (modifiedArray "x").Delimited ∧
      (plainArray "x").descriptor = (modifiedArray "x").descriptor ∧
      (run (replay bridge []) (carryType bridge (plainArray "x"))).1 = .ok (plainArray "y") ∧
      (run (replay bridge [.ofType (plainArray "x")])
        (carryType bridge (modifiedArray "x"))).1 = .ok (modifiedArray "y") ∧
      (plainArray "y").descriptor = (modifiedArray "y").descriptor) ∧
    (invokeGeneric "x").Delimited ∧ (invoke "x").Delimited ∧
      map.index.Follows (invokeGeneric "x") ∧ map.index.Follows (invoke "x") ∧
      (run (replay bridge []) (carryMethod bridge (invokeGeneric "x"))).1 =
        .ok (invokeGeneric "y") ∧
      (run (replay bridge [.ofType (plainArray "x")]) (carryMethod bridge (invoke "x"))).1 =
        .ok (invoke "y") ∧
      (invokeGeneric "y").owner.descriptor = (invoke "y").owner.descriptor := by
  obtain ⟨htypes, hmethods⟩ := descriptor_eq_of_carry bridge [] [.ofType (plainArray "x")]
  obtain ⟨hplain, hmodified⟩ := delimited_arrays
  obtain ⟨hgeneric, hinvoke⟩ := delimited_invoke
  obtain ⟨hfollows, hfollows'⟩ := follows_invoke
  have hs (calls : List PassCall) := faithful_replay bridge calls
  have hcarryPlain : (run (replay bridge []) (carryType bridge (plainArray "x"))).1 =
      .ok (plainArray "y") := (computes_carryType _ _ (hs _)).1.trans rfl
  have hcarryModified : (run (replay bridge [.ofType (plainArray "x")])
      (carryType bridge (modifiedArray "x"))).1 = .ok (modifiedArray "y") :=
    (computes_carryType _ _ (hs _)).1.trans rfl
  have hcarryGeneric : (run (replay bridge []) (carryMethod bridge (invokeGeneric "x"))).1 =
      .ok (invokeGeneric "y") :=
    (computes_carryMethod _ _ (hs _)).1.trans carryMethod_invokeGeneric
  have hcarryInvoke : (run (replay bridge [.ofType (plainArray "x")])
      (carryMethod bridge (invoke "x"))).1 = .ok (invoke "y") :=
    (computes_carryMethod _ _ (hs _)).1.trans carryMethod_invoke
  have hdescriptor := htypes _ _ _ _ hplain hmodified rfl hcarryPlain hcarryModified
  have howner := (hmethods _ _ _ _ hgeneric hinvoke hfollows hfollows' rfl rfl rfl hcarryGeneric
    hcarryInvoke).1
  exact ⟨⟨hplain, hmodified, rfl, hcarryPlain, hcarryModified, hdescriptor⟩, hgeneric, hinvoke,
    hfollows, hfollows', hcarryGeneric, hcarryInvoke, howner⟩

end BodyCache
