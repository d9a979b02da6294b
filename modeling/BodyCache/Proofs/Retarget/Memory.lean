import BodyCache.Retarget.Pass

/-!
# The Memory of a Pass Is Not Observable

A pass (`BodyCache.Retarget.Pass`) remembers classes and compound types; the bridge
(`BodyCache.Retarget`) carries over every reference afresh. This module proves that the two give
the same results, failures included.

The invariant is `PassState.Faithful`: whatever is remembered is what the bridge gives. A
computation with memory *computes* an expected result (`Pass.Computes`) when it gives that result
from every faithful memory and leaves the memory faithful, also when it fails. `Pass.Computes` is
closed under sequencing and under visits of lists, so it follows the structure of types,
references and bodies up to the whole pass.

## Main results

* `Pass.computes_carryType`, `Pass.computes_carryMethod`, `Pass.computes_carryField`,
  `Pass.computes_carryBody`: a pass computes what the bridge gives.
* `Pass.fst_run_carryBody`: the result of a fresh pass over a body.
-/

namespace BodyCache

/-- A memory in which every remembered result is what the bridge gives. -/
structure PassState.Faithful (b : Bridge) (s : PassState) : Prop where
  classes : ∀ {c d : ClassRef}, s.classes.find? c = some d → b.carryClass c = .ok d
  types : ∀ {t u : TypeRef}, s.types.find? t = some u → b.carryType t = .ok u

namespace PassState.Faithful

variable {b : Bridge} {s : PassState}

/-- The memory at the beginning of a pass remembers nothing. -/
theorem fresh (b : Bridge) : PassState.Faithful b {} :=
  ⟨fun h => by simp at h, fun h => by simp at h⟩

/-- The log of questions is not part of the invariant. -/
theorem withQueries (h : s.Faithful b) (queries : List Query) :
    PassState.Faithful b { s with queries } :=
  ⟨h.classes, h.types⟩

/-- Remembering the result for a class keeps the memory faithful. -/
theorem insertClass (h : s.Faithful b) {c d : ClassRef} (hc : b.carryClass c = .ok d) :
    PassState.Faithful b { s with classes := s.classes.insert c d } :=
  ⟨Table.of_find?_insert h.classes hc, h.types⟩

/-- Remembering the result for a type keeps the memory faithful. -/
theorem insertType (h : s.Faithful b) {t u : TypeRef} (ht : b.carryType t = .ok u) :
    PassState.Faithful b { s with types := s.types.insert t u } :=
  ⟨h.classes, Table.of_find?_insert h.types ht⟩

end PassState.Faithful

namespace Pass

variable {b : Bridge} {α β : Type}

/-! ### Running a pass -/

/-- A sequence runs its second part from the memory that the first part leaves, unless that
failed. -/
theorem run_bind (s : PassState) (x : PassM α) (f : α → PassM β) :
    run s (x >>= f) =
      match run s x with
      | (.ok a, t) => run t (f a)
      | (.error e, t) => (.error e, t) := by
  simp only [run]
  rw [ExceptT.run_bind, StateT.run_bind]
  rcases (ExceptT.run x).run s with ⟨_ | _, _⟩ <;> rfl

/-- Reading the memory leaves it as it is. -/
theorem run_get_bind (s : PassState) (f : PassState → PassM α) :
    run s (get >>= f) = run s (f s) := rfl

/-- Changing the memory gives no result of its own. -/
theorem run_modify_bind (s : PassState) (g : PassState → PassState) (f : PUnit → PassM α) :
    run s (modify g >>= f) = run (g s) (f ⟨⟩) := rfl

/-! ### Computing an expected result -/

/-- The computation gives `expected` from every faithful memory and leaves the memory faithful. -/
def Computes (b : Bridge) (x : PassM α) (expected : Except ResolveError α) : Prop :=
  ∀ s : PassState, s.Faithful b → (run s x).1 = expected ∧ (run s x).2.Faithful b

namespace Computes

/-- A result that needs no computation. -/
theorem pure (a : α) : Computes b (pure a) (.ok a) := fun _ hs => ⟨rfl, hs⟩

/-- A failure that needs no computation. -/
theorem throw (e : ResolveError) : Computes b (throw e : PassM α) (.error e) :=
  fun _ hs => ⟨rfl, hs⟩

/-- An answer that needs no question. -/
theorem ofExcept (e : Except ResolveError α) : Computes b (ofExcept e) e := by
  cases e with
  | ok a => exact Computes.pure a
  | error e => exact Computes.throw e

/-- Logging a question. -/
theorem log (q : Query) : Computes b (log q) (.ok ⟨⟩) := fun _ hs => ⟨rfl, hs.withQueries _⟩

/-- One computation after the other. The second one only matters for the result of the first. -/
theorem bind {x : PassM α} {e : Except ResolveError α} {f : α → PassM β}
    {g : α → Except ResolveError β} (hx : Computes b x e)
    (hf : ∀ a, e = .ok a → Computes b (f a) (g a)) : Computes b (x >>= f) (e >>= g) := by
  intro s hs
  obtain ⟨hr, ht⟩ := hx s hs
  rw [run_bind]
  rcases hrun : run s x with ⟨r, t⟩
  rw [hrun] at hr ht
  subst hr
  cases r with
  | ok a => exact hf a rfl t ht
  | error e => exact ⟨rfl, ht⟩

/-- A computation whose result is packed by a constructor. -/
theorem map {x : PassM α} {e : Except ResolveError α} (hx : Computes b x e) (f : α → β) :
    Computes b (x >>= fun a => Pure.pure (f a)) (e >>= fun a => .ok (f a)) :=
  hx.bind fun a _ => Computes.pure (f a)

/-- A visit of a list, from left to right. -/
theorem mapM {f : α → PassM β} {g : α → Except ResolveError β} (as : List α)
    (h : ∀ a ∈ as, Computes b (f a) (g a)) : Computes b (as.mapM f) (as.mapM g) := by
  induction as with
  | nil => exact Computes.pure []
  | cons a as ih =>
      rw [List.mapM_cons, List.mapM_cons]
      refine (h a List.mem_cons_self).bind fun v _ => ?_
      exact (ih fun a' ha' => h a' (List.mem_cons_of_mem a ha')).map (v :: ·)

end Computes

/-! ### Classes and types -/

/-- A question about a class. -/
theorem computes_ask (q : ClassQuestion) : Computes b (ask b q) (b.answer q) :=
  (Computes.log (.type q.identity)).bind fun _ _ => Computes.ofExcept (b.answer q)

/-- A class is carried over as the bridge says, remembered or not. -/
theorem computes_carryClass (c : ClassRef) : Computes b (carryClass b c) (b.carryClass c) := by
  intro s hs
  rw [carryClass, run_get_bind]
  cases hf : s.classes.find? c with
  | some d =>
      rw [hs.classes hf]
      exact ⟨rfl, hs⟩
  | none =>
      -- The log is all that asking adds, so what is remembered afterwards is the bridge's answer.
      have hcompute : Computes b (ofExcept (b.previous.classQuestion c) >>= ask b)
          (b.carryClass c) :=
        (Computes.ofExcept _).bind fun q _ => computes_ask q
      obtain ⟨hr, ht⟩ := hcompute s hs
      dsimp only
      rw [← bind_assoc, run_bind]
      rcases hrun : run s (ofExcept (b.previous.classQuestion c) >>= ask b) with ⟨r, t⟩
      rw [hrun] at hr ht
      cases r with
      | ok d => exact ⟨hr, ht.insertClass hr.symm⟩
      | error e => exact ⟨hr, ht⟩

/-- A compound type is carried over as its computation says, remembered or not. -/
theorem computes_remembered {t : TypeRef} {compute : PassM TypeRef}
    (h : Computes b compute (b.carryType t)) :
    Computes b (remembered t compute) (b.carryType t) := by
  intro s hs
  rw [remembered, run_get_bind]
  cases hf : s.types.find? t with
  | some u =>
      rw [hs.types hf]
      exact ⟨rfl, hs⟩
  | none =>
      obtain ⟨hr, ht⟩ := h s hs
      dsimp only
      rw [run_bind]
      rcases hrun : run s compute with ⟨r, s'⟩
      rw [hrun] at hr ht
      cases r with
      | ok u => exact ⟨hr, ht.insertType hr.symm⟩
      | error e => exact ⟨hr, ht⟩

mutual

/-- A type is carried over as the bridge says. -/
theorem computes_carryType : (t : TypeRef) → Computes b (carryType b t) (b.carryType t)
  | .primitive p => Computes.pure (TypeRef.primitive p)
  | .named c => (computes_carryClass c).map TypeRef.named
  | .array element => computes_remembered ((computes_carryType element).map TypeRef.array)
  | .byRef element => computes_remembered ((computes_carryType element).map TypeRef.byRef)
  | .generic element arguments =>
    computes_remembered <| (computes_carryType element).bind fun e _ =>
      (computes_carryTypes arguments).map (TypeRef.generic e)
  | .modified element modifier required =>
    computes_remembered <| (computes_carryType element).bind fun e _ =>
      (computes_carryClass modifier).map fun m => TypeRef.modified e m required

/-- Types are carried over as the bridge says. -/
theorem computes_carryTypes :
    (ts : List TypeRef) → Computes b (carryTypes b ts) (TypeRef.mapAllClassesM b.carryClass ts)
  | [] => Computes.pure []
  | t :: ts => (computes_carryType t).bind fun u _ => (computes_carryTypes ts).map (u :: ·)

end

/-- A prototype is carried over as the bridge says. -/
theorem computes_carryPrototype (p : Prototype) :
    Computes b (carryPrototype b p) (b.carryPrototype p) :=
  (computes_carryType p.returnType).bind fun r _ =>
    (Computes.mapM p.parameters fun t _ => computes_carryType t).map (Prototype.ofTypes r)

/-! ### Members -/

/-- A method of a class is carried over as the bridge says. -/
theorem computes_carryClassMethod (owner : ClassRef) (r : MethodRef) :
    Computes b (carryClassMethod b owner r) (b.carryClassMethod owner r) := by
  refine (Computes.ofExcept (b.previous.methodPlan owner r)).bind fun plan _ => ?_
  cases plan with
  | member id otherwise =>
      refine (Computes.log (.method id)).bind (g := fun _ => _) fun _ _ => ?_
      cases b.current.methodFor id with
      | some target => exact Computes.pure target
      | none => exact Computes.throw otherwise
  | adapter question =>
      exact (computes_ask question).bind fun adapter _ =>
        (computes_carryPrototype r.prototype).map fun p =>
          { r with owner := .named adapter, prototype := p }

/-- A method is carried over as the bridge says. -/
theorem computes_carryMethod (r : MethodRef) :
    Computes b (carryMethod b r) (b.carryMethod r) := by
  rw [carryMethod, Bridge.carryMethod]
  cases r.ownerClass? with
  | some owner => exact computes_carryClassMethod owner r
  | none =>
      exact (computes_carryType r.owner).bind fun owner _ =>
        (computes_carryPrototype r.prototype).map fun p => { r with owner, prototype := p }

/-- A field is carried over as the bridge says. -/
theorem computes_carryField (r : FieldRef) : Computes b (carryField b r) (b.carryField r) := by
  rw [carryField, Bridge.carryField]
  by_cases hg : b.previous.generatedClass? = some r.owner.descriptor
  · rw [if_pos hg, if_pos hg]
    exact Computes.throw _
  · rw [if_neg hg, if_neg hg]
    exact (computes_carryClass r.owner).bind fun owner _ =>
      (computes_carryType r.type).map fun type => { r with owner, type }

/-! ### Bodies -/

/-- The reference of an operand is carried over as the bridge says. -/
theorem computes_operand (o : Operand) :
    Computes b (o.mapRefsM (visitor b)) (o.mapRefsM b.visitor) := by
  cases o with
  | type t => exact (computes_carryType t).map Operand.type
  | method r => exact (computes_carryMethod r).map Operand.method
  | field r => exact (computes_carryField r).map Operand.field
  | none | literal | text | target => exact Computes.pure _

/-- The exception types of a range are carried over as the bridge says. -/
theorem computes_exceptionTable (e : ExceptionTable) :
    Computes b (e.mapRefsM (visitor b)) (e.mapRefsM b.visitor) :=
  (Computes.mapM e.catches fun c _ =>
    (computes_carryType c.exceptionType).map fun t => { c with exceptionType := t }).map
    fun catches => { e with catches }

/-- A body is carried over as the bridge says. -/
theorem computes_carryBody (x : MethodBody) :
    Computes b (carryBody b x) (b.carryBody x) :=
  (Computes.mapM x.instructions fun i _ =>
    (computes_operand i.operand).map fun operand => { i with operand }).bind fun instructions _ =>
      (Computes.mapM x.exceptions fun e _ => computes_exceptionTable e).map
        fun exceptions => { x with instructions, exceptions }

/-- **A fresh pass over a body gives what the bridge gives**, failures included. -/
theorem fst_run_carryBody (b : Bridge) (x : MethodBody) :
    (run {} (carryBody b x)).1 = b.carryBody x :=
  (computes_carryBody x {} (PassState.Faithful.fresh b)).1

end Pass

end BodyCache
