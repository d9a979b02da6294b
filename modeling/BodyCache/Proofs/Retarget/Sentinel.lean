import BodyCache.Proofs.Retarget.Calls
import BodyCache.Proofs.Retarget.Plans

/-!
# Members without a Stable Identity

A member without a stable identity has a sentinel for its scope, and there are two of them: the
word `noScope` and the empty text (`ScopeId.isSentinel`). A request for such a member is not even
looked up. A reference to one inside a body is treated by a test of its own, which knows the word
only. So the two tests agree on every scope but the empty one: a reference to a method that is
recorded with the empty scope is not refused, but carried over to whatever method the symbols have
for the empty scope.

## Main results

* `Pass.run_carryMethod_of_eq_noScope`, `Pass.run_carryMethod_of_ne_noScope`: what a pass does with
  a method that has a record.
* `Pass.refused_iff_of_isSentinel`: when a reference to a member without a stable identity is
  refused.
* `Pass.empty_scope_is_carried_over`: a body with such a reference that is carried over.
-/

namespace BodyCache

/-- A sentinel is the word for no scope exactly when it is not empty. -/
theorem ScopeId.member_eq_noScope_iff {id : ScopeId} (h : id.isSentinel = true) :
    id.member = noScope ↔ id.member ≠ "" := by
  rw [isSentinel, Bool.or_eq_true, decide_eq_true_eq, decide_eq_true_eq] at h
  constructor
  · intro hword
    rw [hword]
    decide
  · exact h.resolve_right

namespace Pass

variable {b : Bridge} {owner : ClassRef} {r : MethodRef} {q : SymbolMap.Record}

/-- A method whose scope is the word for no scope is refused: nothing is asked or remembered. -/
theorem run_carryMethod_of_eq_noScope (howner : r.owner = .named owner)
    (hrecord : b.previous.methodByEmitted? owner.descriptor r.name r.prototype.signature = some q)
    (hscope : q.method.scopeId = noScope) (s : PassState) :
    run s (carryMethod b r) = (.error (.missingScope r.text), s) := by
  have hplan := SymbolMap.Index.methodPlan_of_record hrecord
  rw [if_pos hscope] at hplan
  exact run_carryMethod_of_refused howner hplan s

/-- A method with any other recorded scope is asked for by its scope id, and that is all. -/
theorem run_carryMethod_of_ne_noScope (howner : r.owner = .named owner)
    (hrecord : b.previous.methodByEmitted? owner.descriptor r.name r.prototype.signature = some q)
    (hscope : q.method.scopeId ≠ noScope) (s : PassState) :
    run s (carryMethod b r) =
      (match b.current.methodFor q.scopeId with
        | some target => .ok target
        | none => .error (.unresolvedMethod r.text q.method.scopeId),
      { s with queries := s.queries ++ [.method q.scopeId] }) := by
  have hplan := SymbolMap.Index.methodPlan_of_record hrecord
  rw [if_neg hscope] at hplan
  exact run_carryMethod_of_member howner hplan s

/-- The result of a fresh pass over a method. -/
theorem fst_run_carryMethod (b : Bridge) (r : MethodRef) :
    (run {} (carryMethod b r)).1 = b.carryMethod r :=
  (computes_carryMethod r {} (PassState.Faithful.fresh b)).1

/-- A pass fails, after any calls, over a body with a method that cannot be carried over. -/
theorem exists_error_of_mem_references {x : MethodBody} {e : ResolveError}
    (hr : .method r ∈ x.references) (hfails : b.carryMethod r = .error e) (calls : List PassCall) :
    ∃ e', (run (replay b calls) (carryBody b x)).1 = .error e' := by
  rw [(computes_carryBody x _ (faithful_replay b calls)).1]
  cases hbody : b.carryBody x with
  | error e' => exact ⟨e', rfl⟩
  | ok y =>
      obtain ⟨_, hr'⟩ := Bridge.succeeds_carryBody_iff.mp ⟨y, hbody⟩ _ hr
      rw [Bridge.carryReference, hfails] at hr'
      cases hr'

/-- The body that only invokes a method. -/
def invoking (r : MethodRef) : MethodBody where
  registersSize := 1
  instructions := [⟨.invokeStatic, [], .method r⟩]

/-- The body that only invokes a method is carried over with the method. -/
theorem run_carryBody_invoking {target : MethodRef} (h : b.carryMethod r = .ok target) :
    (run {} (carryBody b (invoking r))).1 = .ok (invoking target) := by
  rw [fst_run_carryBody, Bridge.carryBody, MethodBody.mapRefsM]
  simp only [invoking, List.mapM_cons, List.mapM_nil, Instruction.mapRefsM, Operand.mapRefsM,
    Bridge.visitor, h]
  rfl

/-- **When a reference to a member without a stable identity is refused.** Let a method of a class
have a record whose scope is a sentinel. Exactly when the scope is not the empty one,

* a pass refuses the method, whatever it remembers and whatever the symbols are, and neither asks
  nor remembers anything;
* for all symbols and after any calls, a pass fails over every body that refers to the method.

With the empty scope, the method becomes the one that the symbols have for the empty scope. -/
theorem refused_iff_of_isSentinel {i : SymbolMap.Index} (howner : r.owner = .named owner)
    (hrecord : i.methodByEmitted? owner.descriptor r.name r.prototype.signature = some q)
    (hsentinel : q.scopeId.isSentinel = true) :
    (∀ current s, run s (carryMethod ⟨i, current⟩ r) = (.error (.missingScope r.text), s) ↔
        q.method.scopeId ≠ "") ∧
      ((∀ current calls x, .method r ∈ x.references →
          ∃ e, (run (replay ⟨i, current⟩ calls) (carryBody ⟨i, current⟩ x)).1 = .error e) ↔
        q.method.scopeId ≠ "") ∧
      (q.method.scopeId = "" → ∀ current s, run s (carryMethod ⟨i, current⟩ r) =
        (match current.methodFor ⟨q.declaring.typeScope, ""⟩ with
          | some target => .ok target
          | none => .error (.unresolvedMethod r.text ""),
        { s with queries := s.queries ++ [.method ⟨q.declaring.typeScope, ""⟩] })) := by
  have hword : q.method.scopeId = noScope ↔ q.method.scopeId ≠ "" :=
    ScopeId.member_eq_noScope_iff hsentinel
  have hempty (h : q.method.scopeId = "") : q.method.scopeId ≠ noScope := fun hn => hword.mp hn h
  have hask (h : q.method.scopeId = "") (current : Symbols) (s : PassState) :=
    run_carryMethod_of_ne_noScope (b := ⟨i, current⟩) howner hrecord (hempty h) s
  have hrefuse (h : q.method.scopeId ≠ "") (current : Symbols) (s : PassState) :=
    run_carryMethod_of_eq_noScope (b := ⟨i, current⟩) howner hrecord (hword.mpr h) s
  refine ⟨fun current s => ⟨?_, fun h => hrefuse h current s⟩, ⟨?_, ?_⟩, ?_⟩
  · -- Asking leaves a longer log.
    intro h hnone
    rw [hask hnone] at h
    have hlog := congrArg (fun p => p.2.queries.length) h
    simp at hlog
  · -- Some symbols have a method for the empty scope.
    intro h hnone
    let current : Symbols := ⟨fun _ => none, fun _ => some r⟩
    have hcarried : (Bridge.mk i current).carryMethod r = .ok r := by
      rw [← fst_run_carryMethod, hask hnone]
    obtain ⟨e, he⟩ := h current [] (invoking r) List.mem_cons_self
    have hbody := run_carryBody_invoking hcarried
    cases hbody.symm.trans he
  · intro h current calls x hr
    have hfails : (Bridge.mk i current).carryMethod r = .error (.missingScope r.text) := by
      rw [← fst_run_carryMethod, hrefuse h]
    exact exists_error_of_mem_references hr hfails calls
  · intro h current s
    have hid : q.scopeId = ⟨q.declaring.typeScope, ""⟩ := by
      rw [SymbolMap.Record.scopeId, h]
    rw [hask h, hid, h]

end Pass

/-! ### A method that is recorded with the empty scope -/

namespace Unscoped

/-- The entry of a method with the given scope. -/
def method (scope : String) : MethodEntry := ⟨2, "helper", "helper", "()V", scope, []⟩

/-- The entry of its type. -/
def type (scope : String) : TypeEntry :=
  ⟨1, "Foo", some "Foo", some "3", "Lcom/x/Foo;", some "App", [method scope]⟩

/-- The map of the previous compilation. -/
def map (scope : String) : SymbolMap where
  formatVersion := 1
  producerVersion := "0.1.0"
  generatedClass := none
  modules := []
  types := [type scope]

/-- The record of the method. -/
def record (scope : String) : SymbolMap.Record := ⟨type scope, method scope, "Lcom/x/Foo;"⟩

/-- The reference to the method. -/
def helper : MethodRef := ⟨.named ⟨"Lcom/x/Foo;"⟩, "helper", .ofTypes (.primitive .void) []⟩

/-- Some other method of the current compilation. -/
def other : MethodRef := ⟨.named ⟨"Lcom/y/Foo;"⟩, "other", .ofTypes (.primitive .void) []⟩

/-- Symbols that have a method for the empty scope. -/
def symbols : Symbols where
  classFor _ := none
  methodFor
    | ⟨⟨"Foo:3"⟩, ""⟩ => some other
    | _ => none

/-- The method belongs to a class. -/
theorem owner_helper : helper.owner = .named ⟨"Lcom/x/Foo;"⟩ := rfl

/-- The method has its record. -/
theorem methodByEmitted?_helper (scope : String) :
    (map scope).index.methodByEmitted? "Lcom/x/Foo;" helper.name helper.prototype.signature =
      some (record scope) := rfl

end Unscoped

/-- A recorded method with the word for no scope is refused. -/
theorem Pass.refused_iff_of_isSentinel_word :
    (Unscoped.record noScope).scopeId.isSentinel = true ∧
      (Unscoped.map noScope).index.methodByEmitted? "Lcom/x/Foo;" Unscoped.helper.name
        Unscoped.helper.prototype.signature = some (Unscoped.record noScope) ∧
      run {} (carryMethod ⟨(Unscoped.map noScope).index, Unscoped.symbols⟩ Unscoped.helper) =
        (.error (.missingScope Unscoped.helper.text), {}) := by
  have hsentinel : (Unscoped.record noScope).scopeId.isSentinel = true := by decide
  have hrefused := refused_iff_of_isSentinel Unscoped.owner_helper
    (Unscoped.methodByEmitted?_helper noScope) hsentinel
  exact ⟨hsentinel, rfl, (hrefused.1 Unscoped.symbols {}).mpr (by decide)⟩

/-- **A reference to a member without a stable identity is carried over.** The method is recorded
with the empty scope, which is a sentinel. The pass asks the symbols for that scope, and the body
that referred to the method refers to another one. -/
theorem Pass.empty_scope_is_carried_over :
    (Unscoped.record "").scopeId.isSentinel = true ∧
      (Unscoped.map "").index.methodByEmitted? "Lcom/x/Foo;" Unscoped.helper.name
        Unscoped.helper.prototype.signature = some (Unscoped.record "") ∧
      run {} (carryMethod ⟨(Unscoped.map "").index, Unscoped.symbols⟩ Unscoped.helper) =
        (.ok Unscoped.other, { queries := [.method ⟨⟨"Foo:3"⟩, ""⟩] }) ∧
      (run {} (carryBody ⟨(Unscoped.map "").index, Unscoped.symbols⟩
        (invoking Unscoped.helper))).1 = .ok (invoking Unscoped.other) := by
  have hcarried : run {} (carryMethod ⟨(Unscoped.map "").index, Unscoped.symbols⟩
      Unscoped.helper) = (.ok Unscoped.other, { queries := [.method ⟨⟨"Foo:3"⟩, ""⟩] }) :=
    (run_carryMethod_of_ne_noScope Unscoped.owner_helper
      (Unscoped.methodByEmitted?_helper "") (by decide : "" ≠ noScope) {}).trans rfl
  have hmethod : Bridge.carryMethod ⟨(Unscoped.map "").index, Unscoped.symbols⟩ Unscoped.helper =
      .ok Unscoped.other := by
    rw [← fst_run_carryMethod, hcarried]
  exact ⟨by decide, rfl, hcarried, run_carryBody_invoking hmethod⟩

end BodyCache
